import Infragraph.Sanity.Marshal
import Infragraph.Sanity.Times

/-! A marshalled number is determined by its text. The text is read back as its
sign, its digits without the point, the places after the point and the exponent. -/

namespace Infragraph

open Delimited

variable {c : Char} {digits : ℕ} {exponent : ℤ}

theorem isDigit_of_mem_toDigits {n : ℕ} (h : c ∈ Nat.toDigits 10 n) : c.isDigit = true :=
  Nat.isDigit_of_mem_toDigits (by omega) le_rfl h

theorem not_mem_toDigits {n : ℕ} (h : c.isDigit = false) : c ∉ Nat.toDigits 10 n := by
  intro hc
  rw [isDigit_of_mem_toDigits hc] at h
  cases h

theorem eq_of_mul_pow_le {a b j i : ℕ} (ha : a % 10 ≠ 0) (h : a * 10 ^ j = b * 10 ^ (j + i)) : a = b ∧ i = 0 := by
  have h : a = b * 10 ^ i := by
    rw [pow_add, ← mul_assoc, mul_right_comm] at h
    exact Nat.eq_of_mul_eq_mul_right (by positivity) h
  cases i with
  | zero => exact ⟨by simpa using h, rfl⟩
  | succ i =>
    have hten : a = 10 * (b * 10 ^ i) := by
      rw [h]
      ring
    omega

/-- Trailing zeros are told apart from the digits before them. -/
theorem eq_of_mul_pow {a b j k : ℕ} (ha : a % 10 ≠ 0) (hb : b % 10 ≠ 0) (h : a * 10 ^ j = b * 10 ^ k) :
    a = b ∧ j = k := by
  cases le_total j k with
  | inl hjk =>
    obtain ⟨i, rfl⟩ := Nat.exists_eq_add_of_le hjk
    obtain ⟨hab, rfl⟩ := eq_of_mul_pow_le ha h
    exact ⟨hab, rfl⟩
  | inr hkj =>
    obtain ⟨i, rfl⟩ := Nat.exists_eq_add_of_le hkj
    obtain ⟨hab, rfl⟩ := eq_of_mul_pow_le hb h.symm
    exact ⟨hab.symm, rfl⟩

def plainBody (digits : ℕ) (exponent : ℤ) : List Char := (Number.scaled (toString digits) exponent).toList

theorem plainBody_nonneg (h : 0 ≤ exponent) :
    plainBody digits exponent = Nat.toDigits 10 digits ++ List.replicate exponent.toNat '0' := by
  unfold plainBody Number.scaled
  rw [if_pos h, String.toList_append, toList_toString, zeros, String.toList_ofList]

theorem value_nonneg (digits j : ℕ) :
    Nat.ofDigitChars 10 (Nat.toDigits 10 digits ++ List.replicate j '0') 0 = digits * 10 ^ j := by
  rw [Nat.ofDigitChars_append, Nat.ofDigitChars_ten_toDigits, Nat.ofDigitChars_replicate_zero, mul_comm]

/-- With a negative exponent there is a point, as many places after it, and the
digits around it are the number's. -/
theorem plainBody_neg (digits : ℕ) (h : exponent < 0) :
    ∃ x y, plainBody digits exponent = x ++ '.' :: y ∧ (∀ c ∈ x ++ y, c.isDigit = true) ∧
      y.length = (-exponent).toNat ∧ Nat.ofDigitChars 10 (x ++ y) 0 = digits := by
  have hlength : (toString digits).length = (Nat.toDigits 10 digits).length := by
    rw [← toList_toString, String.length_toList]
  unfold plainBody Number.scaled
  rw [if_neg (by omega)]
  dsimp only
  rw [hlength]
  set D := Nat.toDigits 10 digits with hD
  have hvalue : Nat.ofDigitChars 10 D 0 = digits := Nat.ofDigitChars_ten_toDigits
  split_ifs with hlong
  · simp only [String.toList_append, String.toList_ofList, toList_toString, ← hD]
    refine ⟨D.take (D.length - (-exponent).toNat), D.drop (D.length - (-exponent).toNat), by simp, ?_, ?_, ?_⟩
    · rw [List.take_append_drop]
      exact fun c hc => isDigit_of_mem_toDigits hc
    · rw [List.length_drop]
      omega
    · rw [List.take_append_drop, hvalue]
  · simp only [String.toList_append, toList_toString, ← hD, zeros, String.toList_ofList]
    refine ⟨['0'], List.replicate ((-exponent).toNat - D.length) '0' ++ D, by simp, ?_, ?_, ?_⟩
    · intro c hc
      simp only [List.mem_append, List.mem_singleton, List.mem_replicate] at hc
      obtain rfl | ⟨-, rfl⟩ | hc := hc
      · rfl
      · rfl
      · exact isDigit_of_mem_toDigits hc
    · rw [List.length_append, List.length_replicate]
      omega
    · rw [Nat.ofDigitChars_append, Nat.ofDigitChars_append]
      simpa [Nat.ofDigitChars_cons] using hvalue

theorem not_mem_plainBody (hdigit : c.isDigit = false)
    (hpoint : exponent < 0 → c ≠ '.') : c ∉ plainBody digits exponent := by
  intro hc
  by_cases h : exponent < 0
  · obtain ⟨x, y, heq, hdigits, -⟩ := plainBody_neg digits h
    rw [heq, List.mem_append, List.mem_cons] at hc
    have hc : c ∈ x ++ y := by
      simp only [List.mem_append]
      tauto
    rw [hdigits c hc] at hdigit
    cases hdigit
  · rw [plainBody_nonneg (by omega), List.mem_append] at hc
    cases hc with
    | inl hc => exact not_mem_toDigits hdigit hc
    | inr hc =>
      rw [(List.mem_replicate.mp hc).2] at hdigit
      cases hdigit

theorem plainBody_point (digits : ℕ) : '.' ∈ plainBody digits exponent ↔ exponent < 0 := by
  constructor
  · intro hmem
    by_contra h
    exact not_mem_plainBody rfl (fun hneg => absurd hneg h) hmem
  · intro h
    obtain ⟨x, y, heq, -⟩ := plainBody_neg digits h
    rw [heq]
    simp

def Shortest (digits : ℕ) (exponent : ℤ) : Prop := digits % 10 ≠ 0 ∨ digits = 0 ∧ exponent = 0

theorem plainBody_inj {d d' : ℕ} {e e' : ℤ} (hs : Shortest d e) (hs' : Shortest d' e')
    (h : plainBody d e = plainBody d' e') : d = d' ∧ e = e' := by
  have hiff : e < 0 ↔ e' < 0 := by rw [← plainBody_point d, h, plainBody_point]
  by_cases hneg : e < 0
  · obtain ⟨x, y, hxy, hdigits, hy, hvalue⟩ := plainBody_neg d hneg
    obtain ⟨x', y', hxy', hdigits', hy', hvalue'⟩ := plainBody_neg d' (hiff.mp hneg)
    have hpoint : ∀ {x y : List Char}, (∀ c ∈ x ++ y, c.isDigit = true) → '.' ∉ x :=
      fun hall hmem => absurd (hall _ (List.mem_append_left _ hmem)) (by decide)
    rw [hxy, hxy'] at h
    obtain ⟨rfl, rfl⟩ := mark_inj (hpoint hdigits) (hpoint hdigits') h
    exact ⟨hvalue.symm.trans hvalue', by omega⟩
  · rw [plainBody_nonneg (by omega), plainBody_nonneg (by omega)] at h
    have hvalue := congrArg (Nat.ofDigitChars 10 · 0) h
    simp only [value_nonneg] at hvalue
    cases hs with
    | inl hd =>
      cases hs' with
      | inl hd' =>
        obtain ⟨rfl, hexp⟩ := eq_of_mul_pow hd hd' hvalue
        exact ⟨rfl, by omega⟩
      | inr hzero =>
        obtain ⟨rfl, rfl⟩ := hzero
        simp at hvalue
        omega
    | inr hzero =>
      obtain ⟨rfl, rfl⟩ := hzero
      cases hs' with
      | inl hd' =>
        simp at hvalue
        omega
      | inr hzero =>
        obtain ⟨rfl, rfl⟩ := hzero
        exact ⟨rfl, rfl⟩

def mantissa (digits : ℕ) : List Char :=
  (Nat.toDigits 10 digits).take 1 ++
    if (Nat.toDigits 10 digits).drop 1 = [] then [] else '.' :: (Nat.toDigits 10 digits).drop 1

theorem filter_mantissa (digits : ℕ) : (mantissa digits).filter Char.isDigit = Nat.toDigits 10 digits := by
  have hall : ∀ c ∈ Nat.toDigits 10 digits, c.isDigit = true := fun c hc => isDigit_of_mem_toDigits hc
  unfold mantissa
  split_ifs with htail
  · have hwhole := List.take_append_drop 1 (Nat.toDigits 10 digits)
    rw [htail] at hwhole
    rw [hwhole]
    exact List.filter_eq_self.mpr hall
  · rw [List.filter_append, List.filter_cons_of_neg (by decide), ← List.filter_append, List.take_append_drop]
    exact List.filter_eq_self.mpr hall

theorem not_mem_mantissa (hdigit : c.isDigit = false) (hpoint : c ≠ '.') : c ∉ mantissa digits := by
  unfold mantissa
  intro hc
  split_ifs at hc
  · rw [List.append_nil] at hc
    exact not_mem_toDigits hdigit (List.mem_of_mem_take hc)
  · cases List.mem_append.mp hc with
    | inl hc => exact not_mem_toDigits hdigit (List.mem_of_mem_take hc)
    | inr hc =>
      cases List.mem_cons.mp hc with
      | inl heq => exact hpoint heq
      | inr hc => exact not_mem_toDigits hdigit (List.mem_of_mem_drop hc)

def exponentBody (digits : ℕ) (e : ℤ) : List Char :=
  mantissa digits ++ 'e' :: (if e < 0 then '-' else '+') :: Nat.toDigits 10 e.natAbs

theorem exponentBody_inj {d d' : ℕ} {e e' : ℤ} (h : exponentBody d e = exponentBody d' e') : d = d' ∧ e = e' := by
  obtain ⟨hmantissa, hrest⟩ := mark_inj (not_mem_mantissa rfl (by decide)) (not_mem_mantissa rfl (by decide)) h
  have hd := congrArg (List.filter Char.isDigit) hmantissa
  rw [filter_mantissa, filter_mantissa] at hd
  obtain ⟨hsign, hdigits⟩ := List.cons.inj hrest
  have habs := toDigits_inj hdigits
  refine ⟨toDigits_inj hd, ?_⟩
  by_cases he : e < 0 <;> by_cases he' : e' < 0
  · omega
  · rw [if_pos he, if_neg he'] at hsign
    cases hsign
  · rw [if_neg he, if_pos he'] at hsign
    cases hsign
  · omega

namespace Number

def scientific (n : Number) : ℤ := (Nat.toDigits 10 n.digits).length + n.exponent - 1

def IsPlain (n : Number) : Prop := -6 ≤ n.scientific ∧ n.scientific < 21 ∨ n.digits = 0

theorem marshal_eq (n : Number) : (n.IsPlain ∧ n.marshal = n.sign.toList ++ plainBody n.digits n.exponent) ∨
      (¬ n.IsPlain ∧ n.marshal = n.sign.toList ++ exponentBody n.digits n.scientific) := by
  have hlength : (toString n.digits).length = (Nat.toDigits 10 n.digits).length := by
    rw [← toList_toString, String.length_toList]
  have hdef : n.marshal = if -6 ≤ n.scientific ∧ n.scientific < 21 ∨ n.digits = 0
      then n.sign.toList ++ plainBody n.digits n.exponent
      else n.sign.toList ++ exponentBody n.digits n.scientific := by
    unfold marshal scientific
    dsimp only
    rw [hlength]
    simp only [toList_toString, String.toList_append]
    refine if_congr Iff.rfl rfl ?_
    unfold exponentBody mantissa
    split_ifs <;> simp
  by_cases h : n.IsPlain
  · exact .inl ⟨h, hdef.trans (if_pos h)⟩
  · exact .inr ⟨h, hdef.trans (if_neg h)⟩

theorem marshal_body (n : Number) : ∃ body, n.marshal = n.sign.toList ++ body ∧ ∀ t, body ≠ '-' :: t := by
  obtain ⟨-, h⟩ | ⟨-, h⟩ := n.marshal_eq
  · refine ⟨_, h, ?_⟩
    intro t ht
    have hminus : '-' ∈ plainBody n.digits n.exponent := ht ▸ .head _
    exact not_mem_plainBody rfl (fun _ => by decide) hminus
  · refine ⟨_, h, ?_⟩
    intro t ht
    have hminus : '-' ∉ mantissa n.digits := not_mem_mantissa rfl (by decide)
    unfold exponentBody at ht
    cases hm : mantissa n.digits with
    | nil =>
      rw [hm] at ht
      cases ht
    | cons c m =>
      rw [hm] at ht hminus
      obtain ⟨rfl, -⟩ := List.cons.inj ht
      exact hminus (.head _)

theorem sign_inj {m n : Number} {x y : List Char} (hx : ∀ t, x ≠ '-' :: t) (hy : ∀ t, y ≠ '-' :: t)
    (h : m.sign.toList ++ x = n.sign.toList ++ y) : m.negative = n.negative ∧ x = y := by
  unfold sign at h
  cases hm : m.negative <;> cases hn : n.negative <;> simp [hm, hn] at h ⊢
  · exact h
  · exact absurd h (hx y)
  · exact absurd h.symm (hy x)
  · exact h

theorem marshal_inj {m n : Number} (h : m.marshal = n.marshal) : m = n := by
  have hparts : m.negative = n.negative ∧ m.digits = n.digits ∧ m.exponent = n.exponent := by
    obtain ⟨x, hx, hxsign⟩ := m.marshal_body
    obtain ⟨y, hy, hysign⟩ := n.marshal_body
    obtain ⟨hm, hmx⟩ | ⟨hm, hmx⟩ := m.marshal_eq <;> obtain ⟨hn, hny⟩ | ⟨hn, hny⟩ := n.marshal_eq
    all_goals
      obtain rfl := List.append_cancel_left (hx.symm.trans hmx)
      obtain rfl := List.append_cancel_left (hy.symm.trans hny)
      obtain ⟨hsign, hbody⟩ := sign_inj hxsign hysign (hx.symm.trans (h.trans hy))
    · exact ⟨hsign, plainBody_inj m.shortest n.shortest hbody⟩
    · have he : 'e' ∈ plainBody m.digits m.exponent := by simp [hbody, exponentBody]
      exact absurd he (not_mem_plainBody rfl fun _ => by decide)
    · have he : 'e' ∈ plainBody n.digits n.exponent := by simp [← hbody, exponentBody]
      exact absurd he (not_mem_plainBody rfl fun _ => by decide)
    · obtain ⟨hdigits, hexponent⟩ := exponentBody_inj hbody
      unfold scientific at hexponent
      rw [hdigits] at hexponent
      exact ⟨hsign, hdigits, by omega⟩
  obtain ⟨negative, digits, exponent, _⟩ := m
  obtain ⟨rfl, rfl, rfl⟩ := hparts
  rfl

theorem marshal_chars (n : Number) (hc : c ∈ n.marshal) : c.isDigit = true ∨ c ∈ ['-', '+', '.', 'e'] := by
  by_contra hno
  obtain ⟨hdigit, hsymbol⟩ := not_or.mp hno
  simp only [Bool.not_eq_true] at hdigit
  simp only [List.mem_cons, List.not_mem_nil, or_false, not_or] at hsymbol
  obtain ⟨hminus, hplus, hpoint, he⟩ := hsymbol
  have hsign : c ∉ n.sign.toList := by
    unfold sign
    split_ifs <;> simp [hminus]
  obtain ⟨-, h⟩ | ⟨-, h⟩ := n.marshal_eq <;> rw [h, List.mem_append] at hc
  · exact not_mem_plainBody hdigit (fun _ => hpoint) (hc.resolve_left hsign)
  · have hc := hc.resolve_left hsign
    simp only [exponentBody, List.mem_append, List.mem_cons] at hc
    obtain hc | hc | hc | hc := hc
    · exact not_mem_mantissa hdigit hpoint hc
    · exact he hc
    · split_ifs at hc
      · exact hminus hc
      · exact hplus hc
    · exact not_mem_toDigits hdigit hc

theorem marshal_ne_nil (n : Number) : n.marshal ≠ [] := by
  obtain ⟨-, h⟩ | ⟨-, h⟩ := n.marshal_eq <;> rw [h]
  · by_cases hneg : n.exponent < 0
    · obtain ⟨x, y, heq, -⟩ := plainBody_neg n.digits hneg
      simp [heq]
    · simp [plainBody_nonneg (not_lt.mp hneg)]
  · simp [exponentBody]

end Number

end Infragraph
