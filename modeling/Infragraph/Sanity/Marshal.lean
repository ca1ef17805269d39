import Mathlib.Data.String.Basic
import Infragraph.Lib.Delimited
import Infragraph.Spec.Marshal

/-! Marshalled text can be read back: strings, arrays and objects are determined
by what `json.Marshal` writes for them, down to the texts of their parts. -/

namespace Infragraph

open Delimited

def escapedChars : List Char :=
  (List.range 0x20 ++ [0x22, 0x26, 0x3C, 0x3E, 0x5C, 0x2028, 0x2029]).map Char.ofNat

theorem mem_escapedChars {c : Char}
    (h : c.toNat ∈ List.range 0x20 ++ [0x22, 0x26, 0x3C, 0x3E, 0x5C, 0x2028, 0x2029]) : c ∈ escapedChars :=
  List.mem_map.mpr ⟨c.toNat, h, Char.ofNat_toNat c⟩

theorem marshalChar_cases (c : Char) : c ∈ escapedChars ∨ marshalChar c = [c] ∧ c ≠ '"' ∧ c ≠ '\\' := by
  by_cases h : c.toNat ∈ List.range 0x20 ++ [0x22, 0x26, 0x3C, 0x3E, 0x5C, 0x2028, 0x2029]
  · exact Or.inl (mem_escapedChars h)
  · right
    simp only [List.mem_append, List.mem_range, List.mem_cons, List.not_mem_nil, or_false, not_or] at h
    refine ⟨?_, ?_, ?_⟩
    · unfold marshalChar
      split <;> first | omega | exact if_neg (by omega)
    · rintro rfl
      exact h.2.1 rfl
    · rintro rfl
      exact h.2.2.2.2.2.1 rfl

theorem escaped_shape : ∀ c ∈ escapedChars, (marshalChar c).take 1 = ['\\'] ∧ 2 ≤ (marshalChar c).length ∧
    ∀ x ∈ (marshalChar c).drop 2, x ≠ '"' ∧ x ≠ '\\' := by
  have h : (escapedChars.all fun c => (marshalChar c).take 1 = ['\\'] ∧ 2 ≤ (marshalChar c).length ∧
    ((marshalChar c).drop 2).all fun x => x ≠ '"' ∧ x ≠ '\\') = true := by decide +kernel
  simpa only [List.all_eq_true, decide_eq_true_eq] using h

theorem escaped_prefixFree : ∀ a ∈ escapedChars, ∀ b ∈ escapedChars, marshalChar a <+: marshalChar b → a = b := by
  have h : (escapedChars.all fun a => escapedChars.all fun b => marshalChar a <+: marshalChar b → a = b) = true := by
    decide +kernel
  simpa only [List.all_eq_true, decide_eq_true_eq] using h

theorem head_of_escaped {c : Char} (h : c ∈ escapedChars) : ∃ x t, marshalChar c = '\\' :: x :: t ∧
    ∀ x ∈ t, x ≠ '"' ∧ x ≠ '\\' := by
  obtain ⟨hhead, hlen, hrest⟩ := escaped_shape c h
  match hm : marshalChar c with
  | [] => simp [hm] at hlen
  | [_] => simp [hm] at hlen
  | a :: x :: t =>
    rw [hm] at hhead hrest
    obtain rfl : a = '\\' := by simpa using hhead
    exact ⟨x, t, rfl, hrest⟩

theorem marshalChar_prefixFree : PrefixFree marshalChar := by
  intro a b h
  rcases marshalChar_cases a with ha | ⟨ha, -, ha'⟩ <;> rcases marshalChar_cases b with hb | ⟨hb, -, hb'⟩
  · exact escaped_prefixFree a ha b hb h
  · obtain ⟨x, t, hx, -⟩ := head_of_escaped ha
    rw [hx, hb] at h
    exact absurd (List.cons_prefix_cons.mp h).1.symm hb'
  · obtain ⟨x, t, hx, -⟩ := head_of_escaped hb
    rw [hx, ha] at h
    exact absurd (List.cons_prefix_cons.mp h).1 ha'
  · rw [ha, hb] at h
    exact (List.cons_prefix_cons.mp h).1

theorem marshalChar_ne_quote (c : Char) (x y : List Char) : marshalChar c ++ x ≠ '"' :: y := by
  intro h
  rcases marshalChar_cases c with hc | ⟨hc, hq, -⟩
  · obtain ⟨a, t, ha, -⟩ := head_of_escaped hc
    rw [ha] at h
    cases h
  · rw [hc] at h
    exact hq (List.cons.inj h).1

theorem quoted_marshalChar (c : Char) : Quoted (marshalChar c) := by
  rcases marshalChar_cases c with hc | ⟨hc, hq, he⟩
  · obtain ⟨x, t, hx, ht⟩ := head_of_escaped hc
    rw [hx]
    exact (Quoted.escape x).append (Quoted.chars ht)
  · rw [hc]
    exact Quoted.chars (by simp [hq, he])

theorem closed_marshalString (s : String) : Closed (marshalString s) :=
  Closed.quote (Quoted.flatMap quoted_marshalChar s.toList)

theorem marshalString_append_inj {s s' : String} {r r' : List Char}
    (h : marshalString s ++ r = marshalString s' ++ r') : s = s' ∧ r = r' := by
  simp only [marshalString, List.cons_append, List.append_assoc, List.nil_append, List.cons.injEq, true_and] at h
  obtain ⟨hs, hr⟩ := marshalChar_prefixFree.flatMap_inj marshalChar_ne_quote h
  exact ⟨String.toList_injective hs, hr⟩

theorem plain_toDigits (n : ℕ) : Plain (Nat.toDigits 10 n) := by
  intro c hc hspecial
  have hdigit := Nat.isDigit_of_mem_toDigits (by omega) le_rfl hc
  simp only [special, List.mem_cons, List.not_mem_nil, or_false] at hspecial
  rcases hspecial with rfl | rfl | rfl | rfl | rfl | rfl <;> cases hdigit

theorem toList_toString (n : ℕ) : (toString n).toList = Nat.toDigits 10 n := by
  rw [Nat.toString_eq_ofList_toDigits, String.toList_ofList]

theorem toList_toString_int (n : ℤ) :
    (toString n).toList = (if n < 0 then ['-'] else []) ++ Nat.toDigits 10 n.natAbs := by
  cases n with
  | ofNat m =>
    have hm : toString (Int.ofNat m) = toString m := rfl
    rw [hm, toList_toString]
    rfl
  | negSucc m =>
    have hm : toString (Int.negSucc m) = "-" ++ toString (m + 1) := rfl
    rw [hm, String.toList_append, toList_toString, if_pos (Int.negSucc_lt_zero m)]
    rfl

theorem plain_int (n : ℤ) : Plain (toString n).toList := by
  rw [toList_toString_int]
  refine Plain.append ?_ (plain_toDigits _)
  split_ifs <;> decide

theorem plain_zeros (n : ℕ) : Plain (zeros n).toList := by
  intro c hc
  rw [zeros, String.toList_ofList, List.mem_replicate] at hc
  rw [hc.2]
  decide

theorem plain_sign (f : Number) : Plain f.sign.toList := by
  unfold Number.sign
  split_ifs <;> decide

theorem plain_scaled {s : String} (hs : Plain s.toList) (exponent : ℤ) : Plain (Number.scaled s exponent).toList := by
  unfold Number.scaled
  split
  · rw [String.toList_append]
    exact hs.append (plain_zeros _)
  · dsimp only
    split
    · simp only [String.toList_append, String.toList_ofList]
      refine ((hs.sub (List.take_subset _ _)).append ?_).append (hs.sub (List.drop_subset _ _))
      decide
    · simp only [String.toList_append]
      refine Plain.append (Plain.append ?_ (plain_zeros _)) hs
      decide

theorem plain_number (f : Number) : Plain f.marshal := by
  have hdigits : ∀ n : ℕ, Plain (toString n).toList := fun n => toList_toString n ▸ plain_toDigits n
  unfold Number.marshal
  dsimp only
  split
  · rw [String.toList_append]
    exact (plain_sign f).append (plain_scaled (hdigits _) _)
  · refine ((((plain_sign f).append ((hdigits _).sub (List.take_subset _ _))).append ?_).append ?_).append
      (hdigits _)
    · split
      · decide
      · intro c hc
        rcases List.mem_cons.mp hc with rfl | hc
        · decide
        · exact hdigits _ c (List.drop_subset _ _ hc)
    · split <;> decide

def commaTail : List (List Char) → List Char
  | [] => []
  | t :: ts => ',' :: commaSep (t :: ts)

theorem commaSep_cons (t : List Char) (ts : List (List Char)) : commaSep (t :: ts) = t ++ commaTail ts := by
  cases ts with
  | nil => simp [commaSep, commaTail]
  | cons t' ts => rfl

theorem inner_commaSep {ts : List (List Char)} (h : ∀ t ∈ ts, Closed t) : Inner (commaSep ts) := by
  induction ts with
  | nil => exact Closed.nil.inner
  | cons t ts ih =>
    have ht := (h t (.head _)).inner
    cases ts with
    | nil => exact ht
    | cons t' ts => exact ht.comma (ih fun x hx => h x (.tail _ hx))

theorem commaTail_head (ts : List (List Char)) : ∀ c ∈ (commaTail ts).head?, c ∈ terminators := by
  cases ts with
  | nil => simp [commaTail]
  | cons t ts => simp [commaTail, terminators]

theorem commaSep_cons_inj {t t' : List Char} {ts ts' : List (List Char)} (h : Closed t) (h' : Closed t')
    (heq : commaSep (t :: ts) = commaSep (t' :: ts')) : t = t' ∧ commaSep ts = commaSep ts' := by
  rw [commaSep_cons, commaSep_cons] at heq
  obtain ⟨rfl, htail⟩ := h.append_inj h' (commaTail_head ts) (commaTail_head ts') heq
  refine ⟨rfl, ?_⟩
  cases ts <;> cases ts' <;> simp_all [commaTail]

theorem commaSep_inj {ts ts' : List (List Char)} (h : ∀ t ∈ ts, Closed t) (h' : ∀ t ∈ ts', Closed t)
    (hlen : ts.length = ts'.length) (heq : commaSep ts = commaSep ts') : ts = ts' := by
  induction ts generalizing ts' with
  | nil => exact (List.length_eq_zero_iff.mp hlen.symm).symm
  | cons t ts ih =>
    cases ts' with
    | nil => cases hlen
    | cons t' ts' =>
      obtain ⟨rfl, hsep⟩ := commaSep_cons_inj (h t (.head _)) (h' t' (.head _)) heq
      rw [ih (fun x hx => h x (.tail _ hx)) (fun x hx => h' x (.tail _ hx)) (by simpa using hlen) hsep]

theorem closed_marshalField {e : String × List Char} (h : Closed e.2) : Closed (marshalField e) :=
  (closed_marshalString e.1).append ((show Plain [':'] by decide).closed.append h)

theorem marshalField_inj {e e' : String × List Char} (h : marshalField e = marshalField e') : e = e' := by
  obtain ⟨hk, ht⟩ := marshalString_append_inj h
  exact Prod.ext hk (List.cons.inj ht).2

def objectText (fields : List (String × List Char)) : List Char :=
  '\x7b' :: commaSep (fields.map marshalField) ++ ['\x7d']

theorem closed_objectText {fields : List (String × List Char)} (h : ∀ e ∈ fields, Closed e.2) :
    Closed (objectText fields) := by
  refine Closed.braces (inner_commaSep fun t ht => ?_)
  obtain ⟨e, he, rfl⟩ := List.mem_map.mp ht
  exact closed_marshalField (h e he)

theorem objectText_inj {fields fields' : List (String × List Char)} (h : ∀ e ∈ fields, Closed e.2)
    (h' : ∀ e ∈ fields', Closed e.2) (hlen : fields.length = fields'.length)
    (heq : objectText fields = objectText fields') : fields = fields' := by
  have hclosed : ∀ {es : List (String × List Char)}, (∀ e ∈ es, Closed e.2) →
      ∀ t ∈ es.map marshalField, Closed t := by
    intro es hes t ht
    obtain ⟨e, he, rfl⟩ := List.mem_map.mp ht
    exact closed_marshalField (hes e he)
  have hsep := List.append_cancel_right (List.cons.inj heq).2
  refine List.map_injective_iff.mpr (fun _ _ => marshalField_inj) ?_
  exact commaSep_inj (hclosed h) (hclosed h') (by simpa using hlen) hsep

namespace GoValue

theorem marshals_eq (vs : List GoValue) : marshals vs = vs.map marshal := by
  induction vs with
  | nil => rfl
  | cons v vs ih => rw [marshals, ih, List.map_cons]

theorem marshalFields_eq (es : List (String × GoValue)) : marshalFields es = es.map fun e => (e.1, e.2.marshal) := by
  induction es with
  | nil => rfl
  | cons e es ih =>
    rw [marshalFields, ih, List.map_cons]

theorem marshal_map (es : List (String × GoValue)) :
    (map es).marshal = objectText ((marshalFields es).insertionSort keyLe) := by
  rw [marshal, objectText]

theorem marshal_struct (fs : List (String × GoValue)) : (struct fs).marshal = objectText (marshalFields fs) := by
  rw [marshal, objectText]

mutual

theorem closed_marshal : ∀ v : GoValue, Closed v.marshal
  | null => (show Plain _ by decide).closed
  | bool b => by cases b <;> exact (show Plain _ by decide).closed
  | int n => by rw [marshal]; exact (plain_int n).closed
  | float f => by rw [marshal]; exact (plain_number f).closed
  | str s => by rw [marshal]; exact closed_marshalString s
  | slice items => by rw [marshal]; exact Closed.brackets (inner_commaSep (closed_marshals items))
  | map entries => by
    rw [marshal_map]
    exact closed_objectText fun e he => closed_marshalFields entries e ((List.mem_insertionSort _).mp he)
  | struct fields => by rw [marshal_struct]; exact closed_objectText (closed_marshalFields fields)

theorem closed_marshals : ∀ vs : List GoValue, ∀ t ∈ marshals vs, Closed t
  | [], _, h => nomatch h
  | v :: vs, t, h => by
    rcases List.mem_cons.mp h with rfl | h
    · exact closed_marshal v
    · exact closed_marshals vs t h

theorem closed_marshalFields : ∀ es : List (String × GoValue), ∀ e ∈ marshalFields es, Closed e.2
  | [], _, h => nomatch h
  | (k, v) :: es, e, h => by
    rcases List.mem_cons.mp h with rfl | h
    · exact closed_marshal v
    · exact closed_marshalFields es e h

end

end GoValue

end Infragraph
