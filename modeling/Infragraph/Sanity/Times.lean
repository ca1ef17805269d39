import Mathlib.Data.List.TakeWhile
import Infragraph.Spec.Marshal

/-! RFC 3339 texts. A time is determined by its text, and a timestamptz column
keeps the text of a time exactly when it keeps the time. -/

namespace Infragraph

variable {m n w : ℕ} {a b : ℤ} {c : Char}

theorem toDigits_inj (h : Nat.toDigits 10 m = Nat.toDigits 10 n) : m = n := by
  rw [← Nat.ofDigitChars_ten_toDigits (n := m), h, Nat.ofDigitChars_ten_toDigits]

/-- The day of the year, counted from March, in an era of 400 years. -/
theorem day_of_year {doe yoe : ℤ} (h0 : 0 ≤ doe) (h1 : doe < 146097)
    (hy : yoe = (doe - doe / 1460 + doe / 36524 - doe / 146096) / 365) :
    0 ≤ doe - (365 * yoe + yoe / 4 - yoe / 100) ∧ doe - (365 * yoe + yoe / 4 - yoe / 100) ≤ 365 := by
  have hyear : 0 ≤ yoe ∧ yoe < 400 := by omega
  -- a century at a time, where the leap days are linear
  have hd : doe / 36524 = 0 ∨ doe / 36524 = 1 ∨ doe / 36524 = 2 ∨ doe / 36524 = 3 ∨ doe / 36524 = 4 := by omega
  have hg : yoe / 100 = 0 ∨ yoe / 100 = 1 ∨ yoe / 100 = 2 ∨ yoe / 100 = 3 := by omega
  rcases hd with hd | hd | hd | hd | hd <;> rcases hg with hg | hg | hg | hg <;> rw [hd] at hy <;> rw [hg] <;>
    omega

/-- A date by its era, the year in it and the day of that year, both from March. -/
structure CivilParts (days era yoe doy : ℤ) : Prop where
  year : 0 ≤ yoe ∧ yoe < 400
  day : 0 ≤ doy ∧ doy ≤ 365
  days_eq : days + 306 = era * 146097 + (365 * yoe + yoe / 4 - yoe / 100) + doy
  civil_eq : civil days =
    (yoe + era * 400 + (if (if (5 * doy + 2) / 153 < 10 then (5 * doy + 2) / 153 + 3
        else (5 * doy + 2) / 153 - 9) ≤ 2 then 1 else 0),
      if (5 * doy + 2) / 153 < 10 then (5 * doy + 2) / 153 + 3 else (5 * doy + 2) / 153 - 9,
      doy - (153 * ((5 * doy + 2) / 153) + 2) / 5 + 1)

theorem civil_parts (days : ℤ) : ∃ era yoe doy, CivilParts days era yoe doy := by
  have hyear : ∀ doe : ℤ, 0 ≤ doe → doe < 146097 →
      0 ≤ (doe - doe / 1460 + doe / 36524 - doe / 146096) / 365 ∧
        (doe - doe / 1460 + doe / 36524 - doe / 146096) / 365 < 400 := by omega
  exact ⟨_, _, _, hyear ((days + 306) % 146097) (by omega) (by omega),
    day_of_year (by omega) (by omega) rfl, by omega, rfl⟩

theorem civil_bounds (days : ℤ) :
    (1 ≤ (civil days).2.1 ∧ (civil days).2.1 ≤ 12) ∧ 1 ≤ (civil days).2.2 ∧ (civil days).2.2 ≤ 31 := by
  obtain ⟨era, yoe, doy, h⟩ := civil_parts days
  have hday := h.day
  rw [h.civil_eq]
  dsimp only
  split_ifs <;> omega

theorem civil_inj (h : civil a = civil b) : a = b := by
  obtain ⟨era, yoe, doy, ha⟩ := civil_parts a
  obtain ⟨era', yoe', doy', hb⟩ := civil_parts b
  have hda := ha.day
  have hdb := hb.day
  have hya := ha.year
  have hyb := hb.year
  rw [ha.civil_eq, hb.civil_eq, Prod.mk.injEq, Prod.mk.injEq] at h
  obtain ⟨hy, hm, hd⟩ := h
  have hmp : (5 * doy + 2) / 153 = (5 * doy' + 2) / 153 := by split_ifs at hm <;> omega
  have hdoy : doy = doy' := by omega
  obtain rfl : era = era' := by omega
  obtain rfl : yoe = yoe' := by omega
  have hdays := ha.days_eq
  rw [hdoy, ← hb.days_eq] at hdays
  omega

theorem isDigit_of_mem_digits (h : c ∈ Decimal.digits w n) : c.isDigit = true := by
  induction w generalizing n with
  | zero => cases h
  | succ w ih =>
    rcases List.mem_append.mp h with h | h
    · exact ih h
    · rw [List.mem_singleton.mp h]
      simpa using Nat.mod_lt n (by omega)

def paddedDigits (w m : ℕ) : List Char := if m < 10 ^ w then Decimal.digits w m else Nat.toDigits 10 m

theorem padded_eq (w : ℕ) (n : ℤ) : padded w n = (if n < 0 then ['-'] else []) ++ paddedDigits w n.natAbs := rfl

theorem isDigit_paddedDigits (h : c ∈ paddedDigits w m) : c.isDigit = true := by
  unfold paddedDigits at h
  split_ifs at h
  · exact isDigit_of_mem_digits h
  · exact Nat.isDigit_of_mem_toDigits (by omega) le_rfl h

theorem paddedDigits_inj (hw : 0 < w) (h : paddedDigits w m = paddedDigits w n) : m = n := by
  have hlong : ∀ k, ¬k < 10 ^ w → w < (Nat.toDigits 10 k).length := by
    intro k hk
    rw [← not_le, Nat.length_toDigits_le_iff (by omega) hw]
    exact hk
  unfold paddedDigits at h
  split_ifs at h with hm hn hn
  · exact Decimal.digits_injective hm hn h
  · have hlen := hlong n hn
    rw [← h, Decimal.length_digits] at hlen
    omega
  · have hlen := hlong m hm
    rw [h, Decimal.length_digits] at hlen
    omega
  · exact toDigits_inj h

theorem padded_inj (hw : 0 < w) (h : padded w a = padded w b) : a = b := by
  have hminus : ∀ {m : ℕ} {t : List Char}, '-' :: t ≠ paddedDigits w m := by
    intro m t heq
    have hmem : '-' ∈ paddedDigits w m := heq ▸ .head _
    cases isDigit_paddedDigits hmem
  rw [padded_eq, padded_eq] at h
  split_ifs at h with ha hb hb
  · have habs := paddedDigits_inj hw (List.cons.inj h).2
    omega
  · exact absurd h hminus
  · exact absurd h.symm hminus
  · have habs := paddedDigits_inj hw h
    omega

theorem length_padded {n : ℤ} (h0 : 0 ≤ n) (h : n < 10 ^ w) : (padded w n).length = w := by
  have habs : n.natAbs < 10 ^ w := by zify; rwa [abs_of_nonneg h0]
  rw [padded_eq, if_neg (by omega), paddedDigits, if_pos habs, List.nil_append, Decimal.length_digits]

theorem eq_of_trimmed {l l' : List Char} (hlen : l.length = l'.length)
    (h : l.dropWhile (· = '0') = l'.dropWhile (· = '0')) : l = l' := by
  have hzeros : ∀ l : List Char, l = List.replicate (l.length - (l.dropWhile (· = '0')).length) '0' ++
      l.dropWhile (· = '0') := by
    intro l
    have hsplit := List.takeWhile_append_dropWhile (p := fun c => decide (c = '0')) (l := l)
    have htake : l.takeWhile (· = '0') =
        List.replicate (l.length - (l.dropWhile (· = '0')).length) '0' := by
      rw [List.eq_replicate_iff]
      refine ⟨?_, fun c hc => by simpa using List.mem_takeWhile_imp hc⟩
      have hlength := congrArg List.length hsplit
      rw [List.length_append] at hlength
      omega
    rw [← htake, hsplit]
  rw [hzeros l, hzeros l', hlen, h]

theorem fraction_inj {a b : ℕ} (ha : a < 10 ^ 9) (hb : b < 10 ^ 9) (h : fraction a = fraction b) : a = b := by
  unfold fraction at h
  split_ifs at h with h1 h2 h2
  · rw [h1, h2]
  · have htrim := List.reverse_injective (List.cons.inj h).2
    have hdigits := List.reverse_injective (eq_of_trimmed (by simp) htrim)
    exact Decimal.digits_injective ha hb hdigits

theorem not_mem_padded (hdigit : c.isDigit = false) (hminus : c ≠ '-') (w : ℕ) (n : ℤ) : c ∉ padded w n := by
  intro h
  rcases List.mem_append.mp h with h | h
  · split_ifs at h
    · exact hminus (List.mem_singleton.mp h)
    · cases h
  · rw [isDigit_paddedDigits h] at hdigit
    cases hdigit

theorem not_mem_fraction (hdigit : c.isDigit = false) (hdot : c ≠ '.') (n : ℕ) : c ∉ fraction n := by
  unfold fraction
  split_ifs
  · exact List.not_mem_nil
  · intro h
    rcases List.mem_cons.mp h with h | h
    · exact hdot h
    · have hmem := List.dropWhile_subset _ (List.mem_reverse.mp h)
      rw [isDigit_of_mem_digits (List.mem_reverse.mp hmem)] at hdigit
      cases hdigit

def dateText (days : ℤ) : List Char :=
  padded 4 (civil days).1 ++ '-' :: (padded 2 (civil days).2.1 ++ '-' :: padded 2 (civil days).2.2)

def clockText (clock : ℤ) (nanos : ℕ) : List Char :=
  padded 2 (clock / 3600) ++ ':' :: (padded 2 (clock / 60 % 60) ++ ':' :: (padded 2 (clock % 60) ++
    (fraction nanos ++ ['Z'])))

theorem rfc3339Nano_eq (t : Time) : rfc3339Nano t =
    dateText (t / 1000000000 / 86400) ++
      'T' :: clockText (t / 1000000000 % 86400) (t % 1000000000).toNat := by
  simp only [rfc3339Nano, dateText, clockText, List.append_assoc, List.cons_append]

theorem dateText_inj (h : dateText a = dateText b) : a = b := by
  have hlen : ∀ days, (padded 2 (civil days).2.1).length = 2 ∧ (padded 2 (civil days).2.2).length = 2 := by
    intro days
    obtain ⟨⟨hm, hm'⟩, hd, hd'⟩ := civil_bounds days
    exact ⟨length_padded (by omega) (by omega), length_padded (by omega) (by omega)⟩
  obtain ⟨hy, hmd⟩ := List.append_inj' h (by simp [hlen a, hlen b])
  obtain ⟨hm, hd⟩ := List.append_inj (List.cons.inj hmd).2 (by rw [(hlen a).1, (hlen b).1])
  refine civil_inj (Prod.ext (padded_inj (by omega) hy) (Prod.ext (padded_inj (by omega) hm) ?_))
  exact padded_inj (by omega) (List.cons.inj hd).2

theorem clockText_inj (ha : 0 ≤ a ∧ a < 86400) (hb : 0 ≤ b ∧ b < 86400) (hm : m < 10 ^ 9) (hn : n < 10 ^ 9)
    (h : clockText a m = clockText b n) : a = b ∧ m = n := by
  have hlen : ∀ x y : ℤ, 0 ≤ x → x < 100 → 0 ≤ y → y < 100 → (padded 2 x).length = (padded 2 y).length := by
    intro x y hx hx' hy hy'
    rw [length_padded hx (by omega), length_padded hy (by omega)]
  obtain ⟨hh, h⟩ := List.append_inj h (hlen _ _ (by omega) (by omega) (by omega) (by omega))
  obtain ⟨hmin, h⟩ := List.append_inj (List.cons.inj h).2 (hlen _ _ (by omega) (by omega) (by omega) (by omega))
  obtain ⟨hs, h⟩ := List.append_inj (List.cons.inj h).2 (hlen _ _ (by omega) (by omega) (by omega) (by omega))
  have hhour := padded_inj (by omega) hh
  have hminute := padded_inj (by omega) hmin
  have hsecond := padded_inj (by omega) hs
  exact ⟨by omega, fraction_inj hm hn (List.append_cancel_right h)⟩

theorem not_mem_clockText (clock : ℤ) (nanos : ℕ) : 'T' ∉ clockText clock nanos := by
  have hp := fun w n => not_mem_padded (c := 'T') rfl (by decide) w n
  simp [clockText, hp, not_mem_fraction (c := 'T') rfl (by decide)]

theorem not_mem_dateText (days : ℤ) : 'T' ∉ dateText days := by
  have hp := fun w n => not_mem_padded (c := 'T') rfl (by decide) w n
  simp [dateText, hp]

/-- A time is determined by its text. -/
theorem rfc3339Nano_inj {t t' : Time} (h : rfc3339Nano t = rfc3339Nano t') : t = t' := by
  rw [rfc3339Nano_eq, rfc3339Nano_eq, List.append_cons_inj_of_notMem (not_mem_dateText _)
    (not_mem_clockText _ _)] at h
  obtain ⟨hdate, -, hclock⟩ := h
  have hdays := dateText_inj hdate
  obtain ⟨hsecs, hnanos⟩ := clockText_inj (by omega) (by omega) (by omega) (by omega) hclock
  have hjoin : ∀ t t' : ℤ, t / 1000000000 / 86400 = t' / 1000000000 / 86400 →
      t / 1000000000 % 86400 = t' / 1000000000 % 86400 →
      (t % 1000000000).toNat = (t' % 1000000000).toNat → t = t' := by omega
  exact hjoin t t' hdays hsecs hnanos

theorem rfc3339Nano_timestamptz (t : Time) : rfc3339Nano (timestamptz t) = rfc3339Nano t ↔ t % 1000 = 0 := by
  constructor
  · intro h
    have heq := rfc3339Nano_inj h
    exact sub_eq_self.mp heq
  · intro h
    rw [timestamptz, h, sub_zero]

end Infragraph
