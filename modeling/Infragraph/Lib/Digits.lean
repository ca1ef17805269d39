import Mathlib.Data.Nat.Digits.Defs
import Mathlib.Tactic

/-! Decimal numerals of a fixed width. Padded to one width, numerals are ordered
as texts the way their numbers are. -/

namespace Decimal

/-- The last `w` decimal digits of `n`, the most significant first. -/
def digits : ℕ → ℕ → List Char
  | 0, _ => []
  | w + 1, n => digits w (n / 10) ++ [Nat.digitChar (n % 10)]

@[simp] theorem length_digits (w n : ℕ) : (digits w n).length = w := by
  induction w generalizing n with
  | zero => rfl
  | succ w ih => simp [digits, ih]

theorem digitChar_lt {a b : ℕ} (hb : b < 10) (h : a < b) : Nat.digitChar a < Nat.digitChar b := by
  interval_cases b <;> interval_cases a <;> decide

theorem append_lt_append {l l' : List Char} (hl : l.length = l'.length) (h : l < l') (m m' : List Char) :
    l ++ m < l' ++ m' := by
  induction l generalizing l' with
  | nil =>
    cases l' with
    | nil => exact absurd h (List.lt_irrefl _)
    | cons c l' => simp at hl
  | cons c l ih =>
    cases l' with
    | nil => simp at hl
    | cons c' l' =>
      rw [List.cons_lt_cons_iff] at h
      rw [List.cons_append, List.cons_append, List.cons_lt_cons_iff]
      rcases h with h | ⟨rfl, h⟩
      · exact .inl h
      · exact .inr ⟨rfl, ih (by simpa using hl) h⟩

/-- Numerals of one width compare like their numbers. -/
theorem digits_lt {w a b : ℕ} (hb : b < 10 ^ w) (h : a < b) : digits w a < digits w b := by
  induction w generalizing a b with
  | zero => omega
  | succ w ih =>
    simp only [digits]
    by_cases hq : a / 10 < b / 10
    · exact append_lt_append (by simp) (ih (by omega) hq) _ _
    · have hq' : a / 10 = b / 10 := by omega
      rw [hq']
      apply List.append_left_lt
      rw [List.cons_lt_cons_iff]
      exact .inl (digitChar_lt (by omega) (by omega))

theorem digits_injective {w a b : ℕ} (ha : a < 10 ^ w) (hb : b < 10 ^ w) (h : digits w a = digits w b) : a = b := by
  rcases Nat.lt_trichotomy a b with hab | hab | hab
  · exact absurd (h ▸ digits_lt hb hab) (List.lt_irrefl _)
  · exact hab
  · exact absurd (h ▸ digits_lt ha hab) (List.lt_irrefl _)

end Decimal
