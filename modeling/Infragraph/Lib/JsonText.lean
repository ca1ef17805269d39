import Mathlib.Tactic

/-! The grammar of JSON texts on bytes, with the nesting depth of the brackets of a
value: an atom has depth 0, and each pair of brackets is one more than what it holds. -/

namespace JsonText

def blanks : List UInt8 := [0x20, 0x09, 0x0A, 0x0D]

def Blank (t : List UInt8) : Prop := ∀ b ∈ t, b ∈ blanks

instance (t : List UInt8) : Decidable (Blank t) := List.decidableBAll (· ∈ blanks) t

def isDigit (b : UInt8) : Bool := 0x30 ≤ b ∧ b ≤ 0x39

structure Digits (t : List UInt8) : Prop where
  nonempty : t ≠ []
  digits : ∀ b ∈ t, isDigit b = true

/-- A number before its fraction: no leading zero. -/
inductive Integer : List UInt8 → Prop
  | zero : Integer [0x30]
  | digits {t} : Digits t → t.head? ≠ some 0x30 → Integer t

inductive Fraction : List UInt8 → Prop
  | none : Fraction []
  | some {t} : Digits t → Fraction (0x2E :: t)

inductive Exponent : List UInt8 → Prop
  | none : Exponent []
  | some {e t} (signs : List UInt8) : e ∈ [0x65, 0x45] → signs ∈ [[], [0x2B], [0x2D]] → Digits t →
      Exponent (e :: signs ++ t)

inductive Number : List UInt8 → Prop
  | mk {i f e} (signs : List UInt8) : signs ∈ [[], [0x2D]] → Integer i → Fraction f → Exponent e →
      Number (signs ++ i ++ f ++ e)

def isHex (b : UInt8) : Bool := isDigit b || 0x61 ≤ b && b ≤ 0x66 || 0x41 ≤ b && b ≤ 0x46

/-- What stands between the quotes of a string. -/
inductive Characters : List UInt8 → Prop
  | nil : Characters []
  | plain {b t} : 0x20 ≤ b → b ≠ 0x22 → b ≠ 0x5C → Characters t → Characters (b :: t)
  | escape {b t} : b ∈ [0x22, 0x5C, 0x2F, 0x62, 0x66, 0x6E, 0x72, 0x74] → Characters t → Characters (0x5C :: b :: t)
  | unicode {hex t} : hex.length = 4 → (∀ b ∈ hex, isHex b = true) → Characters t →
      Characters (0x5C :: 0x75 :: hex ++ t)

inductive Quoted : List UInt8 → Prop
  | mk {t} : Characters t → Quoted (0x22 :: t ++ [0x22])

def literals : List (List UInt8) :=
  [[0x74, 0x72, 0x75, 0x65], [0x66, 0x61, 0x6C, 0x73, 0x65], [0x6E, 0x75, 0x6C, 0x6C]]

mutual

/-- A value and its nesting depth. -/
inductive Value : List UInt8 → ℕ → Prop
  | literal {t} : t ∈ literals → Value t 0
  | number {t} : Number t → Value t 0
  | string {t} : Quoted t → Value t 0
  | emptyArray {s} : Blank s → Value (0x5B :: s ++ [0x5D]) 1
  | array {t d} : Elements t d → Value (0x5B :: t ++ [0x5D]) (d + 1)
  | emptyObject {s} : Blank s → Value (0x7B :: s ++ [0x7D]) 1
  | object {t d} : Members t d → Value (0x7B :: t ++ [0x7D]) (d + 1)

inductive Elements : List UInt8 → ℕ → Prop
  | last {s t s' d} : Blank s → Value t d → Blank s' → Elements (s ++ t ++ s') d
  | cons {s t s' ts d e} : Blank s → Value t d → Blank s' → Elements ts e →
      Elements (s ++ t ++ s' ++ 0x2C :: ts) (max d e)

inductive Members : List UInt8 → ℕ → Prop
  | last {s k s₁ s₂ t s' d} : Blank s → Quoted k → Blank s₁ → Blank s₂ → Value t d → Blank s' →
      Members (s ++ k ++ s₁ ++ 0x3A :: s₂ ++ t ++ s') d
  | cons {s k s₁ s₂ t s' ts d e} : Blank s → Quoted k → Blank s₁ → Blank s₂ → Value t d → Blank s' → Members ts e →
      Members (s ++ k ++ s₁ ++ 0x3A :: s₂ ++ t ++ s' ++ 0x2C :: ts) (max d e)

end

end JsonText
