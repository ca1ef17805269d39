import Infragraph.Lib.Digits
import Infragraph.Spec.Domain

/-! `json.Marshal` of the values the code hashes, and what becomes of such a
value in a jsonb column: structs are objects like maps, keys have no order, a
number comes back as a float64. -/

namespace Infragraph

/-- A Go value behind `any`. A struct marshals its fields in declaration order,
a map its keys in byte order. -/
inductive GoValue where
  | null
  | bool (b : Bool)
  | int (n : ℤ)
  | float (f : Number)
  | str (s : String)
  | slice (items : List GoValue)
  | map (entries : List (String × GoValue))
  | struct (fields : List (String × GoValue))

/-- A map field: the nil map is null. -/
def GoValue.ofMap (m : GoMap GoValue) : GoValue := if m.isNil then .null else .map m.entries

def hex4 (n : ℕ) : List Char :=
  ['\\', 'u', hexDigit (n / 4096 % 16), hexDigit (n / 256 % 16), hexDigit (n / 16 % 16), hexDigit (n % 16)]

/-- The escapes of `encoding/json`, HTML characters included. -/
def marshalChar (c : Char) : List Char :=
  match c.toNat with
  | 0x08 => ['\\', 'b']
  | 0x09 => ['\\', 't']
  | 0x0A => ['\\', 'n']
  | 0x0C => ['\\', 'f']
  | 0x0D => ['\\', 'r']
  | 0x22 => ['\\', '"']
  | 0x5C => ['\\', '\\']
  | n => if n < 0x20 ∨ n = 0x3C ∨ n = 0x3E ∨ n = 0x26 ∨ n = 0x2028 ∨ n = 0x2029 then hex4 n else [c]

def marshalString (s : String) : List Char := '"' :: s.toList.flatMap marshalChar ++ ['"']

/-- A float64: plain from 1e-6 to below 1e21, else with an exponent. -/
def Number.marshal (n : Number) : List Char :=
  let s := toString n.digits
  let e : ℤ := s.length + n.exponent - 1
  if -6 ≤ e ∧ e < 21 ∨ n.digits = 0 then (n.sign ++ Number.scaled s n.exponent).toList
  else
    let tail := s.toList.drop 1
    n.sign.toList ++ s.toList.take 1 ++ (if tail = [] then [] else '.' :: tail) ++
      (if e < 0 then ['e', '-'] else ['e', '+']) ++ (toString e.natAbs).toList

def commaSep : List (List Char) → List Char
  | [] => []
  | [t] => t
  | t :: ts => t ++ ',' :: commaSep ts

def marshalField (e : String × List Char) : List Char := marshalString e.1 ++ ':' :: e.2

def keyLe (a b : String × List Char) : Prop := a.1 ≤ b.1

instance : DecidableRel keyLe := fun a b => inferInstanceAs (Decidable (a.1 ≤ b.1))

namespace GoValue

mutual

/-- `json.Marshal`. -/
def marshal : GoValue → List Char
  | null => ['n', 'u', 'l', 'l']
  | bool b => if b then ['t', 'r', 'u', 'e'] else ['f', 'a', 'l', 's', 'e']
  | int n => (toString n).toList
  | float f => f.marshal
  | str s => marshalString s
  | slice items => '[' :: commaSep (marshals items) ++ [']']
  | map entries => '\x7b' :: commaSep (((marshalFields entries).insertionSort keyLe).map marshalField) ++ ['\x7d']
  | struct fields => '\x7b' :: commaSep ((marshalFields fields).map marshalField) ++ ['\x7d']

def marshals : List GoValue → List (List Char)
  | [] => []
  | v :: vs => marshal v :: marshals vs

def marshalFields : List (String × GoValue) → List (String × List Char)
  | [] => []
  | (k, v) :: es => (k, marshal v) :: marshalFields es

end

end GoValue

/-- The float64 nearest to a natural number, ties to even. -/
def nearest64 (n : ℕ) : ℕ :=
  if n ≤ 2 ^ 53 then n
  else
    let unit := 2 ^ (n.log2 - 52)
    let q := n / unit
    let r := n % unit
    (if unit < 2 * r ∨ unit = 2 * r ∧ q % 2 = 1 then q + 1 else q) * unit

/-- The multiple of `unit` nearest to `n`. -/
def nearestMultiple (n unit : ℕ) : ℕ :=
  (if unit < 2 * (n % unit) ∨ unit = 2 * (n % unit) ∧ n / unit % 2 = 1 then n / unit + 1 else n / unit) * unit

def stripZeros : ℕ → ℕ → ℕ → ℕ × ℕ
  | 0, digits, exponent => (digits, exponent)
  | fuel + 1, digits, exponent =>
    if digits % 10 = 0 ∧ digits ≠ 0 then stripZeros fuel (digits / 10) (exponent + 1) else (digits, exponent)

/-- The shortest decimal that reads back as the float64 nearest to `n`. -/
def shortest64 (n : ℕ) : ℕ :=
  let x := nearest64 n
  match ((List.range 25).reverse.map fun j => nearestMultiple x (10 ^ j)).find?
      (fun m => nearest64 m = x ∧ m ≠ 0) with
  | some m => m
  | none => x

def Number.zero : Number := ⟨false, 0, 0, .inr ⟨rfl, rfl⟩⟩

/-- The number with these digits, which end in a non-zero one unless it is zero. -/
def Number.ofDigits (negative : Bool) (digits exponent : ℕ) : Number :=
  if h : digits % 10 ≠ 0 then ⟨negative, digits, exponent, .inl h⟩ else zero

/-- `float64(n)` of an integer. -/
def Number.ofInt (n : ℤ) : Number :=
  let m := shortest64 n.natAbs
  let p := stripZeros (m.log2 + 1) m 0
  .ofDigits (n < 0) p.1 p.2

def Number.numeric (f : Number) : Number := if f.digits = 0 then .zero else f

namespace GoValue

mutual

/-- A marshalled value in a jsonb column, decoded into `any` again. -/
def reloaded : GoValue → GoValue
  | null => null
  | bool b => bool b
  | int n => float (.ofInt n)
  | float f => float f.numeric
  | str s => str s
  | slice items => slice (reloadeds items)
  | map entries => map (reloadedFields entries)
  | struct fields => map (reloadedFields fields)

def reloadeds : List GoValue → List GoValue
  | [] => []
  | v :: vs => reloaded v :: reloadeds vs

def reloadedFields : List (String × GoValue) → List (String × GoValue)
  | [] => []
  | (k, v) :: es => (k, reloaded v) :: reloadedFields es

end

end GoValue

/-- Year, month and day of a day counted from 1 January of year 1. -/
def civil (days : ℤ) : ℤ × ℤ × ℤ :=
  let z := days + 306
  let era := z / 146097
  let doe := z % 146097
  let yoe := (doe - doe / 1460 + doe / 36524 - doe / 146096) / 365
  let doy := doe - (365 * yoe + yoe / 4 - yoe / 100)
  let mp := (5 * doy + 2) / 153
  let month := if mp < 10 then mp + 3 else mp - 9
  (yoe + era * 400 + (if month ≤ 2 then 1 else 0), month, doy - (153 * mp + 2) / 5 + 1)

/-- At least `width` digits. -/
def padded (width : ℕ) (n : ℤ) : List Char :=
  (if n < 0 then ['-'] else []) ++
    if n.natAbs < 10 ^ width then Decimal.digits width n.natAbs else Nat.toDigits 10 n.natAbs

def fraction (nanos : ℕ) : List Char :=
  if nanos = 0 then [] else '.' :: ((Decimal.digits 9 nanos).reverse.dropWhile (· = '0')).reverse

/-- `t.UTC().Format(time.RFC3339Nano)`. -/
def rfc3339Nano (t : Time) : List Char :=
  let seconds := t / 1000000000
  let date := civil (seconds / 86400)
  let clock := seconds % 86400
  padded 4 date.1 ++ '-' :: padded 2 date.2.1 ++ '-' :: padded 2 date.2.2 ++ 'T' :: padded 2 (clock / 3600) ++
    ':' :: padded 2 (clock / 60 % 60) ++ ':' :: padded 2 (clock % 60) ++ fraction (t % 1000000000).toNat ++ ['Z']

end Infragraph
