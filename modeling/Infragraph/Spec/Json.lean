import Mathlib.Data.List.Sort
import Mathlib.Tactic

/-! Go values as the JSON decoder produces them, and the three texts the code
takes of them: `fmt.Sprint`, PostgreSQL's `value::text` of a jsonb column, and
its `value #>> '{}'`. -/

namespace Infragraph

/-- A float64 by the shortest decimal that reads back as it,
`±digits · 10 ^ exponent`. Negative zero is a value of its own. -/
structure Number where
  negative : Bool
  digits : ℕ
  exponent : ℤ
  shortest : digits % 10 ≠ 0 ∨ digits = 0 ∧ exponent = 0
deriving DecidableEq

/-- A decoded JSON value (`any`). The entries of an object are those of a Go
map: their order is not significant. -/
inductive Json where
  | null
  | bool (b : Bool)
  | num (n : Number)
  | str (s : String)
  | arr (items : List Json)
  | obj (entries : List (String × Json))

/-- A Go map with string keys, in one of its iteration orders. -/
structure GoMap (α : Type) where
  entries : List (String × α)
  nodup : (entries.map Prod.fst).Nodup
  isNil : Bool := false
  nil_entries : isNil = true → entries = [] := by simp

namespace GoMap

variable {α : Type}

def nil : GoMap α := ⟨[], List.nodup_nil, true, fun _ => rfl⟩

/-- A map that is made, without entries. -/
def empty : GoMap α := ⟨[], List.nodup_nil, false, fun _ => rfl⟩

@[simp] theorem entries_empty : (empty : GoMap α).entries = [] := rfl

def get (m : GoMap α) (k : String) : Option α := m.entries.lookup k

def len (m : GoMap α) : ℕ := m.entries.length

def single (k : String) (v : α) : GoMap α := ⟨[(k, v)], by simp, false, by simp⟩

/-- `m[k] = v`. -/
def put (m : GoMap α) (k : String) (v : α) : GoMap α where
  entries := if k ∈ m.entries.map Prod.fst then m.entries.map fun e => if e.1 = k then (k, v) else e
    else m.entries ++ [(k, v)]
  nodup := by
    split_ifs with hk
    · have hkeys : (m.entries.map fun e => if e.1 = k then (k, v) else e).map Prod.fst = m.entries.map Prod.fst := by
        rw [List.map_map]
        refine List.map_congr_left fun e _ => ?_
        by_cases he : e.1 = k
        · simp [he]
        · simp [he]
      rw [hkeys]
      exact m.nodup
    · rw [List.map_append]
      exact m.nodup.append (by simp) (by simpa using hk)

end GoMap

/-- `unicode.IsSpace`. -/
def isSpace (c : Char) : Bool :=
  [0x09, 0x0A, 0x0B, 0x0C, 0x0D, 0x20, 0x85, 0xA0, 0x1680, 0x2000, 0x2001, 0x2002, 0x2003, 0x2004,
    0x2005, 0x2006, 0x2007, 0x2008, 0x2009, 0x200A, 0x2028, 0x2029, 0x202F, 0x205F, 0x3000].contains
      c.toNat

/-- `strings.TrimSpace`. -/
def trimSpace (s : String) : String :=
  String.ofList ((s.toList.dropWhile isSpace).reverse.dropWhile isSpace).reverse

/-- `len` of a Go string: its bytes. -/
def byteLen (s : String) : ℕ := s.utf8ByteSize

def zeros (n : ℕ) : String := String.ofList (List.replicate n '0')

namespace Number

def sign (n : Number) : String := if n.negative then "-" else ""

/-- The digits `s` scaled by `10 ^ exponent`, without an exponent part. -/
def scaled (s : String) (exponent : ℤ) : String :=
  if 0 ≤ exponent then s ++ zeros exponent.toNat
  else
    let k := (-exponent).toNat
    if k < s.length then
      String.ofList (s.toList.take (s.length - k)) ++ "." ++ String.ofList (s.toList.drop (s.length - k))
    else "0." ++ zeros (k - s.length) ++ s

/-- PostgreSQL prints a numeric in full and knows no negative zero. -/
def numericText (n : Number) : String :=
  (if n.digits = 0 then "" else n.sign) ++ scaled (toString n.digits) n.exponent

/-- `strconv.FormatFloat(f, 'g', -1, 64)`, which `fmt.Sprint` prints: scientific
from the exponents -5 down and 6 up, with at least two exponent digits. -/
def sprint (n : Number) : String :=
  let s := toString n.digits
  let e : ℤ := s.length + n.exponent - 1
  if -4 ≤ e ∧ e < 6 ∨ n.digits = 0 then n.sign ++ scaled s n.exponent
  else
    let head := String.ofList (s.toList.take 1)
    let tail := String.ofList (s.toList.drop 1)
    let mantissa := if tail = "" then head else head ++ "." ++ tail
    let digits := toString e.natAbs
    n.sign ++ mantissa ++ (if e < 0 then "e-" else "e+") ++ zeros (2 - digits.length) ++ digits

end Number

def hexDigit (n : ℕ) : Char := if n < 10 then Char.ofNat (48 + n) else Char.ofNat (87 + n)

/-- PostgreSQL's escapes inside a JSON string. -/
def escapeChar (c : Char) : List Char :=
  match c.toNat with
  | 0x08 => ['\\', 'b']
  | 0x09 => ['\\', 't']
  | 0x0A => ['\\', 'n']
  | 0x0C => ['\\', 'f']
  | 0x0D => ['\\', 'r']
  | 0x22 => ['\\', '"']
  | 0x5C => ['\\', '\\']
  | n => if n < 0x20 then ['\\', 'u', '0', '0', hexDigit (n / 16), hexDigit (n % 16)] else [c]

def quote (s : String) : String := "\"" ++ String.ofList (s.toList.flatMap escapeChar) ++ "\""

/-- jsonb keeps object keys by length, then by bytes. -/
def jsonbLe (a b : String × String) : Prop :=
  byteLen a.1 < byteLen b.1 ∨ byteLen a.1 = byteLen b.1 ∧ a.1 ≤ b.1

instance : DecidableRel jsonbLe := fun a b =>
  inferInstanceAs (Decidable (byteLen a.1 < byteLen b.1 ∨ byteLen a.1 = byteLen b.1 ∧ a.1 ≤ b.1))

namespace Json

mutual

/-- `value::text` of a jsonb value. -/
def text : Json → String
  | null => "null"
  | bool b => if b then "true" else "false"
  | num n => n.numericText
  | str s => quote s
  | arr items => "[" ++ ", ".intercalate (texts items) ++ "]"
  | obj entries =>
    "\x7b" ++ ", ".intercalate (((fields entries).insertionSort jsonbLe).map fun e =>
      quote e.1 ++ ": " ++ e.2) ++ "\x7d"

def texts : List Json → List String
  | [] => []
  | v :: vs => text v :: texts vs

def fields : List (String × Json) → List (String × String)
  | [] => []
  | (k, v) :: es => (k, text v) :: fields es

end

/-- `value #>> '{}'`: SQL NULL for a JSON null, the bare text for a string. -/
def unquoted : Json → Option String
  | null => none
  | str s => some s
  | v => some v.text

mutual

/-- `fmt.Sprint` of a decoded value. -/
def sprint : Json → String
  | null => "<nil>"
  | bool b => if b then "true" else "false"
  | num n => n.sprint
  | str s => s
  | arr items => "[" ++ " ".intercalate (sprints items) ++ "]"
  | obj entries =>
    "map[" ++ " ".intercalate (((sprintFields entries).insertionSort fun a b => a.1 ≤ b.1).map
      fun e => e.1 ++ ":" ++ e.2) ++ "]"

def sprints : List Json → List String
  | [] => []
  | v :: vs => sprint v :: sprints vs

def sprintFields : List (String × Json) → List (String × String)
  | [] => []
  | (k, v) :: es => (k, sprint v) :: sprintFields es

end

end Json

end Infragraph
