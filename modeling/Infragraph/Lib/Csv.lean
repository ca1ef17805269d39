import Mathlib.Tactic

/-! The records of a comma-separated text, with quoted fields that may run over several
lines, as a reader that checks the number of fields returns them one after another.
A faulty record is reported where it is found, and the rest of its line is passed over. -/

namespace Csv

inductive Fault where
  | bareQuote
  | quote
  | fieldCount
deriving DecidableEq

def Fault.text : Fault → String
  | bareQuote => "bare \" in non-quoted-field"
  | quote => "extraneous or missing \" in quoted-field"
  | fieldCount => "wrong number of fields"

/-- A fault, the lines of its record and of itself, and its column in bytes. -/
structure ParseError where
  startLine : ℕ
  line : ℕ
  column : ℕ
  fault : Fault
deriving DecidableEq

def ParseError.text (e : ParseError) : String :=
  if e.fault = .fieldCount then "record on line " ++ toString e.line ++ ": " ++ e.fault.text
  else if e.startLine ≠ e.line then
    "record on line " ++ toString e.startLine ++ "; parse error on line " ++ toString e.line ++ ", column " ++
      toString e.column ++ ": " ++ e.fault.text
  else "parse error on line " ++ toString e.line ++ ", column " ++ toString e.column ++ ": " ++ e.fault.text

structure Record where
  line : ℕ
  fields : Except ParseError (List String)
deriving DecidableEq

/-- Lines end in a line feed, with or without a carriage return; one at the end of the
text is dropped. -/
def normalise : List Char → List Char
  | [] => []
  | ['\r'] => []
  | '\r' :: '\n' :: cs => '\n' :: normalise cs
  | c :: cs => c :: normalise cs

inductive Mode where
  /-- between records, where empty lines are passed over -/
  | between
  /-- in a field without quotes, at its beginning or behind it -/
  | unquoted (fresh : Bool)
  /-- between quotes; after a line feed the next line is counted when there is one -/
  | quoted (broken : Bool)
  /-- behind a quote that ends the field, unless another one follows -/
  | quoteSeen
  /-- behind a fault -/
  | skipping
deriving DecidableEq

structure Scan where
  mode : Mode := .between
  field : List Char := []
  fields : List String := []
  /-- the line on which the record begins -/
  start : ℕ := 1
  line : ℕ := 1
  col : ℕ := 1

namespace Scan

def closed (s : Scan) : List String := s.fields ++ [String.ofList s.field]

def nextField (s : Scan) : Scan :=
  { s with mode := .unquoted true, field := [], fields := s.closed, col := s.col + 1 }

def endRecord (s : Scan) : Scan × Option Record := ({ line := s.line + 1 }, some ⟨s.start, .ok s.closed⟩)

def reject (s : Scan) (column : ℕ) (fault : Fault) : Scan × Option Record :=
  ({ s with mode := .skipping }, some ⟨s.start, .error ⟨s.start, s.line, column, fault⟩⟩)

def push (s : Scan) (mode : Mode) (c : Char) : Scan :=
  { s with mode := mode, field := s.field ++ [c], col := s.col + c.utf8Size }

def stepUnquoted (s : Scan) (fresh : Bool) (c : Char) : Scan × Option Record :=
  if c = ',' then (s.nextField, none)
  else if c = '\n' then s.endRecord
  else if c = '"' then
    if fresh then ({ s with mode := .quoted false, col := s.col + 1 }, none) else s.reject s.col .bareQuote
  else (s.push (.unquoted false) c, none)

def stepQuoted (s : Scan) (c : Char) : Scan × Option Record :=
  if c = '"' then ({ s with mode := .quoteSeen, col := s.col + 1 }, none)
  else if c = '\n' then (s.push (.quoted true) c, none)
  else (s.push (.quoted false) c, none)

def stepQuoteSeen (s : Scan) (c : Char) : Scan × Option Record :=
  if c = '"' then (s.push (.quoted false) c, none)
  else if c = ',' then (s.nextField, none)
  else if c = '\n' then s.endRecord
  else s.reject (s.col - 1) .quote

/-- A character: the next state, and the record or fault it completes. -/
def step (s : Scan) (c : Char) : Scan × Option Record :=
  match s.mode with
  | .between =>
    if c = '\n' then ({ line := s.line + 1 }, none)
    else stepUnquoted { start := s.line, line := s.line } true c
  | .unquoted fresh => s.stepUnquoted fresh c
  | .quoted false => s.stepQuoted c
  | .quoted true => stepQuoted { s with line := s.line + 1, col := 1 } c
  | .quoteSeen => s.stepQuoteSeen c
  | .skipping => if c = '\n' then ({ line := s.line + 1 }, none) else (s, none)

def finish (s : Scan) : Option Record :=
  match s.mode with
  | .between | .skipping => none
  | .unquoted _ | .quoteSeen => some ⟨s.start, .ok s.closed⟩
  | .quoted _ => some ⟨s.start, .error ⟨s.start, s.line, s.col, .quote⟩⟩

def records (s : Scan) : List Char → List Record
  | [] => s.finish.toList
  | c :: cs => (s.step c).2.toList ++ (s.step c).1.records cs

end Scan

def records (text : String) : List Record := Scan.records {} (normalise text.toList)

/-- What a reader that expects `n` fields returns of a record. -/
def Record.expect (n : ℕ) (r : Record) : Except ParseError (List String) :=
  match r.fields with
  | .error e => .error e
  | .ok fields => if fields.length ≠ n then .error ⟨r.line, r.line, 1, .fieldCount⟩ else .ok fields

theorem length_normalise_le (cs : List Char) : (normalise cs).length ≤ cs.length := by
  fun_induction normalise cs with
  | case1 => exact le_rfl
  | case2 => simp
  | case3 cs ih =>
    simp only [List.length_cons]
    omega
  | case4 c cs _ _ ih =>
    simp only [List.length_cons]
    omega

/-- A character completes at most one record, and so does the end. -/
theorem Scan.length_records_le (s : Scan) (cs : List Char) : (s.records cs).length ≤ cs.length + 1 := by
  induction cs generalizing s with
  | nil => cases h : s.finish <;> simp [records, h]
  | cons c cs ih =>
    have hone : (s.step c).2.toList.length ≤ 1 := by cases (s.step c).2 <;> simp
    have hrest := ih (s.step c).1
    rw [records, List.length_append, List.length_cons]
    omega

theorem length_records_le (text : String) : (records text).length ≤ text.toList.length + 1 :=
  (Scan.length_records_le _ _).trans (Nat.succ_le_succ (length_normalise_le _))

end Csv
