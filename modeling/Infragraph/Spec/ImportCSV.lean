import Infragraph.Lib.Csv
import Infragraph.Spec.Config
import Infragraph.Spec.Imports

/-! The import of a CSV file: a header with three required columns, and a row for each
asset. Rows that cannot be taken are reported in the preview. -/

namespace Infragraph

/-- `strings.ToUpper`. -/
class UpperCasing where
  toUpper : String → String

def textOf (raw : List UInt8) : Option String := String.fromUTF8? ⟨raw.toArray⟩

/-- The columns by name; of columns with one name the last counts. -/
def indexesOf (header : List String) : GoMap ℕ :=
  header.zipIdx.foldl (fun indexes h => indexes.put (toLower (trimSpace h.1)) h.2) .empty

def requiredColumns : List String := ["external_id", "asset_type", "name"]

/-- The columns, and what `Read` returns after the header. -/
structure CsvTable where
  indexes : GoMap ℕ
  rows : List (Except Csv.ParseError (List String))

/-- The first record is the header; the reader expects as many fields of the others. -/
def tableOf (text : String) : Except String CsvTable :=
  match Csv.records text with
  | [] => .error "EOF"
  | first :: records =>
    match first.fields with
    | .error e => .error e.text
    | .ok header =>
      match requiredColumns.find? fun required => ((indexesOf header).get required).isNone with
      | some required => .error ("missing required column " ++ required)
      | none => .ok ⟨indexesOf header, records.map (Csv.Record.expect header.length)⟩

/-- What `CSV` does before the loop over the rows. -/
def csvTable (r : Source) (l : ImportLimits) : Except String CsvTable :=
  match r.readBounded (orDefault l.maxBytes (10 * 2 ^ 20)) "CSV exceeds byte limit" with
  | .error e => .error e
  | .ok raw =>
    match textOf raw with
    | none => .error "CSV must be UTF-8"
    | some text => tableOf text

section

variable [UpperCasing]

/-- `get` in the loop: a cell without the white space around it. -/
def CsvTable.cell (t : CsvTable) (record : List String) (k : String) : String :=
  match record[(t.indexes.get k).getD 0]? with
  | none => ""
  | some v => trimSpace v

def CsvTable.type (t : CsvTable) (record : List String) : String := UpperCasing.toUpper (t.cell record "asset_type")

def CsvTable.attributes (t : CsvTable) (record : List String) : GoMap Json :=
  let attrs := GoMap.single "name" (.str (t.cell record "name"))
  match (t.indexes.get "environment").bind (record[·]?) with
  | none => attrs
  | some v => attrs.put "environment" (.str (UpperCasing.toUpper (trimSpace v)))

def CsvTable.asset (t : CsvTable) (record : List String) : Observation :=
  { externalID := t.cell record "external_id", assetType := t.type record, observedAt := 0
    attributes := t.attributes record, identityHints := .empty }

def rowError (row : ℕ) (text : String) : String := "row " ++ toString (row + 1) ++ ": " ++ text

def Preview.report (p : Preview) (row : ℕ) (text : String) : Preview :=
  { p with errors := p.errors ++ [rowError row text] }

def CsvTable.loop (t : CsvTable) (maxRows : ℤ) (row : ℕ) (p : Preview) :
    List (Except Csv.ParseError (List String)) → Except String Preview
  | [] => .ok p
  | .error e :: rows => t.loop maxRows (row + 1) (p.report row e.text) rows
  | .ok record :: rows =>
    if maxRows < row then .error "CSV exceeds row limit"
    else if (assetTypeLabels.lookup (t.type record)).isNone then
      t.loop maxRows (row + 1) (p.report row "unknown asset type") rows
    else t.loop maxRows (row + 1) { p with assets := p.assets ++ [t.asset record] } rows

def importCSV (r : Source) (l : ImportLimits) : Except String Preview :=
  match csvTable r l with
  | .error e => .error e
  | .ok t => t.loop (orDefault l.maxRows 10000) 1 ⟨[], [], []⟩ t.rows

def CsvTable.outcome (t : CsvTable) (row : ℕ) : Except Csv.ParseError (List String) → Observation ⊕ String
  | .error e => .inr (rowError row e.text)
  | .ok record =>
    if (assetTypeLabels.lookup (t.type record)).isNone then .inr (rowError row "unknown asset type")
    else .inl (t.asset record)

def CsvTable.outcomes (t : CsvTable) : List (Observation ⊕ String) := t.rows.mapIdx fun i row => t.outcome (i + 1) row

/-- Every row is accounted for once, in order, and there are no more than are allowed. -/
structure CsvTable.Accounted (t : CsvTable) (maxRows : ℤ) (result : Except String Preview) : Prop where
  returned : ∀ p, result = .ok p → p.assets = t.outcomes.filterMap Sum.getLeft? ∧
    p.errors = t.outcomes.filterMap Sum.getRight? ∧ (t.rows.length : ℤ) ≤ maxRows
  limited : maxRows < t.rows.length → result = .error "CSV exceeds row limit"

end

/-- The checks that the reconciliation engine makes of observations. -/
structure Applicable (assets : List Observation) : Prop where
  bounded : ∀ a ∈ assets, a.externalID ≠ "" ∧ byteLen a.externalID ≤ 1024
  known : ∀ a ∈ assets, (assetTypeLabels.lookup a.assetType).isSome = true
  distinct : (assets.map (·.externalID)).Nodup

end Infragraph
