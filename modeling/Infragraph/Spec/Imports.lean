import Infragraph.Spec.Collector

/-! The import previews: what they share, and the import of a JSON inventory with its
scanner for the nesting depth. -/

namespace Infragraph

structure ImportLimits where
  maxBytes : ℤ
  maxItems : ℤ
  maxDepth : ℤ
  maxRows : ℤ

structure Preview where
  assets : List Observation
  relationships : List RelationshipObservation
  errors : List String

def orDefault (limit default : ℤ) : ℤ := if limit ≤ 0 then default else limit

/-- An `io.Reader`: its bytes, and the error that ends them if it is not `io.EOF`. -/
structure Source where
  bytes : List UInt8
  failure : Option String := none

/-- `io.ReadAll(io.LimitReader(r, limit))`. -/
def Source.readAll (r : Source) (limit : ℤ) : Except String (List UInt8) :=
  if limit ≤ r.bytes.length then .ok (r.bytes.take limit.toNat)
  else match r.failure with
    | some e => .error e
    | none => .ok r.bytes

/-- The beginning of the three imports. -/
def Source.readBounded (r : Source) (maxBytes : ℤ) (exceeded : String) : Except String (List UInt8) :=
  match r.readAll (int64 (maxBytes + 1)) with
  | .error e => .error e
  | .ok raw => if maxBytes < raw.length then .error exceeded else .ok raw

/-- The variables of `depth`. -/
structure DepthScan where
  d : ℤ
  max : ℤ
  inString : Bool
  esc : Bool
deriving DecidableEq

def DepthScan.step (s : DepthScan) (c : UInt8) : DepthScan :=
  if s.inString then
    if s.esc then { s with esc := false }
    else if c = 0x5C then { s with esc := true }
    else if c = 0x22 then { s with inString := false }
    else s
  else if c = 0x22 then { s with inString := true }
  else if c = 0x7B ∨ c = 0x5B then { s with d := s.d + 1, max := if s.max < s.d + 1 then s.d + 1 else s.max }
  else if c = 0x7D ∨ c = 0x5D then { s with d := s.d - 1 }
  else s

def depth (raw : List UInt8) : ℤ := (raw.foldl DepthScan.step ⟨0, 0, false, false⟩).max

structure JSONDocument where
  assets : List Observation
  relationships : List RelationshipObservation

/-- `Decode` of a `json.Decoder` that disallows unknown fields, and the text of its error. -/
class InventoryDecoder where
  decode : List UInt8 → Except String JSONDocument

def checkAssets : List Observation → Except String Unit
  | [] => .ok ()
  | a :: as =>
    if a.externalID = "" then .error "asset externalId required"
    else if (assetTypeLabels.lookup a.assetType).isNone then .error "unknown asset type"
    else checkAssets as

section

variable [InventoryDecoder]

/-- The document that `JSON` decodes. -/
def documentOf (r : Source) (l : ImportLimits) : Except String JSONDocument :=
  match r.readBounded (orDefault l.maxBytes (10 * 2 ^ 20)) "JSON exceeds byte limit" with
  | .error e => .error e
  | .ok raw =>
    if orDefault l.maxDepth 16 < depth raw then .error "JSON exceeds depth limit"
    else match InventoryDecoder.decode raw with
      | .error e => .error ("invalid inventory JSON: " ++ e)
      | .ok d => .ok d

def importJSON (r : Source) (l : ImportLimits) : Except String Preview :=
  match documentOf r l with
  | .error e => .error e
  | .ok d =>
    if orDefault l.maxItems 10000 < d.assets.length + d.relationships.length then .error "JSON exceeds item limit"
    else match checkAssets d.assets with
      | .error e => .error e
      | .ok () => .ok ⟨d.assets, d.relationships, []⟩

end

end Infragraph
