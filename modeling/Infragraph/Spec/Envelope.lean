import Infragraph.Spec.Signature

/-! When two envelopes are the same Go value: maps are compared without the order
of their entries, a nil slice or map is not an empty one. -/

namespace Infragraph

namespace Json

def fieldLe (a b : String × Json) : Prop := a.1 ≤ b.1

instance : DecidableRel fieldLe := fun a b => inferInstanceAs (Decidable (a.1 ≤ b.1))

mutual

/-- The value with the entries of every object in key order. -/
def canon : Json → Json
  | null => null
  | bool b => bool b
  | num n => num n
  | str s => str s
  | arr items => arr (canons items)
  | obj entries => obj ((canonFields entries).insertionSort fieldLe)

def canons : List Json → List Json
  | [] => []
  | v :: vs => canon v :: canons vs

def canonFields : List (String × Json) → List (String × Json)
  | [] => []
  | (k, v) :: es => (k, canon v) :: canonFields es

end

def Same (v w : Json) : Prop := v.canon = w.canon

end Json

/-- The same `map[string]any`. -/
def GoMap.SameValues (m m' : GoMap Json) : Prop :=
  m.isNil = m'.isNil ∧ (Json.obj m.entries).Same (.obj m'.entries)

structure Observation.Same (o o' : Observation) : Prop where
  id : o.id = o'.id
  organizationID : o.organizationID = o'.organizationID
  snapshotID : o.snapshotID = o'.snapshotID
  connectorID : o.connectorID = o'.connectorID
  collectorID : o.collectorID = o'.collectorID
  externalID : o.externalID = o'.externalID
  assetType : o.assetType = o'.assetType
  observedAt : o.observedAt = o'.observedAt
  attributes : o.attributes.SameValues o'.attributes
  identityHints : o.identityHints.SameValues o'.identityHints
  fingerprint : o.fingerprint = o'.fingerprint
  status : o.status = o'.status

structure RelationshipObservation.Same (r r' : RelationshipObservation) : Prop where
  relationshipID : r.relationshipID = r'.relationshipID
  snapshotID : r.snapshotID = r'.snapshotID
  connectorID : r.connectorID = r'.connectorID
  externalFromID : r.externalFromID = r'.externalFromID
  externalToID : r.externalToID = r'.externalToID
  type : r.type = r'.type
  observedAt : r.observedAt = r'.observedAt
  attributes : r.attributes.SameValues r'.attributes

/-- The envelopes agree on every field except the signature. -/
structure SnapshotEnvelope.Agree (s t : SnapshotEnvelope) : Prop where
  protocolVersion : s.protocolVersion = t.protocolVersion
  snapshotID : s.snapshotID = t.snapshotID
  organizationID : s.organizationID = t.organizationID
  collectorID : s.collectorID = t.collectorID
  connectorID : s.connectorID = t.connectorID
  connectorType : s.connectorType = t.connectorType
  connectorVersion : s.connectorVersion = t.connectorVersion
  startedAt : s.startedAt = t.startedAt
  completedAt : s.completedAt = t.completedAt
  sequence : s.sequence = t.sequence
  nilAssets : s.nilAssets = t.nilAssets
  assets : List.Forall₂ Observation.Same s.assets t.assets
  nilRelationships : s.nilRelationships = t.nilRelationships
  relationships : List.Forall₂ RelationshipObservation.Same s.relationships t.relationships
  nilWarnings : s.nilWarnings = t.nilWarnings
  warnings : s.warnings = t.warnings
  nilStatistics : s.statistics.isNil = t.statistics.isNil
  statistics : s.statistics.entries.Perm t.statistics.entries
  contentHash : s.contentHash = t.contentHash
  signatureAlgorithm : s.signatureAlgorithm = t.signatureAlgorithm

/-- A nil slice is empty; so it is for every Go value. -/
structure SnapshotEnvelope.Proper (s : SnapshotEnvelope) : Prop where
  assets : s.nilAssets = true → s.assets = []
  relationships : s.nilRelationships = true → s.relationships = []
  warnings : s.nilWarnings = true → s.warnings = []

end Infragraph
