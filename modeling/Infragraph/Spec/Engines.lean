import Infragraph.Lib.Register
import Infragraph.Spec.Reconcile
import Infragraph.Spec.Memory

/-! The two engines side by side. The in-memory `Apply` and `ApplyPostgres` get the
same successful snapshots with the same threshold; the register of the snapshots'
external IDs says what either is meant to report. -/

namespace Infragraph

/-- A snapshot for both engines, with the authorities of the one and the orders and
clocks of the two executions. -/
structure Twin where
  snapshot : SnapshotEnvelope
  attributeAuthority : GoMap (GoMap String)
  ranges : Memory.RangeOrder
  memoryClock : Time
  order : MapOrder
  clock : Time

def Twin.memory (t : Twin) (n : ℕ) : Memory.Call :=
  ⟨t.snapshot, .succeeded, ⟨t.attributeAuthority, n⟩, t.ranges, t.memoryClock⟩

def Twin.postgres (t : Twin) (n : ℕ) : ApplyCall := ⟨t.order, t.clock, t.snapshot, n⟩

mutual

/-- A jsonb is refused for a NUL in any of its texts and keys. -/
def Json.storable : Json → Bool
  | .str s => Infragraph.storable s
  | .arr items => storableItems items
  | .obj entries => storableFields entries
  | _ => true

def Json.storableItems : List Json → Bool
  | [] => true
  | v :: vs => v.storable && storableItems vs

def Json.storableFields : List (String × Json) → Bool
  | [] => true
  | (k, v) :: es => Infragraph.storable k && v.storable && storableFields es

end

def Observation.storable (o : Observation) : Bool :=
  Infragraph.storable o.externalID && Infragraph.storable o.assetType && Infragraph.storable o.fingerprint &&
    Json.storableFields o.attributes.entries && Json.storableFields o.identityHints.entries

/-- PostgreSQL takes the texts that `ApplyPostgres` sends for the snapshot: with the sweep
for missing assets, the row of an observation and the rows of a relationship, whose ends
are external IDs of the observations. -/
def SnapshotEnvelope.storable (s : SnapshotEnvelope) : Bool :=
  [s.organizationID, s.connectorID, s.snapshotID].all Infragraph.storable &&
    (s.assets.isEmpty || Infragraph.storable s.collectorID) && s.assets.all Observation.storable &&
    s.relationships.all fun r => Infragraph.storable r.type && Json.storableFields r.attributes.entries

/-- `ApplyPostgres` with the answers of PostgreSQL: unless it fails before, it comes to a
statement that is refused, and returns the error. -/
def ApplyCall.answered [Hashes] (c : ApplyCall) (db : Db) : Except Error (Summary × Db) :=
  if c.snapshot.storable then c.run db else .error .invalidText

def Memory.State.assetStatus (st : Memory.State) (org connector external : String) : Option AssetStatus :=
  (st.externalToAsset.find (org ++ "|" ++ connector ++ "|" ++ external)).bind fun id =>
    (st.assets.find id).map (·.status)

def Db.assetStatus (db : Db) (org connector external : String) : Option AssetStatus :=
  (db.assetOf org connector external).bind fun id => (db.assets.get id).map (·.status)

def Memory.State.linkStatus (st : Memory.State) (org connector : String) (k : LinkName) : Option RelationshipStatus :=
  (st.externalToAsset.find (org ++ "|" ++ connector ++ "|" ++ k.1)).bind fun source =>
    (st.externalToAsset.find (org ++ "|" ++ connector ++ "|" ++ k.2.1)).bind fun target =>
      (st.relationships.find (org ++ "|" ++ connector ++ "|" ++ source ++ "|" ++ target ++ "|" ++ k.2.2)).map
        (·.status)

def Db.linkStatus (db : Db) (org connector : String) (k : LinkName) : Option RelationshipStatus :=
  (db.assetOf org connector k.1).bind fun source =>
    (db.assetOf org connector k.2.1).bind fun target =>
      (db.findRelationship (org, source, target, k.2.2)).map (·.status)

structure SameAssets (s : SnapshotEnvelope) (out : Summary × Memory.State) (out' : Summary × Db) : Prop where
  status : ∀ e, out.2.assetStatus s.organizationID s.connectorID e =
    out'.2.assetStatus s.organizationID s.connectorID e
  created : out.1.created = out'.1.created
  updated : out.1.updated = out'.1.updated
  unchanged : out.1.unchanged = out'.1.unchanged
  missing : out.1.missing = out'.1.missing
  conflicting : out.1.conflicting = out'.1.conflicting

def SameLinks (s : SnapshotEnvelope) (out : Summary × Memory.State) (out' : Summary × Db) : Prop :=
  ∀ k, out.2.linkStatus s.organizationID s.connectorID k = out'.2.linkStatus s.organizationID s.connectorID k

/-- Both engines take the snapshots one after the other, and after each of them give
the same account. -/
def EnginesAgree [Hashes] (same : SnapshotEnvelope → Summary × Memory.State → Summary × Db → Prop) (n : ℕ) :
    Memory.State → Db → List Twin → Prop
  | _, _, [] => True
  | st, db, t :: ts => ∃ out out', (t.memory n).run st = .ok out ∧ (t.postgres n).answered db = .ok out' ∧
      same t.snapshot out out' ∧ EnginesAgree same n out.2 out'.2 ts

def SnapshotEnvelope.observedIDs (s : SnapshotEnvelope) : Finset String :=
  (s.assets.map fun o => o.externalID).toFinset

def SnapshotEnvelope.triples (s : SnapshotEnvelope) : Finset LinkName := (s.relationships.map (·.triple)).toFinset

structure RoundSummary (r : Register String) (n : ℕ) (seen : Finset String) (sum : Summary) : Prop where
  created : sum.created = (r.discovered seen).card
  updated : sum.updated = (r.returned n seen).card
  unchanged : sum.unchanged = (r.steady n seen).card
  missing : sum.missing = (r.lost n seen).card
  conflicting : sum.conflicting = 0

end Infragraph
