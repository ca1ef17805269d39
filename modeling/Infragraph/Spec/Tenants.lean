import Infragraph.Spec.Ingest

/-! The database as one organization sees it: the rows that carry its ID, in
every table. -/

namespace Infragraph

open Relational ReadCommitted

/-- The rows of the organizations that satisfy `q`. -/
def Db.only (db : Db) (q : String → Bool) : Db where
  assets := db.assets.restrict fun r => q r.organizationID
  sourceIdentities := db.sourceIdentities.restrict fun r => q r.organizationID
  strongIdentities := db.strongIdentities.restrict fun r => q r.organizationID
  observations := db.observations.restrict fun r => q r.organizationID
  claims := db.claims.restrict fun r => q r.organizationID
  relationships := db.relationships.restrict fun r => q r.organizationID
  relationshipSources := db.relationshipSources.restrict fun r => q r.organizationID
  relationshipObservations := db.relationshipObservations.restrict fun r => q r.organizationID
  changes := db.changes.restrict fun r => q r.organizationID
  runs := db.runs.restrict fun r => q r.organizationID
  policies := db.policies.restrict fun r => q r.organizationID
  snapshots := db.snapshots.restrict fun r => q r.organizationID
  connectors := db.connectors.restrict fun r => q r.organizationID
  collectors := db.collectors.restrict fun r => q r.organizationID
  credentials := db.credentials.restrict fun r => q r.organizationID
  auditEvents := db.auditEvents.restrict fun r => q r.organizationID

def Db.own (db : Db) (org : String) : Db := db.only fun o => o = org

def Db.others (db : Db) (org : String) : Db := db.only fun o => !decide (o = org)

section

variable [Hashes] [Signatures]

/-- The status of the answer when nothing else runs, and the database after it. -/
def SnapshotRequest.outcome (r : SnapshotRequest) (d : Db) : ℕ × Db :=
  match (collectorSnapshot r).run d with
  | .ok (_, d') => (202, d')
  | .error e => (e.status, d)

end

def Db.TakenBeside (db : Db) (org snapshot : String) : Prop :=
  ∃ x ∈ (db.others org).snapshots, x.id = snapshot

instance (db : Db) (org snapshot : String) : Decidable (db.TakenBeside org snapshot) :=
  inferInstanceAs (Decidable (∃ x ∈ (db.others org).snapshots, x.id = snapshot))

/-- The assets that a reconciliation of the snapshot can come across: those its own
identities are bound to, and those it can create. -/
def SnapshotEnvelope.named [Hashes] (s : SnapshotEnvelope) (db : Db) : List String :=
  (db.own s.organizationID).sourceIdentities.rows.map (·.assetID) ++
    (db.own s.organizationID).strongIdentities.rows.map (·.assetID) ++
    s.assets.map fun o => stableID "asset" [s.organizationID, s.connectorID, o.externalID]

/-- The rows of other organizations refer to assets, relationships and snapshots of
other organizations, and no ID that can be made for a row of this snapshot, with these
assets, is the ID of one of their rows. -/
@[mk_iff] structure Separated [Hashes] (s : SnapshotEnvelope) (named : List String) (auditID : String)
    (db : Db) : Prop where
  identityAsset : ∀ i ∈ (db.others s.organizationID).sourceIdentities,
    ∃ a ∈ (db.others s.organizationID).assets, a.id = i.assetID
  sourceRelationship : ∀ i ∈ (db.others s.organizationID).relationshipSources,
    ∃ x ∈ (db.others s.organizationID).relationships, x.id = i.relationshipID
  assets : ∀ a ∈ (db.others s.organizationID).assets, ∀ o ∈ s.assets,
    a.id ≠ stableID "asset" [s.organizationID, s.connectorID, o.externalID]
  sourceIdentities : ∀ i ∈ (db.others s.organizationID).sourceIdentities, ∀ o ∈ s.assets,
    i.id ≠ stableID "identity" [s.organizationID, s.connectorID, o.externalID]
  relationships : ∀ x ∈ (db.others s.organizationID).relationships, ∀ r ∈ s.relationships,
    ∀ f ∈ named, ∀ g ∈ named, x.id ≠ stableID "relationship" [s.organizationID, f, g, r.type]
  relationshipSources : ∀ i ∈ (db.others s.organizationID).relationshipSources, ∀ r ∈ s.relationships,
    i.id ≠ stableID "relationship-source"
      [s.organizationID, s.connectorID, r.externalFromID, r.externalToID, r.type]
  -- the other IDs are made from the snapshot ID, which is the organization's own unless it is taken
  observations : ∀ x ∈ (db.others s.organizationID).observations,
    x.snapshotID = s.snapshotID ∨ (∃ o ∈ s.assets, x.id = stableID "observation" [s.snapshotID, o.externalID]) →
    db.TakenBeside s.organizationID s.snapshotID
  claims : ∀ c ∈ (db.others s.organizationID).claims,
    (∃ o ∈ s.assets, ∃ e ∈ o.attributes.entries, c.id = stableID "claim" [s.snapshotID, o.externalID, e.1]) →
    db.TakenBeside s.organizationID s.snapshotID
  relationshipObservations : ∀ x ∈ (db.others s.organizationID).relationshipObservations,
    x.snapshotID = s.snapshotID ∨ (∃ r ∈ s.relationships,
      x.id = stableID "relationship-observation" [s.snapshotID, r.externalFromID, r.externalToID, r.type]) →
    db.TakenBeside s.organizationID s.snapshotID
  changes : ∀ x ∈ (db.others s.organizationID).changes,
    (∃ a ∈ named, ∃ type ∈ changeTypes, x.id = stableID "change" ["|".intercalate [s.snapshotID, a, type]]) →
    db.TakenBeside s.organizationID s.snapshotID
  runs : ∀ x ∈ (db.others s.organizationID).runs,
    x.snapshotID = s.snapshotID ∨ x.id = stableID "reconciliation" [s.snapshotID] →
    db.TakenBeside s.organizationID s.snapshotID
  auditEvents : ∀ x ∈ (db.others s.organizationID).auditEvents, x.id ≠ auditID

instance [Hashes] (s : SnapshotEnvelope) (named : List String) (auditID : String) (db : Db) :
    Decidable (Separated s named auditID db) := decidable_of_iff _ (separated_iff s named auditID db).symm

/-- A request by a collector of the organization: its token is no credential of
another organization, and the organization's credentials are for its collectors. -/
structure SnapshotRequest.By [Hashes] (r : SnapshotRequest) (org : String) (db : Db) : Prop where
  credentials : ∀ cc ∈ db.credentials, cc.credentialHash = tokenHash (bearer r.authorization) →
    cc.organizationID = org
  collectors : ∀ cc ∈ db.credentials, cc.organizationID = org → ∀ c ∈ db.collectors, c.id = cc.collectorID →
    c.organizationID = org

end Infragraph
