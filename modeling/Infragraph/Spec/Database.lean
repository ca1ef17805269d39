import Infragraph.Lib.Table
import Infragraph.Lib.Prog
import Infragraph.Spec.Marshal

/-! The tables of the control plane that ingest and reconciliation read or
write, keyed by the unique constraint their upserts name. -/

namespace Infragraph

open Relational ReadCommitted

structure AssetRow where
  id : String
  organizationID : String
  canonicalName : String
  displayName : String
  assetType : String
  status : AssetStatus
  environment : Option String
  firstSeenAt : Time
  lastSeenAt : Time

structure SourceIdentityRow where
  id : String
  organizationID : String
  assetID : String
  connectorID : String
  externalID : String
  externalType : String
  firstSeenAt : Time
  lastSeenAt : Time
  status : SourceStatus
  consecutiveAbsences : ℕ

structure StrongIdentityRow where
  organizationID : String
  identityKey : String
  identityValue : String
  assetID : String
  firstSeenAt : Time
  lastSeenAt : Time

structure ObservationRow where
  id : String
  organizationID : String
  snapshotID : String
  connectorID : String
  externalID : String
  assetType : String
  observedAt : Time

structure ClaimRow where
  id : String
  organizationID : String
  assetID : String
  attributeKey : String
  value : Json
  connectorID : String
  snapshotID : String
  observedAt : Time
  authority : String
  active : Bool

structure RelationshipRow where
  id : String
  organizationID : String
  fromAssetID : String
  toAssetID : String
  type : String
  status : RelationshipStatus
  firstSeenAt : Time
  lastSeenAt : Time

structure RelationshipSourceRow where
  id : String
  organizationID : String
  connectorID : String
  relationshipID : String
  externalFromID : String
  externalToID : String
  type : String
  status : RelationshipStatus
  consecutiveAbsences : ℕ
  firstSeenAt : Time
  lastSeenAt : Time

structure RelationshipObservationRow where
  id : String
  organizationID : String
  relationshipID : String
  snapshotID : String
  connectorID : String
  externalFromID : String
  externalToID : String
  type : String
  observedAt : Time

structure ChangeRow where
  id : String
  organizationID : String
  assetID : String
  changeType : String
  beforeValue : Json
  afterValue : Json
  source : String
  detectedAt : Time
  summary : String
  logicalIdentity : String

structure RunRow where
  id : String
  organizationID : String
  connectorID : String
  snapshotID : String
  startedAt : Time
  summary : Summary

/-- A reconciliation policy; an absent scope column is SQL NULL. -/
structure PolicyRow where
  id : String
  organizationID : String
  connectorID : Option String
  assetType : Option String
  attributeKey : Option String
  relationshipType : Option String
  authority : String
  precedence : ℤ
  missingSuccessThreshold : ℤ

/-- `UNIQUE (organization_id, connector_id, external_id)`. -/
def SourceIdentityRow.key (r : SourceIdentityRow) : String × String × String :=
  (r.organizationID, r.connectorID, r.externalID)

def StrongIdentityRow.key (r : StrongIdentityRow) : String × String × String :=
  (r.organizationID, r.identityKey, r.identityValue)

def RelationshipRow.key (r : RelationshipRow) : String × String × String × String :=
  (r.organizationID, r.fromAssetID, r.toAssetID, r.type)

def RelationshipSourceRow.key (r : RelationshipSourceRow) : String × String × String × String × String :=
  (r.organizationID, r.connectorID, r.externalFromID, r.externalToID, r.type)

inductive SnapshotStatus where
  | queued | running | succeeded | partialResult | failed | cancelled | rejected
deriving DecidableEq, Repr

/-- A row of `source_snapshots`. -/
structure SnapshotRow where
  id : String
  organizationID : String
  connectorID : String
  collectorID : String
  status : SnapshotStatus
  sequence : ℤ
  startedAt : Time
  completedAt : Time
  assetCount : ℕ
  relationshipCount : ℕ
  contentHash : String
  protocolVersion : String

/-- A row of `infrastructure_connectors`. -/
structure ConnectorRow where
  id : String
  organizationID : String
  collectorID : Option String
  type : String
  enabled : Bool

structure CollectorRow where
  id : String
  organizationID : String
  publicKey : List UInt8
  revokedAt : Option Time

structure CredentialRow where
  id : String
  organizationID : String
  collectorID : String
  credentialHash : String
  expiresAt : Option Time
  revokedAt : Option Time

/-- A row of `audit_events`; an absent column is SQL NULL. -/
structure AuditRow where
  id : String
  organizationID : String
  actorID : Option String
  action : String
  resourceType : Option String
  resourceID : Option String
  requestID : String
  payload : GoValue
  previousHash : String
  eventHash : String
  occurredAt : Time

structure Db where
  assets : Table AssetRow.id
  sourceIdentities : Table SourceIdentityRow.key
  strongIdentities : Table StrongIdentityRow.key
  observations : Table ObservationRow.id
  claims : Table ClaimRow.id
  relationships : Table RelationshipRow.id
  relationshipSources : Table RelationshipSourceRow.key
  relationshipObservations : Table RelationshipObservationRow.id
  changes : Table ChangeRow.id
  runs : Table RunRow.id
  policies : Table PolicyRow.id
  snapshots : Table SnapshotRow.id
  connectors : Table ConnectorRow.id
  collectors : Table CollectorRow.id
  credentials : Table CredentialRow.id
  auditEvents : Table AuditRow.id

/-- No inventory yet; connectors, policies and snapshots may be there. -/
structure Db.InventoryEmpty (db : Db) : Prop where
  assets : db.assets = .empty
  sourceIdentities : db.sourceIdentities = .empty
  strongIdentities : db.strongIdentities = .empty
  observations : db.observations = .empty
  claims : db.claims = .empty
  relationships : db.relationships = .empty
  relationshipSources : db.relationshipSources = .empty
  relationshipObservations : db.relationshipObservations = .empty
  changes : db.changes = .empty
  runs : db.runs = .empty

inductive Write where
  | asset (r : AssetRow)
  | sourceIdentity (r : SourceIdentityRow)
  | strongIdentity (r : StrongIdentityRow)
  | observation (r : ObservationRow)
  | claim (r : ClaimRow)
  | relationship (r : RelationshipRow)
  | relationshipSource (r : RelationshipSourceRow)
  | relationshipObservation (r : RelationshipObservationRow)
  | change (r : ChangeRow)
  | run (r : RunRow)
  | snapshot (r : SnapshotRow)
  | auditEvent (r : AuditRow)

def Db.write (db : Db) : Write → Db
  | .asset r => { db with assets := db.assets.put r }
  | .sourceIdentity r => { db with sourceIdentities := db.sourceIdentities.put r }
  | .strongIdentity r => { db with strongIdentities := db.strongIdentities.put r }
  | .observation r => { db with observations := db.observations.put r }
  | .claim r => { db with claims := db.claims.put r }
  | .relationship r => { db with relationships := db.relationships.put r }
  | .relationshipSource r => { db with relationshipSources := db.relationshipSources.put r }
  | .relationshipObservation r =>
    { db with relationshipObservations := db.relationshipObservations.put r }
  | .change r => { db with changes := db.changes.put r }
  | .run r => { db with runs := db.runs.put r }
  | .snapshot r => { db with snapshots := db.snapshots.put r }
  | .auditEvent r => { db with auditEvents := db.auditEvents.put r }

instance : Store Db Write := ⟨Db.write⟩

/-- The unique constraints that a statement can violate or wait for. -/
inductive Constraint where
  | assets
  | sourceIdentities | sourceIdentitiesKey
  | strongIdentities
  | observations | observationsKey
  | claims
  | relationships | relationshipsKey
  | relationshipSources | relationshipSourcesKey
  | relationshipObservations | relationshipObservationsKey
  | changes | changesKey
  | runs | runsSnapshot
  | snapshots | snapshotsSequence | snapshotsHash
  | auditEvents
deriving DecidableEq

/-- What a session holds to its end: an advisory lock, or the entry of a unique
index, which stands for the row it leads to. -/
inductive Lock where
  | advisory (key : ℤ)
  | entry (index : Constraint) (values : List String)
deriving DecidableEq

inductive Error where
  | errorf (format : String) (args : List String)
  | unique (index : Constraint)
  | noRows
  /-- SQLSTATE 22021 or 22P05 -/
  | invalidText
deriving DecidableEq

abbrev Sql (β : Type) := Stmt Db Write Lock Error β

abbrev Tx (α : Type) := Prog Db Write Lock Error α

/-- PostgreSQL takes no text with a NUL. -/
def storable (text : String) : Bool := !text.toList.contains '\x00'

/-- What it answers to a call before it looks at any row. -/
def refuseNul (c : Call) : Option Error := if c.args.all storable then none else some .invalidText

/-- `ORDER BY ... LIMIT 1`: the first row in the order of `before`, the physically
first among equals. -/
def firstBy {α : Type} (before : α → α → Bool) (rows : List α) : Option α :=
  rows.foldl (fun best r => match best with
    | none => some r
    | some b => if before r b then some r else some b) none

end Infragraph
