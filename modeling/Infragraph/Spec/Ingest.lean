import Infragraph.Lib.ReadCommitted
import Infragraph.Spec.Audit
import Infragraph.Spec.Reconcile
import Infragraph.Spec.Signature

/-! `collectorSnapshot` of `internal/app/app.go`: a collector's request is
authenticated, checked, and applied in one transaction under the connector's
advisory lock. The two lookups before the transaction are statements of their
own; they neither write nor lock. -/

namespace Infragraph

open ReadCommitted Prog

/-- An answer written by `writeError`. -/
structure Reply where
  status : ℕ
  code : String
  message : String
deriving DecidableEq

abbrev Handler (α : Type) := Prog Db Write Lock Reply α

/-- What `decode` makes of the request body. -/
inductive Body where
  | tooLarge
  | malformed
  | trailing
  | envelope (s : SnapshotEnvelope)

/-- A request, with what its execution reads elsewhere: the answer of the rate
limiter, the clocks, fresh identifiers and the orders of map iteration. -/
structure SnapshotRequest where
  authorization : String
  requestID : String
  body : Body
  allowed : Bool
  /-- `now()` of the credential lookup -/
  databaseNow : Time
  /-- `time.Since`, and `time.Now` of the window's upper end -/
  agedAt : Time
  boundedAt : Time
  reconciledAt : Time
  appendedAt : Time
  auditID : String
  order : MapOrder

inductive Accepted where
  | idempotent (status : SnapshotStatus)
  | reconciled (summary : Summary)

def Observation.withinLimits (o : Observation) : Bool :=
  !(o.externalID = "" || 1024 < byteLen o.externalID || 80 < byteLen o.assetType || o.observedAt = 0 ||
    128 < o.attributes.len || 32 < o.identityHints.len || 128 < byteLen o.fingerprint ||
    (o.status ≠ "OBSERVED" && o.status ≠ "UNKNOWN"))

/-- The asset loop: each external ID once, within the limits. -/
def validAssets (seen : List String) : List Observation → Option (List String)
  | [] => some seen
  | o :: os => if !o.withinLimits || seen.contains o.externalID then none
    else validAssets (o.externalID :: seen) os

def RelationshipObservation.withinLimits (r : RelationshipObservation) (seenAssets : List String) : Bool :=
  !(r.externalFromID = "" || 1024 < byteLen r.externalFromID || r.externalToID = "" ||
    1024 < byteLen r.externalToID || r.type = "" || 80 < byteLen r.type || r.observedAt = 0 ||
    64 < r.attributes.len || !seenAssets.contains r.externalFromID || !seenAssets.contains r.externalToID)

def relationshipKey (r : RelationshipObservation) : String :=
  r.externalFromID ++ "\x00" ++ r.externalToID ++ "\x00" ++ r.type

def validRelationships (seenAssets seen : List String) : List RelationshipObservation → Bool
  | [] => true
  | r :: rs => if !r.withinLimits seenAssets || seen.contains (relationshipKey r) then false
    else validRelationships seenAssets (relationshipKey r :: seen) rs

def validSnapshotContract (s : SnapshotEnvelope) : Bool :=
  if s.snapshotID = "" || 160 < byteLen s.snapshotID || s.organizationID = "" || s.collectorID = "" ||
      s.connectorID = "" || s.sequence < 1 || s.protocolVersion ≠ "1.0" || 100000 < s.assets.length ||
      250000 < s.relationships.length || 1000 < s.warnings.length || 32 < s.statistics.len ||
      s.startedAt = 0 || s.completedAt = 0 || s.completedAt < s.startedAt then false
  else if s.warnings.any (2000 < byteLen ·) then false
  else if s.statistics.entries.any (·.2 < 0) then false
  else match validAssets [] s.assets with
    | none => false
    | some seen => validRelationships seen [] s.relationships

def Db.principal (db : Db) (hash : String) (now : Time) : Option CollectorRow :=
  (db.credentials.rows.filter fun cc => cc.credentialHash = hash ∧ cc.revokedAt = none ∧
    cc.expiresAt.all (now < ·)).findSome? fun cc => db.collectors.get cc.collectorID

def selectPrincipal (hash : String) (now : Time) : Sql (Option CollectorRow) :=
  Stmt.select ⟨"SELECT c.id FROM collector_credentials JOIN collectors", [hash]⟩ (·.principal hash now)

def selectConnector (id org : String) : Sql (Option ConnectorRow) :=
  Stmt.select ⟨"SELECT collector_id,enabled,type FROM infrastructure_connectors", [id, org]⟩
    fun db => (db.connectors.get id).filter (·.organizationID = org)

def selectSnapshot (id org : String) : Sql (Option SnapshotRow) :=
  Stmt.select ⟨"SELECT content_hash,status FROM source_snapshots", [id, org]⟩
    fun db => (db.snapshots.get id).filter (·.organizationID = org)

def Db.snapshotsOf (db : Db) (org connector : String) : List SnapshotRow :=
  db.snapshots.rows.filter fun r => r.organizationID = org ∧ r.connectorID = connector

/-- `coalesce(max(sequence),0)`. -/
def Db.maxSequence (db : Db) (org connector : String) : ℤ :=
  match (db.snapshotsOf org connector).map (·.sequence) with
  | [] => 0
  | n :: ns => ns.foldl max n

def selectMaxSequence (org connector : String) : Sql ℤ :=
  Stmt.select ⟨"SELECT max(sequence) FROM source_snapshots", [org, connector]⟩ (·.maxSequence org connector)

def insertSnapshot (r : SnapshotRow) : Sql Unit :=
  Stmt.insert ⟨"INSERT INTO source_snapshots", [r.id]⟩ Write.snapshot
    [.entry .snapshots [r.id],
      .entry .snapshotsSequence [r.organizationID, r.connectorID, toString r.sequence],
      .entry .snapshotsHash [r.organizationID, r.connectorID, r.contentHash]]
    (fun db =>
      if (db.snapshots.get r.id).isSome then some (.unique .snapshots)
      else if (db.snapshotsOf r.organizationID r.connectorID).any (·.sequence = r.sequence)
      then some (.unique .snapshotsSequence)
      else if (db.snapshotsOf r.organizationID r.connectorID).any (·.contentHash = r.contentHash)
      then some (.unique .snapshotsHash) else none) r

/-- `coalesce(min(missing_success_threshold),2)`. -/
def Db.missingThreshold (db : Db) (org connector : String) : ℤ :=
  match (db.policies.rows.filter fun p => p.organizationID = org ∧
      (p.connectorID = none ∨ p.connectorID = some connector)).map (·.missingSuccessThreshold) with
  | [] => 2
  | n :: ns => ns.foldl min n

def selectMissingThreshold (org connector : String) : Sql ℤ :=
  Stmt.select ⟨"SELECT min(missing_success_threshold) FROM reconciliation_policies", [org, connector]⟩
    (·.missingThreshold org connector)

def markSucceeded (id org : String) : Sql (List Unit) :=
  Stmt.update ⟨"UPDATE source_snapshots SET status='SUCCEEDED'", [id, org]⟩ Db.snapshots Write.snapshot
    (fun r => .entry .snapshots [r.id]) (fun _ r => r.id = id && r.organizationID = org)
    (fun r => { r with status := .succeeded }) fun _ => ()

def orReply {α : Type} (p : Tx α) (reply : Reply) : Handler α := p.mapError fun _ => reply

def decode : Body → Handler SnapshotEnvelope
  | .tooLarge => throw ⟨413, "payload_too_large", "request body exceeds configured limit"⟩
  | .malformed => throw ⟨400, "invalid_request", "request body is invalid"⟩
  | .trailing => throw ⟨400, "invalid_request", "request body must contain one JSON document"⟩
  | .envelope s => ret s

/-- `strings.TrimPrefix(header, "Bearer ")`. -/
def bearer (header : String) : String :=
  if "Bearer ".toList.isPrefixOf header.toList then String.ofList (header.toList.drop 7) else header

/-- Simple case folding; the letters with a fold outside ASCII are k and s. -/
def foldCase (c : Char) : Char :=
  if c.toNat = 0x212A then 'k' else if c.toNat = 0x17F then 's' else c.toLower

/-- `strings.EqualFold` against a connector type, which is in ASCII. -/
def equalFold (a b : String) : Bool := a.toList.map foldCase = b.toList.map foldCase

def ConnectorRow.accepts (c : ConnectorRow) (collector : String) (s : SnapshotEnvelope) : Bool :=
  c.collectorID.getD "" = collector && c.enabled && equalFold c.type s.connectorType

def hour : Time := 3600 * 1000000000

def minute : Time := 60 * 1000000000

def snapshotRow (s : SnapshotEnvelope) (collector : String) : SnapshotRow :=
  { id := s.snapshotID, organizationID := s.organizationID, connectorID := s.connectorID
    collectorID := collector, status := .running, sequence := s.sequence
    startedAt := timestamptz s.startedAt, completedAt := timestamptz s.completedAt
    assetCount := s.assets.length, relationshipCount := s.relationships.length
    contentHash := s.contentHash, protocolVersion := s.protocolVersion }

/-- `Summary` has no JSON tags. -/
def Summary.toGo (s : Summary) : GoValue :=
  .struct [("Created", .int s.created), ("Updated", .int s.updated), ("Unchanged", .int s.unchanged),
    ("Missing", .int s.missing), ("Conflicting", .int s.conflicting),
    ("RelationshipsCreated", .int s.relationshipsCreated),
    ("RelationshipsRemoved", .int s.relationshipsRemoved), ("Changes", .int s.changes)]

def reconciledPayload (s : SnapshotEnvelope) (summary : Summary) : GoMap GoValue where
  entries := [("connectorId", .str s.connectorID), ("assets", .int s.assets.length),
    ("relationships", .int s.relationships.length), ("summary", summary.toGo)]
  nodup := by simp

def reconciledEvent (r : SnapshotRequest) (s : SnapshotEnvelope) (collector : String) (summary : Summary) :
    AuditEvent :=
  { id := r.auditID, organizationID := s.organizationID, actorID := collector
    action := "collector.snapshot.reconciled", resourceType := "source_snapshot"
    resourceID := s.snapshotID, requestID := r.requestID, payload := reconciledPayload s summary
    occurredAt := 0 }

section

variable [Hashes]

/-- `collectorPrincipal`, or a 401 answer. -/
def collectorPrincipal (r : SnapshotRequest) : Handler CollectorRow := do
  let unauthorized : Reply :=
    ⟨401, "collector_unauthorized", "collector credential invalid or revoked"⟩
  failIf (bearer r.authorization = "") unauthorized
  let row ← orReply (exec (selectPrincipal (tokenHash (bearer r.authorization)) r.databaseNow)) unauthorized
  match row with
  | none => throw unauthorized
  | some c => if c.revokedAt.isSome then throw unauthorized else ret c

/-- A snapshot with a new ID: staged, reconciled and audited. -/
def stageSnapshot (r : SnapshotRequest) (s : SnapshotEnvelope) (collector : String) : Handler Accepted := do
  let maxSequence ← orReply (exec (selectMaxSequence s.organizationID s.connectorID))
    ⟨500, "internal_error", "snapshot sequence could not be checked"⟩
  failIf (s.sequence ≤ maxSequence) ⟨409, "snapshot_replay", "snapshot sequence was already observed"⟩
  orReply (exec (insertSnapshot (snapshotRow s collector)))
    ⟨422, "snapshot_rejected", "snapshot could not be staged"⟩
  -- the error of this lookup is dropped
  let threshold ← orReply (exec (selectMissingThreshold s.organizationID s.connectorID))
    ⟨422, "snapshot_rejected", "snapshot observations could not be reconciled"⟩
  let summary ← orReply (applyPostgres r.order r.reconciledAt s threshold)
    ⟨422, "snapshot_rejected", "snapshot observations could not be reconciled"⟩
  let _ ← orReply (exec (markSucceeded s.snapshotID s.organizationID))
    ⟨500, "internal_error", "snapshot status could not be finalized"⟩
  orReply (append r.appendedAt (reconciledEvent r s collector summary))
    ⟨500, "internal_error", "snapshot audit event could not be recorded"⟩
  return .reconciled summary

/-- The transaction: under the connector's lock, first the ID, then the sequence. -/
def ingestSnapshot (r : SnapshotRequest) (s : SnapshotEnvelope) (collector : String) : Handler Accepted := do
  orReply (exec (advisoryLock (s.organizationID ++ "|" ++ s.connectorID)))
    ⟨500, "internal_error", "snapshot lock could not be acquired"⟩
  let existing ← orReply (exec (selectSnapshot s.snapshotID s.organizationID))
    ⟨500, "internal_error", "snapshot history could not be checked"⟩
  match existing with
  | some row =>
    if row.contentHash ≠ s.contentHash then
      throw ⟨409, "snapshot_identity_conflict", "snapshot ID was reused with different content"⟩
    else ret (.idempotent row.status)
  | none => stageSnapshot r s collector

variable [Signatures]

/-- The checks that need no database. -/
def checkSnapshot (r : SnapshotRequest) (s : SnapshotEnvelope) (collector : CollectorRow) : Handler Unit := do
  failIf (s.collectorID ≠ collector.id ∨ s.organizationID ≠ collector.organizationID)
    ⟨403, "collector_binding_mismatch", "snapshot identity does not match credential"⟩
  failIf (¬ validSnapshotContract s)
    ⟨422, "snapshot_contract_invalid", "snapshot does not satisfy protocol limits"⟩
  failIf (24 * hour < r.agedAt - s.completedAt ∨ r.boundedAt + 5 * minute < s.completedAt)
    ⟨409, "snapshot_timestamp_invalid", "snapshot timestamp outside replay window"⟩
  match verifySnapshot s collector.publicKey with
  | some message => throw ⟨401, "invalid_snapshot_signature", message⟩
  | none => ret ()

def collectorSnapshot (r : SnapshotRequest) : Handler Accepted := do
  let collector ← collectorPrincipal r
  failIf (¬ r.allowed) ⟨429, "rate_limited", "snapshot ingest rate exceeded"⟩
  let s ← decode r.body
  checkSnapshot r s collector
  let connector ← orReply (exec (selectConnector s.connectorID s.organizationID))
    ⟨403, "connector_binding_mismatch", "connector is not enabled and bound to this collector"⟩
  failIf (¬ connector.any (·.accepts collector.id s))
    ⟨403, "connector_binding_mismatch", "connector is not enabled and bound to this collector"⟩
  ingestSnapshot r s collector.id

def SnapshotRequest.principal (r : SnapshotRequest) (d : Db) : Option CollectorRow :=
  d.principal (tokenHash (bearer r.authorization)) r.databaseNow

/-- The control plane: any requests at any time, in any interleaving. -/
def ingestSystem : System Db Write Lock Reply Accepted SnapshotRequest := { code := collectorSnapshot }

end

/-- The status of an answer, with the session it is for. A session that is
aborted is answered with an internal error, if at all. -/
def answer : Event Reply Accepted SnapshotRequest → Option (ℕ × ℕ)
  | .fail t e => some (t, e.status)
  | .abort t => some (t, 500)
  | .commit t _ => some (t, 202)
  | _ => none

end Infragraph
