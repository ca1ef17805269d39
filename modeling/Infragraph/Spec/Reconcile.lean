import Infragraph.Spec.Statements

/-! `ApplyPostgres` of `internal/reconcile/postgres.go`: a snapshot is persisted
and reconciled by the statements of one transaction. Go iterates maps in any
order and PostgreSQL returns updated rows in any order; `MapOrder` is the order
of one execution. -/

namespace Infragraph

open ReadCommitted Prog

structure MapOrder where
  /-- `StrongIdentities` in the lookup loop, for the observation of an external ID -/
  resolve : String → List (String × String) → List (String × String)
  /-- `StrongIdentities` in the binding loop -/
  bind : String → List (String × String) → List (String × String)
  attributes : String → List (String × Json) → List (String × Json)
  missing : List String → List String
  removed : List String → List String
  resolve_perm : ∀ e l, (resolve e l).Perm l
  bind_perm : ∀ e l, (bind e l).Perm l
  attributes_perm : ∀ e l, (attributes e l).Perm l
  missing_perm : ∀ l, (missing l).Perm l
  removed_perm : ∀ l, (removed l).Perm l

/-- Every loop in the order the model writes its list. -/
def MapOrder.plain : MapOrder where
  resolve _ l := l
  bind _ l := l
  attributes _ l := l
  missing l := l
  removed l := l
  resolve_perm _ _ := .rfl
  bind_perm _ _ := .rfl
  attributes_perm _ _ := .rfl
  missing_perm _ := .rfl
  removed_perm _ := .rfl

structure Progress where
  assets : List (String × String) := []
  seenAssets : List String := []
  summary : Summary := {}

variable [Hashes]

def insertChange (s : SnapshotEnvelope) (assetID changeType : String) (before after : Json)
    (reason : String) : Tx Unit :=
  let logical := "|".intercalate [s.snapshotID, assetID, changeType]
  exec (insertChangeRow
    { id := stableID "change" [logical], organizationID := s.organizationID, assetID := assetID
      changeType := changeType, beforeValue := before, afterValue := after, source := s.connectorID
      detectedAt := timestamptz s.completedAt, summary := reason, logicalIdentity := logical })

def changeTypes : List String :=
  ["ASSET_RETURNED", "SOURCE_CONFLICT", "ASSET_DISCOVERED", "RELATIONSHIP_ADDED", "ASSET_MISSING"]

def updateEffectiveAsset (org assetID : String) : Tx Bool := do
  let environment ← exec (selectEffective org assetID ["environment"])
  let display ← exec (selectEffective org assetID ["name", "hostname", "display_name"])
  let conflict ← exec (selectConflict org assetID)
  let _ ← exec (updateEffective environment display (if conflict then .conflicting else .active)
    assetID org)
  return conflict

/-- The strong lookup loop: the asset the strong identities agree on, or "". -/
def resolveStrong (org : String) (identities : List (String × String)) : Tx String :=
  identities.foldlM (fun assetID e => do
    let resolved := (← exec (selectStrongIdentity org e.1 e.2)).getD ""
    failIf (resolved ≠ "" ∧ assetID ≠ "" ∧ resolved ≠ assetID)
      (.errorf "strong identifiers resolve to conflicting canonical assets" [])
    return if resolved ≠ "" then resolved else assetID) ""

/-- The asset of an observation, whether it was created, and the counters. -/
def resolveAsset (order : MapOrder) (s : SnapshotEnvelope) (o : Observation) (observedAt : Time)
    (summary : Summary) : Tx (String × Bool × Summary) := do
  match ← exec (selectSourceIdentity s.organizationID s.connectorID o.externalID) with
  | none =>
    let resolved ← resolveStrong s.organizationID (order.resolve o.externalID (strongIdentities o))
    if resolved = "" then
      let assetID := stableID "asset" [s.organizationID, s.connectorID, o.externalID]
      let environment := stringAttribute o.attributes "environment"
      exec (insertAsset
        { id := assetID, organizationID := s.organizationID, canonicalName := observationName o
          displayName := observationName o, assetType := o.assetType, status := .active
          environment := if environment = "" then none else some environment
          firstSeenAt := timestamptz observedAt, lastSeenAt := timestamptz observedAt })
      return (assetID, true, { summary with created := summary.created + 1 })
    else
      let _ ← exec (touchAsset observedAt resolved s.organizationID)
      return (resolved, false, { summary with unchanged := summary.unchanged + 1 })
  | some assetID =>
    let prior ← exec (selectAssetStatus assetID s.organizationID)
    let _ ← exec (touchAsset observedAt assetID s.organizationID)
    if prior = .missing ∨ prior = .stale then
      insertChange s assetID "ASSET_RETURNED" (.str prior.text) (.str AssetStatus.active.text)
        "asset returned in a successful snapshot"
      return (assetID, false,
        { summary with updated := summary.updated + 1, changes := summary.changes + 1 })
    else
      return (assetID, false, { summary with unchanged := summary.unchanged + 1 })

def bindStrong (org assetID : String) (observedAt : Time) (identities : List (String × String)) : Tx Unit :=
  identities.foldlM (fun _ e => do
    let resolved ← exec (upsertStrongIdentity
      { organizationID := org, identityKey := e.1, identityValue := e.2, assetID := assetID
        firstSeenAt := timestamptz observedAt, lastSeenAt := timestamptz observedAt })
    failIf (resolved ≠ assetID)
      (.errorf "strong identifier is already bound to another canonical asset" [])) ()

def claimRow (s : SnapshotEnvelope) (o : Observation) (assetID : String) (observedAt : Time) (authority : String)
    (e : String × Json) : ClaimRow :=
  { id := stableID "claim" [s.snapshotID, o.externalID, e.1], organizationID := s.organizationID
    assetID := assetID, attributeKey := e.1, value := e.2, connectorID := s.connectorID
    snapshotID := s.snapshotID, observedAt := timestamptz observedAt, authority := authority
    active := true }

def recordClaims (s : SnapshotEnvelope) (o : Observation) (assetID : String) (observedAt : Time)
    (attributes : List (String × Json)) : Tx Unit :=
  attributes.foldlM (fun _ e => do
    failIf (200 < byteLen e.1) (.errorf "attribute key exceeds 200 characters" [])
    let _ ← exec (deactivateClaims s.organizationID assetID s.connectorID e.1)
    let authority ← exec (selectAuthority s.organizationID s.connectorID o.assetType e.1)
    exec (insertClaim (claimRow s o assetID observedAt authority e))) ()

def identityRow (s : SnapshotEnvelope) (o : Observation) (assetID : String) (observedAt : Time) : SourceIdentityRow :=
  { id := stableID "identity" [s.organizationID, s.connectorID, o.externalID]
    organizationID := s.organizationID, assetID := assetID, connectorID := s.connectorID
    externalID := o.externalID, externalType := o.assetType, firstSeenAt := timestamptz observedAt
    lastSeenAt := timestamptz observedAt, status := .active, consecutiveAbsences := 0 }

def observationRow (s : SnapshotEnvelope) (o : Observation) (observedAt : Time) : ObservationRow :=
  { id := stableID "observation" [s.snapshotID, o.externalID], organizationID := s.organizationID
    snapshotID := s.snapshotID, connectorID := s.connectorID, externalID := o.externalID
    assetType := o.assetType, observedAt := timestamptz observedAt }

/-- What is persisted of an observation once its asset is known. -/
def recordObservation (order : MapOrder) (s : SnapshotEnvelope) (o : Observation) (assetID : String)
    (observedAt : Time) : Tx Unit := do
  exec (upsertSourceIdentity (identityRow s o assetID observedAt))
  bindStrong s.organizationID assetID observedAt (order.bind o.externalID (strongIdentities o))
  exec (insertObservation (observationRow s o observedAt))
  recordClaims s o assetID observedAt (order.attributes o.externalID o.attributes.entries)

def recordConflict (s : SnapshotEnvelope) (assetID : String) (conflict : Bool) (summary : Summary) : Tx Summary :=
  if conflict then do
    insertChange s assetID "SOURCE_CONFLICT" .null .null "active source claims conflict"
    return { summary with conflicting := summary.conflicting + 1, changes := summary.changes + 1 }
  else return summary

def recordDiscovery (s : SnapshotEnvelope) (o : Observation) (assetID : String) (created : Bool)
    (summary : Summary) : Tx Summary :=
  if created then do
    insertChange s assetID "ASSET_DISCOVERED" .null
      (.obj [("externalId", .str o.externalID), ("assetType", .str o.assetType)]) "asset discovered"
    return { summary with changes := summary.changes + 1 }
  else return summary

/-- The body of the asset loop. -/
def observe (order : MapOrder) (s : SnapshotEnvelope) (now : Time) (st : Progress) (o : Observation) :
    Tx Progress := do
  failIf (o.externalID = "" ∨ 1024 < byteLen o.externalID)
    (.errorf "every observation requires a bounded external ID" [])
  failIf ((assetTypeLabels.lookup o.assetType).isNone)
    (.errorf "unknown asset type %q" [o.assetType])
  failIf (o.externalID ∈ st.seenAssets)
    (.errorf "duplicate asset external ID %q" [o.externalID])
  let observedAt := orNow o.observedAt now
  let (assetID, created, summary) ← resolveAsset order s o observedAt st.summary
  recordObservation order s o assetID observedAt
  let conflict ← updateEffectiveAsset s.organizationID assetID
  let summary ← recordConflict s assetID conflict summary
  let summary ← recordDiscovery s o assetID created summary
  return { assets := (o.externalID, assetID) :: st.assets, seenAssets := o.externalID :: st.seenAssets
           summary := summary }

def relationshipRow (s : SnapshotEnvelope) (fromAsset toAsset type : String) (observedAt : Time) : RelationshipRow :=
  { id := stableID "relationship" [s.organizationID, fromAsset, toAsset, type]
    organizationID := s.organizationID, fromAssetID := fromAsset, toAssetID := toAsset, type := type
    status := .active, firstSeenAt := timestamptz observedAt, lastSeenAt := timestamptz observedAt }

def relationshipSourceRow (s : SnapshotEnvelope) (r : RelationshipObservation) (relationshipID : String)
    (observedAt : Time) : RelationshipSourceRow :=
  { id := stableID "relationship-source"
      [s.organizationID, s.connectorID, r.externalFromID, r.externalToID, r.type]
    organizationID := s.organizationID, connectorID := s.connectorID
    relationshipID := relationshipID, externalFromID := r.externalFromID
    externalToID := r.externalToID, type := r.type, status := .active, consecutiveAbsences := 0
    firstSeenAt := timestamptz observedAt, lastSeenAt := timestamptz observedAt }

def relationshipObservationRow (s : SnapshotEnvelope) (r : RelationshipObservation) (relationshipID : String)
    (observedAt : Time) : RelationshipObservationRow :=
  { id := stableID "relationship-observation" [s.snapshotID, r.externalFromID, r.externalToID, r.type]
    organizationID := s.organizationID, relationshipID := relationshipID
    snapshotID := s.snapshotID, connectorID := s.connectorID, externalFromID := r.externalFromID
    externalToID := r.externalToID, type := r.type, observedAt := timestamptz observedAt }

def recordAddition (s : SnapshotEnvelope) (row : RelationshipRow) (existing : Bool)
    (summary : Summary) : Tx Summary :=
  if existing then return summary
  else do
    insertChange s row.fromAssetID "RELATIONSHIP_ADDED" .null
      (.obj [("relationshipId", .str row.id), ("toAssetId", .str row.toAssetID),
        ("type", .str row.type)]) "observed relationship added"
    return { summary with relationshipsCreated := summary.relationshipsCreated + 1
                          changes := summary.changes + 1 }

/-- The body of the relationship loop, once both ends are known. -/
def relateAssets (s : SnapshotEnvelope) (now : Time) (summary : Summary) (r : RelationshipObservation)
    (fromAsset toAsset : String) : Tx Summary := do
  let row := relationshipRow s fromAsset toAsset r.type (orNow r.observedAt now)
  let existing ← exec (selectRelationshipExists s.organizationID fromAsset toAsset r.type)
  exec (upsertRelationship row)
  let summary ← recordAddition s row existing summary
  exec (upsertRelationshipSource (relationshipSourceRow s r row.id (orNow r.observedAt now)))
  exec (insertRelationshipObservation
    (relationshipObservationRow s r row.id (orNow r.observedAt now)))
  return summary

def relate (s : SnapshotEnvelope) (now : Time) (assets : List (String × String)) (summary : Summary)
    (r : RelationshipObservation) : Tx Summary := do
  failIf ((assets.lookup r.externalFromID).isNone ∨ (assets.lookup r.externalToID).isNone ∨
      r.type = "" ∨ 160 < byteLen r.type)
    (.errorf "relationship endpoints and bounded type must reference assets in the snapshot" [])
  relateAssets s now summary r ((assets.lookup r.externalFromID).getD "")
    ((assets.lookup r.externalToID).getD "")

def missingAsset (s : SnapshotEnvelope) (summary : Summary) (assetID : String) : Tx Summary := do
  let _ ← exec (deactivateMissingClaims s.organizationID s.connectorID assetID)
  let _ ← updateEffectiveAsset s.organizationID assetID
  let affected ← exec (markAssetMissing assetID s.organizationID)
  if 0 < affected.length then do
    insertChange s assetID "ASSET_MISSING" (.str AssetStatus.active.text) (.str AssetStatus.missing.text)
      "absent from sufficient successful snapshots"
    return { summary with missing := summary.missing + 1, changes := summary.changes + 1 }
  else return summary

def removedRelationship (s : SnapshotEnvelope) (summary : Summary) (relationshipID : String) : Tx Summary := do
  let affected ← exec (markRelationshipRemoved relationshipID s.organizationID)
  return if 0 < affected.length then
    { summary with relationshipsRemoved := summary.relationshipsRemoved + 1 } else summary

def markMissing (order : MapOrder) (s : SnapshotEnvelope) (threshold : ℕ) (summary : Summary) : Tx Summary := do
  let _ ← exec (incrementAbsences s.organizationID s.connectorID s.snapshotID)
  let missing ← exec (markIdentitiesMissing s.organizationID s.connectorID threshold)
  let summary ← (order.missing missing).foldlM (missingAsset s) summary
  let _ ← exec (incrementRelationshipAbsences s.organizationID s.connectorID s.snapshotID)
  let removed ← exec (markSourcesRemoved s.organizationID s.connectorID threshold)
  (order.removed removed).foldlM (removedRelationship s) summary

/-- A missing threshold below one means the default. -/
def effectiveThreshold (missingThreshold : ℤ) : ℕ :=
  if missingThreshold < 1 then 2 else missingThreshold.toNat

/-- The asset loop, the relationship loop, the sweeps and the run record. -/
def applyPostgres (order : MapOrder) (clock : Time) (s : SnapshotEnvelope) (missingThreshold : ℤ) : Tx Summary := do
  failIf (s.organizationID = "" ∨ s.connectorID = "" ∨ s.snapshotID = "")
    (.errorf "snapshot organization, connector, and ID are required" [])
  let now := orNow s.completedAt clock
  let st ← s.assets.foldlM (observe order s now) {}
  let summary ← s.relationships.foldlM (relate s now st.assets) st.summary
  let summary ← markMissing order s (effectiveThreshold missingThreshold) summary
  exec (insertRun
    { id := stableID "reconciliation" [s.snapshotID], organizationID := s.organizationID
      connectorID := s.connectorID, snapshotID := s.snapshotID, startedAt := timestamptz s.startedAt
      summary := summary })
  return summary

/-- One call, with the iteration order and the clock of its execution. -/
structure ApplyCall where
  order : MapOrder
  clock : Time
  snapshot : SnapshotEnvelope
  missingThreshold : ℤ

def ApplyCall.run (c : ApplyCall) (db : Db) : Except Error (Summary × Db) :=
  (applyPostgres c.order c.clock c.snapshot c.missingThreshold).run db

/-- The databases reached from `db₀`, with the calls that succeeded so far. A
failing call is rolled back; what reconciliation does not own may change freely
between calls. -/
inductive Runs (db₀ : Db) : List ApplyCall → Db → Prop
  | nil : Runs db₀ [] db₀
  | succeed {h db c summary db'} : Runs db₀ h db → ApplyCall.run c db = .ok (summary, db') →
      Runs db₀ (h ++ [c]) db'
  | fail {h db c e} : Runs db₀ h db → ApplyCall.run c db = .error e → Runs db₀ h db
  | other {h db} (policies snapshots connectors collectors credentials auditEvents) : Runs db₀ h db →
      Runs db₀ h { db with policies, snapshots, connectors, collectors, credentials, auditEvents }

def replay (db : Db) : List ApplyCall → Except Error Db
  | [] => .ok db
  | c :: cs =>
    match c.run db with
    | .ok (_, db') => replay db' cs
    | .error e => .error e

def Db.assetOf (db : Db) (org connector external : String) : Option String :=
  (db.sourceIdentities.get (org, connector, external)).map (·.assetID)

def Db.strongAssetOf (db : Db) (org key value : String) : Option String :=
  (db.strongIdentities.get (org, key, value)).map (·.assetID)

end Infragraph
