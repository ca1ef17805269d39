import Infragraph.Lib.Sql
import Infragraph.Spec.Database

/-! The SQL statements of `internal/reconcile/postgres.go`, in the order the
code issues them. -/

namespace Infragraph

open Relational ReadCommitted

def selectSourceIdentity (org connector external : String) : Sql (Option String) :=
  Stmt.select ⟨"SELECT asset_id FROM asset_source_identities", [org, connector, external]⟩
    fun db => (db.sourceIdentities.get (org, connector, external)).map (·.assetID)

def selectStrongIdentity (org key value : String) : Sql (Option String) :=
  Stmt.select ⟨"SELECT asset_id FROM asset_strong_identities", [org, key, value]⟩
    fun db => (db.strongIdentities.get (org, key, value)).map (·.assetID)

def insertAsset (r : AssetRow) : Sql Unit :=
  Stmt.insert ⟨"INSERT INTO assets", [r.id]⟩ Write.asset [.entry .assets [r.id]]
    (fun db => if (db.assets.get r.id).isSome then some (.unique .assets) else none) r

/-- An `UPDATE assets ... WHERE id=$ AND organization_id=$ AND p`. -/
def updateAsset (sql : String) (id org : String) (p : Db → AssetRow → Bool) (f : AssetRow → AssetRow) :
    Sql (List Unit) :=
  Stmt.update ⟨sql, [id, org]⟩ Db.assets Write.asset (fun r => .entry .assets [r.id])
    (fun db r => r.id = id && r.organizationID = org && p db r) f fun _ => ()

/-- Both observation paths set the status before anything else is known. -/
def touchAsset (observedAt : Time) (id org : String) : Sql (List Unit) :=
  updateAsset "UPDATE assets SET status='ACTIVE',last_seen_at" id org (fun _ _ => true)
    fun r => { r with status := .active, lastSeenAt := max r.lastSeenAt (timestamptz observedAt) }

def selectAssetStatus (id org : String) : Sql AssetStatus :=
  Stmt.selectForUpdate ⟨"SELECT status FROM assets FOR UPDATE", [id, org]⟩
    (fun db => (db.assets.get id).filter (·.organizationID = org)) (fun r => .entry .assets [r.id])
    .noRows (·.status)

def upsertSourceIdentity (r : SourceIdentityRow) : Sql Unit :=
  Stmt.upsert ⟨"INSERT INTO asset_source_identities", [r.id]⟩ Write.sourceIdentity
    [.entry .sourceIdentitiesKey [r.organizationID, r.connectorID, r.externalID],
      .entry .sourceIdentities [r.id]]
    (fun db => db.sourceIdentities.get r.key)
    (fun db => if db.sourceIdentities.rows.any (·.id = r.id) then some (.unique .sourceIdentities)
      else none)
    r (fun old => { old with lastSeenAt := max old.lastSeenAt r.lastSeenAt, status := .active,
                             consecutiveAbsences := 0 })
    fun _ => ()

def upsertStrongIdentity (r : StrongIdentityRow) : Sql String :=
  Stmt.upsert ⟨"INSERT INTO asset_strong_identities", [r.organizationID, r.identityKey, r.identityValue]⟩
    Write.strongIdentity
    [.entry .strongIdentities [r.organizationID, r.identityKey, r.identityValue]]
    (fun db => db.strongIdentities.get r.key) (fun _ => none)
    r (fun old => { old with lastSeenAt := max old.lastSeenAt r.lastSeenAt })
    (·.assetID)

def insertObservation (r : ObservationRow) : Sql Unit :=
  Stmt.insert ⟨"INSERT INTO asset_observations", [r.id]⟩ Write.observation
    [.entry .observations [r.id], .entry .observationsKey [r.snapshotID, r.externalID]]
    (fun db =>
      if (db.observations.get r.id).isSome then some (.unique .observations)
      else if db.observations.rows.any (fun o => o.snapshotID = r.snapshotID ∧ o.externalID = r.externalID)
      then some (.unique .observationsKey) else none) r

/-- An `UPDATE asset_attribute_claims SET active=false`. -/
def deactivate (sql : String) (args : List String) (p : Db → ClaimRow → Bool) : Sql (List Unit) :=
  Stmt.update ⟨sql, args⟩ Db.claims Write.claim (fun c => .entry .claims [c.id]) p
    (fun c => { c with active := false }) fun _ => ()

def deactivateClaims (org asset connector key : String) : Sql (List Unit) :=
  deactivate "UPDATE asset_attribute_claims SET active=false WHERE attribute_key"
    [org, asset, connector, key]
    fun _ c => c.organizationID = org ∧ c.assetID = asset ∧ c.connectorID = connector ∧
      c.attributeKey = key ∧ c.active

def PolicyRow.matches (p : PolicyRow) (org connector assetType key : String) : Bool :=
  p.organizationID = org ∧ (p.connectorID = none ∨ p.connectorID = some connector) ∧
    (p.assetType = none ∨ p.assetType = some assetType) ∧
    (p.attributeKey = none ∨ p.attributeKey = some key)

/-- `ORDER BY` of the authority lookup: more specific first, then precedence. -/
def PolicyRow.before (a b : PolicyRow) : Bool :=
  let rank (p : PolicyRow) : ℕ ×ₗ ℕ ×ₗ ℕ ×ₗ ℤ :=
    toLex (p.connectorID.isSome.toNat, toLex (p.assetType.isSome.toNat,
      toLex (p.attributeKey.isSome.toNat, p.precedence)))
  rank b < rank a

def Db.authority (db : Db) (org connector assetType key : String) : String :=
  match firstBy PolicyRow.before (db.policies.rows.filter (·.matches org connector assetType key)) with
  | some p => p.authority
  | none => "OBSERVED"

def selectAuthority (org connector assetType key : String) : Sql String :=
  Stmt.select ⟨"SELECT authority FROM reconciliation_policies", [org, connector, assetType, key]⟩
    (·.authority org connector assetType key)

def insertClaim (r : ClaimRow) : Sql Unit :=
  Stmt.insert ⟨"INSERT INTO asset_attribute_claims", [r.id]⟩ Write.claim [.entry .claims [r.id]]
    (fun db => if (db.claims.get r.id).isSome then some (.unique .claims) else none) r

def authorityRank (authority : String) : ℕ :=
  if authority = "AUTHORITATIVE" then 3 else if authority = "OBSERVED" then 2 else 1

/-- `ORDER BY` rank, `observed_at`, `id`, all descending. -/
def ClaimRow.before (a b : ClaimRow) : Bool :=
  let rank (c : ClaimRow) : ℕ ×ₗ ℤ := toLex (authorityRank c.authority, c.observedAt)
  rank b < rank a ∨ rank b = rank a ∧ b.id < a.id

def Db.activeClaims (db : Db) (org asset : String) : List ClaimRow :=
  db.claims.rows.filter fun c => c.organizationID = org ∧ c.assetID = asset ∧ c.active

/-- `value #>> '{}'` of the first active claim for one of the keys. -/
def Db.effectiveValue (db : Db) (org asset : String) (keys : List String) : Option String :=
  (firstBy ClaimRow.before ((db.activeClaims org asset).filter fun c => keys.contains c.attributeKey)).bind
    (·.value.unquoted)

/-- Some attribute key has more than one `DISTINCT value::text`. -/
def Db.conflict (db : Db) (org asset : String) : Bool :=
  (db.activeClaims org asset).any fun c => (db.activeClaims org asset).any fun c' =>
    c.attributeKey = c'.attributeKey ∧ c.value.text ≠ c'.value.text

def selectEffective (org asset : String) (keys : List String) : Sql (Option String) :=
  Stmt.select ⟨"SELECT value FROM asset_attribute_claims", org :: asset :: keys⟩
    (·.effectiveValue org asset keys)

def conflictCall (org asset : String) : Call :=
  ⟨"SELECT EXISTS FROM asset_attribute_claims HAVING count(DISTINCT value::text)>1", [org, asset]⟩

def selectConflict (org asset : String) : Sql Bool :=
  Stmt.select (conflictCall org asset) (·.conflict org asset)

/-- `coalesce(nullif($,''),column)`. -/
def orKeep (value : Option String) (column : String) : String :=
  match value with
  | none => column
  | some v => if v = "" then column else v

def effectiveSql : String := "UPDATE assets SET environment,display_name,canonical_name,status"

def updateEffective (environment display : Option String) (status : AssetStatus) (id org : String) :
    Sql (List Unit) :=
  updateAsset effectiveSql id org (fun _ _ => true)
    fun r => { r with environment := environment.or r.environment
                      displayName := orKeep display r.displayName
                      canonicalName := orKeep display r.canonicalName
                      status := status }

def insertChangeRow (r : ChangeRow) : Sql Unit :=
  { call := ⟨"INSERT INTO infrastructure_changes", [r.id]⟩
    locks := fun _ _ => [.entry .changesKey [r.organizationID, r.logicalIdentity], .entry .changes [r.id]]
    eval := fun _ cur =>
      -- ON CONFLICT(organization_id,logical_identity) DO NOTHING
      if cur.changes.rows.any (fun c => c.organizationID = r.organizationID ∧
          c.logicalIdentity = r.logicalIdentity) then .ok ((), [])
      else if (cur.changes.get r.id).isSome then .error (.unique .changes)
      else .ok ((), [.change r]) }

def Db.findRelationship (db : Db) (key : String × String × String × String) : Option RelationshipRow :=
  db.relationships.rows.find? (·.key = key)

def selectRelationshipExists (org fromAsset toAsset type : String) : Sql Bool :=
  Stmt.select ⟨"SELECT EXISTS FROM asset_relationships", [org, fromAsset, toAsset, type]⟩
    fun db => (db.findRelationship (org, fromAsset, toAsset, type)).isSome

def upsertRelationship (r : RelationshipRow) : Sql Unit :=
  Stmt.upsert ⟨"INSERT INTO asset_relationships", [r.id]⟩ Write.relationship
    [.entry .relationshipsKey [r.organizationID, r.fromAssetID, r.toAssetID, r.type],
      .entry .relationships [r.id]]
    (fun db => db.findRelationship r.key)
    (fun db => if (db.relationships.get r.id).isSome then some (.unique .relationships) else none)
    r (fun old => { old with status := .active, lastSeenAt := max old.lastSeenAt r.lastSeenAt })
    fun _ => ()

def upsertRelationshipSource (r : RelationshipSourceRow) : Sql Unit :=
  Stmt.upsert ⟨"INSERT INTO relationship_source_identities", [r.id]⟩ Write.relationshipSource
    [.entry .relationshipSourcesKey
        [r.organizationID, r.connectorID, r.externalFromID, r.externalToID, r.type],
      .entry .relationshipSources [r.id]]
    (fun db => db.relationshipSources.get r.key)
    (fun db => if db.relationshipSources.rows.any (·.id = r.id) then some (.unique .relationshipSources)
      else none)
    r (fun old => { old with relationshipID := r.relationshipID, status := .active,
                             consecutiveAbsences := 0, lastSeenAt := max old.lastSeenAt r.lastSeenAt })
    fun _ => ()

def insertRelationshipObservation (r : RelationshipObservationRow) : Sql Unit :=
  Stmt.insert ⟨"INSERT INTO relationship_observations", [r.id]⟩ Write.relationshipObservation
    [.entry .relationshipObservations [r.id],
      .entry .relationshipObservationsKey [r.snapshotID, r.externalFromID, r.externalToID, r.type]]
    (fun db =>
      if (db.relationshipObservations.get r.id).isSome then some (.unique .relationshipObservations)
      else if db.relationshipObservations.rows.any (fun o => o.snapshotID = r.snapshotID ∧
        o.externalFromID = r.externalFromID ∧ o.externalToID = r.externalToID ∧ o.type = r.type)
      then some (.unique .relationshipObservationsKey) else none) r

def Db.observed (db : Db) (snapshot external : String) : Bool :=
  db.observations.rows.any fun o => o.snapshotID = snapshot ∧ o.externalID = external

/-- An `UPDATE asset_source_identities ... WHERE organization_id=$ AND connector_id=$ AND p`. -/
def updateIdentities (sql : String) (org connector : String) (p : Db → SourceIdentityRow → Bool)
    (f : SourceIdentityRow → SourceIdentityRow) : Sql (List String) :=
  Stmt.update ⟨sql, [org, connector]⟩ Db.sourceIdentities Write.sourceIdentity
    (fun i => .entry .sourceIdentitiesKey [i.organizationID, i.connectorID, i.externalID])
    (fun db i => i.organizationID = org && i.connectorID = connector && p db i) f (·.assetID)

def incrementAbsences (org connector snapshot : String) : Sql (List String) :=
  updateIdentities "UPDATE asset_source_identities SET consecutive_absences" org connector
    (fun db i => !db.observed snapshot i.externalID)
    fun i => { i with consecutiveAbsences := i.consecutiveAbsences + 1 }

def markIdentitiesMissing (org connector : String) (threshold : ℕ) : Sql (List String) :=
  updateIdentities "UPDATE asset_source_identities SET status='MISSING'" org connector
    (fun _ i => i.status = .active && threshold ≤ i.consecutiveAbsences)
    fun i => { i with status := .missing }

def Db.connectorActive (db : Db) (org connector asset : String) : Bool :=
  db.sourceIdentities.rows.any fun i => i.organizationID = org ∧ i.connectorID = connector ∧
    i.assetID = asset ∧ i.status = .active

def Db.anyActive (db : Db) (asset : String) : Bool :=
  db.sourceIdentities.rows.any fun i => i.assetID = asset ∧ i.status = .active

def deactivateMissingClaims (org connector asset : String) : Sql (List Unit) :=
  deactivate "UPDATE asset_attribute_claims SET active=false WHERE NOT EXISTS" [org, connector, asset]
    fun db c => (c.organizationID = org ∧ c.connectorID = connector ∧ c.assetID = asset ∧ c.active) &&
      !db.connectorActive org connector asset

def markAssetMissing (asset org : String) : Sql (List Unit) :=
  updateAsset "UPDATE assets SET status='MISSING'" asset org
    (fun db r => (r.status ≠ .missing ∧ r.status ≠ .retired) && !db.anyActive asset)
    fun r => { r with status := .missing }

def Db.relationshipObserved (db : Db) (snapshot : String) (s : RelationshipSourceRow) : Bool :=
  db.relationshipObservations.rows.any fun o => o.snapshotID = snapshot ∧
    o.externalFromID = s.externalFromID ∧ o.externalToID = s.externalToID ∧ o.type = s.type

def updateSources (sql : String) (org connector : String) (p : Db → RelationshipSourceRow → Bool)
    (f : RelationshipSourceRow → RelationshipSourceRow) : Sql (List String) :=
  Stmt.update ⟨sql, [org, connector]⟩ Db.relationshipSources Write.relationshipSource
    (fun i => .entry .relationshipSourcesKey
      [i.organizationID, i.connectorID, i.externalFromID, i.externalToID, i.type])
    (fun db i => i.organizationID = org && i.connectorID = connector && p db i) f (·.relationshipID)

def incrementRelationshipAbsences (org connector snapshot : String) : Sql (List String) :=
  updateSources "UPDATE relationship_source_identities SET consecutive_absences" org connector
    (fun db i => !db.relationshipObserved snapshot i)
    fun i => { i with consecutiveAbsences := i.consecutiveAbsences + 1 }

def markSourcesRemoved (org connector : String) (threshold : ℕ) : Sql (List String) :=
  updateSources "UPDATE relationship_source_identities SET status='REMOVED'" org connector
    (fun _ i => i.status = .active && threshold ≤ i.consecutiveAbsences)
    fun i => { i with status := .removed }

def Db.relationshipActive (db : Db) (relationship : String) : Bool :=
  db.relationshipSources.rows.any fun i => i.relationshipID = relationship ∧ i.status = .active

def markRelationshipRemoved (relationship org : String) : Sql (List Unit) :=
  Stmt.update ⟨"UPDATE asset_relationships SET status='REMOVED'", [relationship, org]⟩ Db.relationships
    Write.relationship (fun r => .entry .relationships [r.id])
    (fun db r => (r.id = relationship ∧ r.organizationID = org ∧ r.status = .active) &&
      !db.relationshipActive relationship)
    (fun r => { r with status := .removed }) fun _ => ()

def insertRun (r : RunRow) : Sql Unit :=
  Stmt.insert ⟨"INSERT INTO reconciliation_runs", [r.id]⟩ Write.run
    [.entry .runs [r.id], .entry .runsSnapshot [r.snapshotID]]
    (fun db =>
      if (db.runs.get r.id).isSome then some (.unique .runs)
      else if db.runs.rows.any (·.snapshotID = r.snapshotID) then some (.unique .runsSnapshot) else none) r

end Infragraph
