import Infragraph.Lib.Ledger
import Infragraph.Spec.Reconcile

/-! What each statement of the reconciliation does when it runs alone. A result
names the one table that changes and gives its rows by key. -/

namespace Infragraph

open Relational ReadCommitted Prog

variable {u : Unit} {sql id org : String} {rs : List Unit}

section Writes

variable (db : Db)

@[simp] theorem writeAll_asset (rs : List AssetRow) :
    writeAll db (rs.map Write.asset) = { db with assets := db.assets.putAll rs } := by
  induction rs generalizing db with
  | nil => rfl
  | cons r rs ih => exact ih _

@[simp] theorem writeAll_claim (rs : List ClaimRow) :
    writeAll db (rs.map Write.claim) = { db with claims := db.claims.putAll rs } := by
  induction rs generalizing db with
  | nil => rfl
  | cons r rs ih => exact ih _

@[simp] theorem writeAll_sourceIdentity (rs : List SourceIdentityRow) : writeAll db (rs.map Write.sourceIdentity) =
      { db with sourceIdentities := db.sourceIdentities.putAll rs } := by
  induction rs generalizing db with
  | nil => rfl
  | cons r rs ih => exact ih _

@[simp] theorem writeAll_relationship (rs : List RelationshipRow) : writeAll db (rs.map Write.relationship) =
      { db with relationships := db.relationships.putAll rs } := by
  induction rs generalizing db with
  | nil => rfl
  | cons r rs ih => exact ih _

@[simp] theorem writeAll_relationshipSource (rs : List RelationshipSourceRow) :
    writeAll db (rs.map Write.relationshipSource) =
      { db with relationshipSources := db.relationshipSources.putAll rs } := by
  induction rs generalizing db with
  | nil => rfl
  | cons r rs ih => exact ih _

end Writes

variable {db db' : Db}

theorem ite_some_eq_none {α : Type} {c : Prop} [Decidable c] {a : α} : (if c then some a else none) = none ↔ ¬ c := by
  split_ifs with h <;> simp [h]

theorem run_insertAsset {r : AssetRow} (h : (exec (insertAsset r)).run db = .ok (u, db')) :
    db.assets.get r.id = none ∧ db' = { db with assets := db.assets.put r } := by
  obtain ⟨hr, rfl⟩ := run_insert_ok.mp h
  exact ⟨by simpa using hr, rfl⟩

/-- Any `UPDATE assets` changes only rows with the given ID and organization. -/
theorem run_updateAsset {p : Db → AssetRow → Bool} {f : AssetRow → AssetRow} (hf : ∀ r, (f r).id = r.id)
    (h : (exec (updateAsset sql id org p f)).run db = .ok (rs, db')) : db' = { db with assets := db'.assets } ∧
      ∀ k, db'.assets.get k = (db.assets.get k).map fun r =>
        if r.id = id ∧ r.organizationID = org ∧ p db r = true then f r else r := by
  obtain ⟨-, rfl⟩ := run_update_ok.mp h
  rw [writeAll_asset]
  refine ⟨rfl, fun k => ?_⟩
  rw [Table.get_changed _ _ hf]
  simp [and_assoc]

theorem run_selectAssetStatus {st : AssetStatus} (h : (exec (selectAssetStatus id org)).run db = .ok (st, db')) :
    db' = db ∧ ∃ r, db.assets.get id = some r ∧ r.organizationID = org ∧ st = r.status := by
  obtain ⟨r, hr, hst, rfl⟩ := run_selectForUpdate_ok h
  rw [Option.filter_eq_some_iff] at hr
  exact ⟨rfl, r, hr.1, by simpa using hr.2, hst⟩

/-- The upsert never moves an identity to another asset. -/
theorem run_upsertSourceIdentity {r : SourceIdentityRow} (h : (exec (upsertSourceIdentity r)).run db = .ok (u, db')) :
    ∃ i, db' = { db with sourceIdentities := db.sourceIdentities.put i } ∧ i.key = r.key ∧
      ((∃ old, db.sourceIdentities.get r.key = some old ∧
          i = { old with lastSeenAt := max old.lastSeenAt r.lastSeenAt, status := .active,
                         consecutiveAbsences := 0 }) ∨
        (db.sourceIdentities.get r.key = none ∧ i = r)) := by
  rcases run_upsert_ok h with ⟨old, hold, -, rfl⟩ | ⟨hnone, -, -, rfl⟩
  · have hkey : old.key = r.key := Table.key_of_get hold
    exact ⟨_, rfl, hkey, .inl ⟨old, hold, rfl⟩⟩
  · exact ⟨_, rfl, rfl, .inr ⟨hnone, rfl⟩⟩

theorem run_upsertStrongIdentity {r : StrongIdentityRow} {a : String}
    (h : (exec (upsertStrongIdentity r)).run db = .ok (a, db')) :
    ∃ x, db' = { db with strongIdentities := db.strongIdentities.put x } ∧ x.key = r.key ∧
      a = x.assetID ∧
      ((∃ old, db.strongIdentities.get r.key = some old ∧
          x = { old with lastSeenAt := max old.lastSeenAt r.lastSeenAt }) ∨
        (db.strongIdentities.get r.key = none ∧ x = r)) := by
  rcases run_upsert_ok h with ⟨old, hold, ha, rfl⟩ | ⟨hnone, -, ha, rfl⟩
  · have hkey : old.key = r.key := Table.key_of_get hold
    exact ⟨_, rfl, hkey, ha, .inl ⟨old, hold, rfl⟩⟩
  · exact ⟨_, rfl, rfl, ha, .inr ⟨hnone, rfl⟩⟩

theorem run_insertObservation {r : ObservationRow} (h : (exec (insertObservation r)).run db = .ok (u, db')) :
    db.observations.get r.id = none ∧ db.observed r.snapshotID r.externalID = false ∧
      db' = { db with observations := db.observations.put r } := by
  obtain ⟨hr, rfl⟩ := run_insert_ok.mp h
  split_ifs at hr with h1 h2
  exact ⟨by simpa using h1, by simpa [Db.observed] using h2, rfl⟩

theorem run_deactivate {args : List String} {p : Db → ClaimRow → Bool}
    (h : (exec (deactivate sql args p)).run db = .ok (rs, db')) : db' = { db with claims := db'.claims } ∧
      ∀ k, db'.claims.get k = (db.claims.get k).map fun c =>
        if p db c then { c with active := false } else c := by
  obtain ⟨-, rfl⟩ := run_update_ok.mp h
  rw [writeAll_claim]
  exact ⟨rfl, fun k => Table.get_changed _ _ (f := fun c : ClaimRow => { c with active := false }) (fun _ => rfl) k⟩

theorem run_insertClaim {r : ClaimRow} (h : (exec (insertClaim r)).run db = .ok (u, db')) :
    db.claims.get r.id = none ∧ db' = { db with claims := db.claims.put r } := by
  obtain ⟨hr, rfl⟩ := run_insert_ok.mp h
  exact ⟨by simpa using hr, rfl⟩

theorem run_insertChangeRow {r : ChangeRow} (h : (exec (insertChangeRow r)).run db = .ok (u, db')) :
    (db' = db ∧ ∃ c ∈ db.changes, c.organizationID = r.organizationID ∧
        c.logicalIdentity = r.logicalIdentity) ∨
      (db' = { db with changes := db.changes.put r } ∧ db.changes.get r.id = none ∧
        ∀ c ∈ db.changes, ¬ (c.organizationID = r.organizationID ∧
          c.logicalIdentity = r.logicalIdentity)) := by
  rw [run_exec_ok] at h
  obtain ⟨ws, he, rfl⟩ := h
  simp only [insertChangeRow] at he
  split_ifs at he with h1 h2
  · cases he
    left
    simpa [Table.mem_rows] using h1
  · cases he
    right
    exact ⟨rfl, by simpa using h2, by simpa [Table.mem_rows] using h1⟩

theorem run_upsertRelationship {r : RelationshipRow} (h : (exec (upsertRelationship r)).run db = .ok (u, db')) :
    ∃ x, db' = { db with relationships := db.relationships.put x } ∧ x.key = r.key ∧
      ((∃ old ∈ db.relationships, old.key = r.key ∧
          x = { old with status := .active, lastSeenAt := max old.lastSeenAt r.lastSeenAt }) ∨
        ((∀ old ∈ db.relationships, old.key ≠ r.key) ∧ db.relationships.get r.id = none ∧ x = r)) := by
  rcases run_upsert_ok h with ⟨old, hold, -, rfl⟩ | ⟨hnone, href, -, rfl⟩
  · have hkey : old.key = r.key := by simpa using List.find?_some hold
    exact ⟨_, rfl, hkey, .inl ⟨old, List.mem_of_find?_eq_some hold, hkey, rfl⟩⟩
  · refine ⟨_, rfl, rfl, .inr ⟨?_, by simpa using href, rfl⟩⟩
    intro old hold
    simpa using List.find?_eq_none.mp hnone old hold

theorem run_upsertRelationshipSource {r : RelationshipSourceRow}
    (h : (exec (upsertRelationshipSource r)).run db = .ok (u, db')) :
    ∃ x, db' = { db with relationshipSources := db.relationshipSources.put x } ∧ x.key = r.key ∧
      ((∃ old, db.relationshipSources.get r.key = some old ∧
          x = { old with relationshipID := r.relationshipID, status := .active,
                         consecutiveAbsences := 0, lastSeenAt := max old.lastSeenAt r.lastSeenAt }) ∨
        (db.relationshipSources.get r.key = none ∧ x = r)) := by
  rcases run_upsert_ok h with ⟨old, hold, -, rfl⟩ | ⟨hnone, -, -, rfl⟩
  · have hkey : old.key = r.key := Table.key_of_get hold
    exact ⟨_, rfl, hkey, .inl ⟨old, hold, rfl⟩⟩
  · exact ⟨_, rfl, rfl, .inr ⟨hnone, rfl⟩⟩

theorem run_insertRelationshipObservation {r : RelationshipObservationRow}
    (h : (exec (insertRelationshipObservation r)).run db = .ok (u, db')) :
    db.relationshipObservations.get r.id = none ∧
      db' = { db with relationshipObservations := db.relationshipObservations.put r } := by
  obtain ⟨hr, rfl⟩ := run_insert_ok.mp h
  split_ifs at hr with h1 h2
  exact ⟨by simpa using h1, rfl⟩

theorem run_updateIdentities {connector : String} {p : Db → SourceIdentityRow → Bool}
    {f : SourceIdentityRow → SourceIdentityRow} (hf : ∀ i, (f i).key = i.key) {out : List String}
    (h : (exec (updateIdentities sql org connector p f)).run db = .ok (out, db')) :
    db' = { db with sourceIdentities := db'.sourceIdentities } ∧
      ∀ k, db'.sourceIdentities.get k = (db.sourceIdentities.get k).map fun i =>
        if i.organizationID = org ∧ i.connectorID = connector ∧ p db i = true then f i else i := by
  obtain ⟨-, rfl⟩ := run_update_ok.mp h
  rw [writeAll_sourceIdentity]
  refine ⟨rfl, fun k => ?_⟩
  rw [Table.get_changed _ _ hf]
  simp [and_assoc]

theorem run_updateSources {connector : String} {p : Db → RelationshipSourceRow → Bool}
    {f : RelationshipSourceRow → RelationshipSourceRow} (hf : ∀ i, (f i).key = i.key) {out : List String}
    (h : (exec (updateSources sql org connector p f)).run db = .ok (out, db')) :
    db' = { db with relationshipSources := db'.relationshipSources } ∧
      ∀ k, db'.relationshipSources.get k = (db.relationshipSources.get k).map fun i =>
        if i.organizationID = org ∧ i.connectorID = connector ∧ p db i = true then f i else i := by
  obtain ⟨-, rfl⟩ := run_update_ok.mp h
  rw [writeAll_relationshipSource]
  refine ⟨rfl, fun k => ?_⟩
  rw [Table.get_changed _ _ hf]
  simp [and_assoc]

theorem run_markRelationshipRemoved (h : (exec (markRelationshipRemoved id org)).run db = .ok (rs, db')) :
    db' = { db with relationships := db'.relationships } ∧
      ∀ k, db'.relationships.get k = (db.relationships.get k).map fun r =>
        if (r.id = id ∧ r.organizationID = org ∧ r.status = .active) ∧
            db.relationshipActive id = false then { r with status := .removed } else r := by
  obtain ⟨-, rfl⟩ := run_update_ok.mp h
  rw [writeAll_relationship]
  refine ⟨rfl, fun k => ?_⟩
  rw [Table.get_changed _ _ (f := fun r : RelationshipRow => { r with status := .removed })
    fun _ => rfl]
  simp

theorem run_insertRun {r : RunRow} (h : (exec (insertRun r)).run db = .ok (u, db')) :
    db.runs.get r.id = none ∧ (∀ x ∈ db.runs, x.snapshotID ≠ r.snapshotID) ∧
      db' = { db with runs := db.runs.put r } := by
  obtain ⟨hr, rfl⟩ := run_insert_ok.mp h
  split_ifs at hr with h1 h2
  exact ⟨by simpa using h1, by simpa [Table.mem_rows] using h2, rfl⟩

/-- `UNIQUE (organization_id, logical_identity)`. -/
def ChangeRow.slot (r : ChangeRow) : String × String := (r.organizationID, r.logicalIdentity)

section

variable [Hashes] {s : SnapshotEnvelope} {a changeType reason : String} {before after : Json}

def changeRow (s : SnapshotEnvelope) (assetID changeType : String) (before after : Json) (reason : String) :
    ChangeRow :=
  let logical := "|".intercalate [s.snapshotID, assetID, changeType]
  { id := stableID "change" [logical], organizationID := s.organizationID, assetID := assetID
    changeType := changeType, beforeValue := before, afterValue := after, source := s.connectorID
    detectedAt := timestamptz s.completedAt, summary := reason, logicalIdentity := logical }

def returnedRow (s : SnapshotEnvelope) (a : String) (prior : AssetStatus) : ChangeRow :=
  changeRow s a "ASSET_RETURNED" (.str prior.text) (.str AssetStatus.active.text)
    "asset returned in a successful snapshot"

def conflictRow (s : SnapshotEnvelope) (a : String) : ChangeRow :=
  changeRow s a "SOURCE_CONFLICT" .null .null "active source claims conflict"

def discoveredRow (s : SnapshotEnvelope) (o : Observation) (a : String) : ChangeRow :=
  changeRow s a "ASSET_DISCOVERED" .null
    (.obj [("externalId", .str o.externalID), ("assetType", .str o.assetType)]) "asset discovered"

def addedRow (s : SnapshotEnvelope) (row : RelationshipRow) : ChangeRow :=
  changeRow s row.fromAssetID "RELATIONSHIP_ADDED" .null
    (.obj [("relationshipId", .str row.id), ("toAssetId", .str row.toAssetID), ("type", .str row.type)])
    "observed relationship added"

def missingRow (s : SnapshotEnvelope) (a : String) : ChangeRow :=
  changeRow s a "ASSET_MISSING" (.str AssetStatus.active.text) (.str AssetStatus.missing.text)
    "absent from sufficient successful snapshots"

theorem run_insertChange (h : (insertChange s a changeType before after reason).run db = .ok (u, db')) :
    db' = { db with changes := db'.changes } ∧
      Logged ChangeRow.slot db.changes [changeRow s a changeType before after reason] db'.changes := by
  rcases run_insertChangeRow h with ⟨rfl, c, hc, horg, hlog⟩ | ⟨rfl, hfresh, hnone⟩
  · exact ⟨rfl, Logged.nil.taken ⟨c, hc, Prod.ext horg hlog⟩⟩
  · refine ⟨rfl, Logged.nil.added (fun x hx he => hnone x hx ⟨congrArg Prod.fst he, congrArg Prod.snd he⟩) hfresh⟩

end

end Infragraph
