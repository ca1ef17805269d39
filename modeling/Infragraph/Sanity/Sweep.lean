import Infragraph.Lib.Aging
import Infragraph.Sanity.Observe

/-! What the sweeps of `markMissing` do to the tables. The identity and source
rows of the connector age by a round each; the assets and relationships that
lost a row are then revisited one by one. -/

namespace Infragraph

open Relational ReadCommitted Prog

variable {db db' : Db}
variable {snapshot : String} {d₁ : Db} {out missing : List String} {s : SnapshotEnvelope} {sum sum' : Summary}
  {a : String}

def identityAging (org connector : String) : Aging SourceIdentityRow.key where
  mine i := i.organizationID = org && i.connectorID = connector
  absences i := i.consecutiveAbsences
  active i := i.status = .active
  count i := { i with consecutiveAbsences := i.consecutiveAbsences + 1 }
  mark i := { i with status := .missing }
  key_count _ := rfl
  key_mark _ := rfl
  mine_count _ := rfl
  active_count _ := rfl
  absences_count _ := rfl
  absences_mark _ := rfl
  active_mark _ := rfl

def sourceAging (org connector : String) : Aging RelationshipSourceRow.key where
  mine i := i.organizationID = org && i.connectorID = connector
  absences i := i.consecutiveAbsences
  active i := i.status = .active
  count i := { i with consecutiveAbsences := i.consecutiveAbsences + 1 }
  mark i := { i with status := .removed }
  key_count _ := rfl
  key_mark _ := rfl
  mine_count _ := rfl
  active_count _ := rfl
  absences_count _ := rfl
  absences_mark _ := rfl
  active_mark _ := rfl

def SourceIdentityRow.swept (org connector : String) (observed : String → Bool) (threshold : ℕ)
    (i : SourceIdentityRow) : SourceIdentityRow :=
  (identityAging org connector).swept (fun i => observed i.externalID) threshold i

def RelationshipSourceRow.swept (org connector : String) (observed : RelationshipSourceRow → Bool) (threshold : ℕ)
    (i : RelationshipSourceRow) : RelationshipSourceRow :=
  (sourceAging org connector).swept observed threshold i

section

variable {org connector : String} {threshold : ℕ}

section Identities

variable {observed : String → Bool} {i : SourceIdentityRow}

@[simp] theorem SourceIdentityRow.swept_key : (i.swept org connector observed threshold).key = i.key :=
  Aging.keeps_key.swept

theorem SourceIdentityRow.swept_eq : i.swept org connector observed threshold =
      { i with consecutiveAbsences := (i.swept org connector observed threshold).consecutiveAbsences
               status := (i.swept org connector observed threshold).status } := by
  unfold SourceIdentityRow.swept Aging.swept Aging.marked Aging.counted
  split_ifs <;> rfl

@[simp] theorem SourceIdentityRow.swept_assetID : (i.swept org connector observed threshold).assetID = i.assetID := by
  rw [swept_eq]

theorem SourceIdentityRow.swept_of_ne (h : ¬ (i.organizationID = org ∧ i.connectorID = connector)) :
    i.swept org connector observed threshold = i :=
  Aging.swept_of_not_mine (identityAging org connector) _ _ (by simpa [identityAging] using h)

section

variable (h : i.organizationID = org ∧ i.connectorID = connector)
include h

theorem SourceIdentityRow.swept_absences : (i.swept org connector observed threshold).consecutiveAbsences =
      countAbsence (observed i.externalID) i.consecutiveAbsences :=
  Aging.absences_swept (identityAging org connector) _ _ (by simpa [identityAging] using h)

theorem SourceIdentityRow.swept_active : (i.swept org connector observed threshold).status = .active ↔
      i.status = .active ∧ countAbsence (observed i.externalID) i.consecutiveAbsences < threshold := by
  have := Aging.active_swept (identityAging org connector) (fun i => observed i.externalID) threshold
    (r := i) (by simpa [identityAging] using h)
  exact (decide_eq_true_iff.symm.trans this).trans (and_congr_left fun _ => decide_eq_true_iff)

end

theorem SourceIdentityRow.active_of_swept
    (h : (i.swept org connector observed threshold).status = .active) : i.status = .active := by
  have := Aging.active_of_swept (identityAging org connector) (fun i => observed i.externalID) threshold
    (r := i) (decide_eq_true h)
  exact of_decide_eq_true this

end Identities

section Sources

variable {observed : RelationshipSourceRow → Bool} {i : RelationshipSourceRow}

@[simp] theorem RelationshipSourceRow.swept_key : (i.swept org connector observed threshold).key = i.key :=
  Aging.keeps_key.swept

theorem RelationshipSourceRow.swept_eq : i.swept org connector observed threshold =
      { i with consecutiveAbsences := (i.swept org connector observed threshold).consecutiveAbsences
               status := (i.swept org connector observed threshold).status } := by
  unfold RelationshipSourceRow.swept Aging.swept Aging.marked Aging.counted
  split_ifs <;> rfl

@[simp] theorem RelationshipSourceRow.swept_relationshipID : (i.swept org connector observed threshold).relationshipID = i.relationshipID := by
  rw [swept_eq]

theorem RelationshipSourceRow.swept_of_ne (h : ¬ (i.organizationID = org ∧ i.connectorID = connector)) :
    i.swept org connector observed threshold = i :=
  Aging.swept_of_not_mine (sourceAging org connector) _ _ (by simpa [sourceAging] using h)

section

variable (h : i.organizationID = org ∧ i.connectorID = connector)
include h

theorem RelationshipSourceRow.swept_absences : (i.swept org connector observed threshold).consecutiveAbsences =
      countAbsence (observed i) i.consecutiveAbsences :=
  Aging.absences_swept (sourceAging org connector) _ _ (by simpa [sourceAging] using h)

theorem RelationshipSourceRow.swept_active : (i.swept org connector observed threshold).status = .active ↔
      i.status = .active ∧ countAbsence (observed i) i.consecutiveAbsences < threshold := by
  have := Aging.active_swept (sourceAging org connector) observed threshold
    (r := i) (by simpa [sourceAging] using h)
  exact (decide_eq_true_iff.symm.trans this).trans (and_congr_left fun _ => decide_eq_true_iff)

end

theorem RelationshipSourceRow.active_of_swept
    (h : (i.swept org connector observed threshold).status = .active) : i.status = .active := by
  have := Aging.active_of_swept (sourceAging org connector) observed threshold
    (r := i) (decide_eq_true h)
  exact of_decide_eq_true this

end Sources

/-- The identities of the connector after its round, and the assets of those
that went MISSING in it. -/
structure IdentitiesSwept (org connector snapshot : String) (threshold : ℕ) (db db' : Db)
    (missing : List String) : Prop where
  frame : db' = { db with sourceIdentities := db'.sourceIdentities }
  get : ∀ k, db'.sourceIdentities.get k =
    (db.sourceIdentities.get k).map (·.swept org connector (db.observed snapshot) threshold)
  /-- the list names an asset once for every identity that went MISSING -/
  expired : missing.Perm ((db.sourceIdentities.rows.filter fun i => i.status = .active &&
    !((i.swept org connector (db.observed snapshot) threshold).status = .active)).map (·.assetID))

theorem run_sweepIdentities (h1 : (exec (incrementAbsences org connector snapshot)).run db = .ok (out, d₁))
    (h2 : (exec (markIdentitiesMissing org connector threshold)).run d₁ = .ok (missing, db')) :
    IdentitiesSwept org connector snapshot threshold db db' missing := by
  obtain ⟨hd₁, -⟩ := run_updateIdentities (by exact fun _ => rfl) h1
  obtain ⟨hd₂, -⟩ := run_updateIdentities (by exact fun _ => rfl) h2
  obtain ⟨hget, hout⟩ := Aging.run_round (identityAging org connector) Db.sourceIdentities
    (fun d i => d.observed snapshot i.externalID) (fun d l => by rw [writeAll_sourceIdentity])
    ⟨fun _ => rfl, fun _ => rfl⟩ h1 h2
  exact ⟨by rw [hd₂, hd₁], hget, hout⟩

section

variable (h : IdentitiesSwept org connector snapshot threshold db db' missing)
include h

theorem IdentitiesSwept.missing_iff (a : String) : a ∈ missing ↔ ∃ i ∈ db.sourceIdentities, i.status = .active ∧
    i.assetID = a ∧ (i.swept org connector (db.observed snapshot) threshold).status ≠ .active := by
  refine h.expired.mem_iff.trans ((Aging.mem_lost (identityAging org connector) _ _).trans ?_)
  exact exists_congr fun i => and_congr_right fun _ => and_congr decide_eq_true_iff
    (and_congr_right fun _ => decide_eq_false_iff_not)

theorem IdentitiesSwept.mem {i : SourceIdentityRow} : i ∈ db'.sourceIdentities ↔
    ∃ j ∈ db.sourceIdentities, j.swept org connector (db.observed snapshot) threshold = i :=
  Table.mem_of_get_map (fun _ => SourceIdentityRow.swept_key) h.get

end

/-- The relationship sources of the connector after its round, and the
relationships of those that were REMOVED in it. -/
structure SourcesSwept (org connector snapshot : String) (threshold : ℕ) (db db' : Db)
    (removed : List String) : Prop where
  frame : db' = { db with relationshipSources := db'.relationshipSources }
  get : ∀ k, db'.relationshipSources.get k = (db.relationshipSources.get k).map
    (·.swept org connector (db.relationshipObserved snapshot) threshold)
  removed : ∀ a, a ∈ removed ↔ ∃ i ∈ db.relationshipSources, i.status = .active ∧
    i.relationshipID = a ∧
    (i.swept org connector (db.relationshipObserved snapshot) threshold).status ≠ .active

theorem run_sweepSources {removed : List String}
    (h1 : (exec (incrementRelationshipAbsences org connector snapshot)).run db = .ok (out, d₁))
    (h2 : (exec (markSourcesRemoved org connector threshold)).run d₁ = .ok (removed, db')) :
    SourcesSwept org connector snapshot threshold db db' removed := by
  obtain ⟨hd₁, -⟩ := run_updateSources (by exact fun _ => rfl) h1
  obtain ⟨hd₂, -⟩ := run_updateSources (by exact fun _ => rfl) h2
  obtain ⟨hget, hout⟩ := Aging.run_round (sourceAging org connector) Db.relationshipSources
    (fun d => d.relationshipObserved snapshot) (fun d l => by rw [writeAll_relationshipSource])
    ⟨fun _ => rfl, fun _ => rfl⟩ h1 h2
  refine ⟨by rw [hd₂, hd₁], hget, fun a => ?_⟩
  rw [hout.mem_iff, Aging.mem_lost]
  exact exists_congr fun i => and_congr_right fun _ => and_congr decide_eq_true_iff
    (and_congr_right fun _ => decide_eq_false_iff_not)

theorem SourcesSwept.mem {removed : List String} (h : SourcesSwept org connector snapshot threshold db db' removed)
    {x : RelationshipSourceRow} : x ∈ db'.relationshipSources ↔ ∃ y ∈ db.relationshipSources,
      y.swept org connector (db.relationshipObserved snapshot) threshold = x :=
  Table.mem_of_get_map (fun _ => RelationshipSourceRow.swept_key) h.get

end

/-- A claim of a connector that no longer has an ACTIVE identity on the asset. -/
def ClaimRow.lapsed (org connector a : String) (active : Bool) (c : ClaimRow) : ClaimRow :=
  if (c.organizationID = org ∧ c.connectorID = connector ∧ c.assetID = a ∧ c.active = true) ∧
      active = false then { c with active := false } else c

def Db.sweptAsset (db : Db) (r : AssetRow) : AssetRow :=
  if db.anyActive r.id then db.effectiveRow r else { db.effectiveRow r with status := .missing }

structure Dropped (org connector a : String) (db db' : Db) : Prop where
  frame : db' = { db with assets := db'.assets, claims := db'.claims, changes := db'.changes }
  claims : ∀ k, db'.claims.get k =
    (db.claims.get k).map (·.lapsed org connector a (db.connectorActive org connector a))
  assets : ∀ k, db'.assets.get k = (db.assets.get k).map fun r =>
    if r.id = a ∧ r.organizationID = org then ({ db with claims := db'.claims } : Db).sweptAsset r else r

theorem run_updateAsset_rows {sql id org : String} {p : Db → AssetRow → Bool} {f : AssetRow → AssetRow} {rs : List Unit}
    (h : (exec (updateAsset sql id org p f)).run db = .ok (rs, db')) :
    0 < rs.length ↔ ∃ r, db.assets.get id = some r ∧ r.organizationID = org ∧ p db r = true := by
  obtain ⟨rfl, -⟩ := run_update_ok.mp h
  simp only [List.length_map, List.length_pos_iff_exists_mem, Table.mem_changed]
  constructor
  · intro hparts
    obtain ⟨_, r, hr, hp, _⟩ := hparts
    simp only [Bool.and_eq_true, decide_eq_true_eq] at hp
    exact ⟨r, by rw [← hp.1.1]; exact Table.mem_iff_get.mp hr, hp.1.2, hp.2⟩
  · intro hparts
    obtain ⟨r, hr, horg, hp⟩ := hparts
    have hid : r.id = id := Table.key_of_get hr
    exact ⟨f r, r, Table.mem_of_get hr, by simp [hid, horg, hp], rfl⟩

theorem effectiveRow_status (d : Db) (r : AssetRow) :
    (d.effectiveRow r).status ≠ .missing ∧ (d.effectiveRow r).status ≠ .retired := by
  unfold Db.effectiveRow
  dsimp only
  split_ifs <;> decide

/-- The last update of an iteration finds the row of an asset without ACTIVE identities. -/
theorem run_missingAsset_affected {rs affected : List Unit} {conflict : Bool} {d₁ d₂ d₃ : Db}
    (h1 : (exec (deactivateMissingClaims s.organizationID s.connectorID a)).run db = .ok (rs, d₁))
    (h2 : (updateEffectiveAsset s.organizationID a).run d₁ = .ok (conflict, d₂))
    (h3 : (exec (markAssetMissing a s.organizationID)).run d₂ = .ok (affected, d₃)) : 0 < affected.length ↔
      (∃ r, db.assets.get a = some r ∧ r.organizationID = s.organizationID) ∧ db.anyActive a = false := by
  obtain ⟨hd₁, -⟩ := run_deactivate h1
  obtain ⟨-, hd₂, heff⟩ := run_updateEffectiveAsset h2
  have hany : d₂.anyActive a = db.anyActive a := by rw [hd₂, hd₁]; rfl
  have hassets : d₁.assets = db.assets := by rw [hd₁]
  rw [run_updateAsset_rows h3, heff, hassets, hany]
  constructor
  · intro hparts
    obtain ⟨r', hr', horg, hp⟩ := hparts
    obtain ⟨r, hr, rfl⟩ := Option.map_eq_some_iff.mp hr'
    simp only [Bool.and_eq_true, Bool.not_eq_true'] at hp
    refine ⟨⟨r, hr, ?_⟩, hp.2⟩
    split_ifs at horg <;> exact horg
  · intro hparts
    obtain ⟨⟨r, hr, horg⟩, hp⟩ := hparts
    have hid : r.id = a := Table.key_of_get hr
    refine ⟨d₁.effectiveRow r, by rw [hr, Option.map_some, if_pos ⟨hid, horg⟩], horg, ?_⟩
    -- the effective row is ACTIVE or CONFLICTING, so only the identities decide
    simp [effectiveRow_status d₁ r, hp]

section

variable [Hashes]

structure Loss where
  asset : String
  marked : Bool

def Loss.rows (s : SnapshotEnvelope) (x : Loss) : List ChangeRow :=
  if x.marked then [missingRow s x.asset] else []

def Loss.count (x : Loss) (sum : Summary) : Summary :=
  { sum with missing := sum.missing + x.marked.toNat, changes := sum.changes + x.marked.toNat }

structure LossTurn (s : SnapshotEnvelope) (db : Db) (x : Loss) (db' : Db) : Prop extends
    Dropped s.organizationID s.connectorID x.asset db db' where
  marks : x.marked = true ↔ (∃ r, db.assets.get x.asset = some r ∧ r.organizationID = s.organizationID) ∧
    db.anyActive x.asset = false
  logged : Logged ChangeRow.slot db.changes (x.rows s) db'.changes

theorem run_missingAsset_turn (h : (missingAsset s sum a).run db = .ok (sum', db')) :
    ∃ x : Loss, x.asset = a ∧ sum' = x.count sum ∧ LossTurn s db x db' := by
  simp only [missingAsset, run_bind_ok] at h
  obtain ⟨rs, d₁, h1, conflict, d₂, h2, affected, d₃, h3, h4⟩ := h
  have hmarks := run_missingAsset_affected h1 h2 h3
  obtain ⟨hd₁, hclaims⟩ := run_deactivate h1
  obtain ⟨-, hd₂, heff⟩ := run_updateEffectiveAsset h2
  obtain ⟨hd₃, hmark⟩ := run_updateAsset (by exact fun _ => rfl) h3
  have hchanges : d₃.changes = db.changes := by rw [hd₃, hd₂, hd₁]
  have hdropped : ∀ c, Dropped s.organizationID s.connectorID a db { d₃ with changes := c } := by
    intro c
    refine ⟨by rw [hd₃, hd₂, hd₁], fun k => ?_, fun k => ?_⟩
    · rw [hd₃, hd₂]
      rw [hclaims]
      simp [ClaimRow.lapsed]
    · have hd : ({ db with claims := d₃.claims } : Db) = d₁ := by rw [hd₃, hd₂, hd₁]
      have hassets : d₁.assets = db.assets := by rw [hd₁]
      rw [hd, hmark, heff, Option.map_map, hassets]
      congr 1
      funext r
      rw [Function.comp_apply]
      by_cases hr : r.id = a ∧ r.organizationID = s.organizationID
      · have hsame : (d₁.effectiveRow r).id = r.id ∧ (d₁.effectiveRow r).organizationID = r.organizationID :=
          ⟨rfl, rfl⟩
        have hany : d₂.anyActive a = d₁.anyActive a := by rw [hd₂]; rfl
        cases hb : d₁.anyActive a <;>
          simp [Db.sweptAsset, hsame, hr, effectiveRow_status d₁ r, hany, hb]
      · rw [if_neg hr, if_neg hr, if_neg fun hc => hr ⟨hc.1, hc.2.1⟩]
  by_cases hpos : 0 < affected.length
  · rw [if_pos hpos] at h4
    obtain ⟨u, d, h5, h6⟩ := run_bind_ok.mp h4
    cases h6
    obtain ⟨hd, hlog⟩ := run_insertChange h5
    rw [hchanges] at hlog
    rw [hd]
    exact ⟨⟨a, true⟩, rfl, rfl, hdropped _, ⟨fun _ => hmarks.mp hpos, fun _ => rfl⟩, hlog⟩
  · rw [if_neg hpos] at h4
    cases h4
    exact ⟨⟨a, false⟩, rfl, rfl, hdropped _, ⟨by simp, fun hm => absurd (hmarks.mpr hm) hpos⟩, hchanges ▸ .nil⟩

theorem run_missingAsset (h : (missingAsset s sum a).run db = .ok (sum', db')) :
    Dropped s.organizationID s.connectorID a db db' := by
  obtain ⟨x, rfl, -, hturn⟩ := run_missingAsset_turn h
  exact hturn.toDropped

end

theorem Dropped.mem_claims {org connector a : String} (h : Dropped org connector a db db') {c : ClaimRow} :
    c ∈ db'.claims ↔
      ∃ c₀ ∈ db.claims, c₀.lapsed org connector a (db.connectorActive org connector a) = c :=
  Table.mem_of_get_map (fun c => by unfold ClaimRow.lapsed; split_ifs <;> rfl) h.claims

theorem run_removedRelationship {id : String} (h : (removedRelationship s sum id).run db = .ok (sum', db')) :
    db' = { db with relationships := db'.relationships } ∧
      ∀ k, db'.relationships.get k = (db.relationships.get k).map fun r =>
        if (r.id = id ∧ r.organizationID = s.organizationID ∧ r.status = .active) ∧
            db.relationshipActive id = false then { r with status := .removed } else r := by
  simp only [removedRelationship, run_bind_ok] at h
  obtain ⟨affected, d₁, h1, h2⟩ := h
  cases h2
  exact run_markRelationshipRemoved h1

/-- `markMissing` is two rounds, each followed by its loop. -/
theorem run_markMissing [Hashes] {order : MapOrder} {n : ℕ}
    (h : (markMissing order s n sum).run db = .ok (sum', db')) : ∃ missing d₁ sum₁ d₂ removed d₃,
      IdentitiesSwept s.organizationID s.connectorID s.snapshotID n db d₁ missing ∧
      ((order.missing missing).foldlM (missingAsset s) sum).run d₁ = .ok (sum₁, d₂) ∧
      SourcesSwept s.organizationID s.connectorID s.snapshotID n d₂ d₃ removed ∧
      ((order.removed removed).foldlM (removedRelationship s) sum₁).run d₃ = .ok (sum', db') := by
  simp only [markMissing, run_bind_ok] at h
  obtain ⟨out, e₁, h1, missing, d₁, h2, sum₁, d₂, h3, out', e₂, h4, removed, d₃, h5, h6⟩ := h
  exact ⟨missing, d₁, sum₁, d₂, removed, d₃, run_sweepIdentities h1 h2, h3, run_sweepSources h4 h5, h6⟩

end Infragraph
