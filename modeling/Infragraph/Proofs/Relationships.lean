import Infragraph.Proofs.Inventory
import Infragraph.Sanity.GoMap

/-! Relationships and their sources. A source of a connector ages with its two
end identities: it is seen only in snapshots that contain both, so its counter
is never behind theirs and it is REMOVED no later than either goes MISSING. -/

namespace Infragraph

open Relational ReadCommitted Prog

variable {db db' : Db}
variable {org : String} {s : SnapshotEnvelope} {now : Time} {assets : List (String × String)} {sum sum' : Summary}

theorem relationshipActive_iff {id : String} : db.relationshipActive id = true ↔
      ∃ x ∈ db.relationshipSources, x.relationshipID = id ∧ x.status = .active := by
  simp [Db.relationshipActive, Table.mem_rows]

theorem observed_iff {snapshot external : String} : db.observed snapshot external = true ↔
      ∃ o ∈ db.observations, o.snapshotID = snapshot ∧ o.externalID = external := by
  simp [Db.observed, Table.mem_rows]

theorem relationshipObserved_iff {snapshot : String} {x : RelationshipSourceRow} :
    db.relationshipObserved snapshot x = true ↔ ∃ o ∈ db.relationshipObservations,
      o.snapshotID = snapshot ∧ o.externalFromID = x.externalFromID ∧
      o.externalToID = x.externalToID ∧ o.type = x.type := by
  simp [Db.relationshipObserved, Table.mem_rows]

def RelationshipSourceRow.IsEnd (x : RelationshipSourceRow) (e : String) : Prop :=
  e = x.externalFromID ∨ e = x.externalToID

theorem RelationshipRow.key_eq {r : RelationshipRow} {f t type : String} (h : r.key = (org, f, t, type)) :
    r.organizationID = org ∧ r.fromAssetID = f ∧ r.toAssetID = t ∧ r.type = type := by
  simpa [RelationshipRow.key] using h

theorem RelationshipSourceRow.key_eq {x : RelationshipSourceRow} {c f t type : String}
    (h : x.key = (org, c, f, t, type)) :
    x.organizationID = org ∧ x.connectorID = c ∧ x.externalFromID = f ∧ x.externalToID = t ∧ x.type = type := by
  simpa [RelationshipSourceRow.key] using h

/-- A relationship of `l` that no ACTIVE source leads to any more. -/
def RelationshipRow.retired (org : String) (l : List String) (active : String → Bool)
    (r : RelationshipRow) : RelationshipRow :=
  if (r.id ∈ l ∧ r.organizationID = org ∧ r.status = .active) ∧ active r.id = false then
    { r with status := .removed } else r

theorem retired_eq {l : List String} {active : String → Bool} (r : RelationshipRow) :
    r.retired org l active = { r with status := (r.retired org l active).status } := by
  unfold RelationshipRow.retired
  split_ifs <;> rfl

theorem retired_snoc (org id : String) (l : List String) (active : String → Bool) (r : RelationshipRow) :
    (let q := r.retired org l active
      if (q.id = id ∧ q.organizationID = org ∧ q.status = .active) ∧ active id = false then
        { q with status := .removed } else q) = r.retired org (l ++ [id]) active := by
  unfold RelationshipRow.retired
  by_cases hl : (r.id ∈ l ∧ r.organizationID = org ∧ r.status = .active) ∧ active r.id = false
  · simp [hl]
  · rw [if_neg hl]
    refine ite_congr (propext ?_) (fun _ => rfl) fun _ => rfl
    constructor
    · rintro ⟨⟨rfl, ho, hst⟩, ha⟩
      exact ⟨⟨by simp, ho, hst⟩, ha⟩
    · rintro ⟨⟨hm, ho, hst⟩, ha⟩
      rcases List.mem_append.mp hm with hm | hm
      · exact absurd ⟨⟨hm, ho, hst⟩, ha⟩ hl
      · rw [← List.mem_singleton.mp hm]
        exact ⟨⟨rfl, ho, hst⟩, ha⟩

theorem run_removed {l : List String} (h : (l.foldlM (removedRelationship s) sum).run db = .ok (sum', db'))
    (k : String) : db'.relationships.get k =
      (db.relationships.get k).map (·.retired s.organizationID l db.relationshipActive) := by
  refine (run_foldlM (fun pre _ d => d.relationshipSources = db.relationshipSources ∧ ∀ k,
    d.relationships.get k =
      (db.relationships.get k).map (·.retired s.organizationID pre db.relationshipActive)) h
    ⟨rfl, fun k => by simp [RelationshipRow.retired]⟩ ?_).2 k
  rintro pre id post sum d sum' d' - ⟨hsrc, hget⟩ hrun
  obtain ⟨hframe, hmark⟩ := run_removedRelationship hrun
  have hact : d.relationshipActive id = db.relationshipActive id := by
    unfold Db.relationshipActive
    rw [hsrc]
  refine ⟨by rw [hframe]; exact hsrc, fun k => ?_⟩
  rw [hmark, hget, Option.map_map, hact]
  congr 1
  funext r
  exact retired_snoc s.organizationID id pre db.relationshipActive r

/-- A source and an end of it, aged by one snapshot: the source is not seen
without the end, so it is never behind. -/
theorem coupled_swept {connector : String} {n : ℕ} {seen : String → Bool} {rseen : RelationshipSourceRow → Bool}
    {x : RelationshipSourceRow} {i : SourceIdentityRow} {e : String}
    (hkey : i.key = (x.organizationID, x.connectorID, e)) (hends : rseen x = true → seen e = true)
    (h : i.consecutiveAbsences ≤ x.consecutiveAbsences ∧ (x.status = .active → i.status = .active)) :
    (i.swept org connector seen n).consecutiveAbsences ≤ (x.swept org connector rseen n).consecutiveAbsences ∧
      ((x.swept org connector rseen n).status = .active → (i.swept org connector seen n).status = .active) := by
  have ho : i.organizationID = x.organizationID := congrArg Prod.fst hkey
  have hc : i.connectorID = x.connectorID := congrArg (·.2.1) hkey
  have he : i.externalID = e := congrArg (·.2.2) hkey
  by_cases hmine : x.organizationID = org ∧ x.connectorID = connector
  · have hmine' : i.organizationID = org ∧ i.connectorID = connector := by rwa [ho, hc]
    have hle : countAbsence (seen e) i.consecutiveAbsences ≤ countAbsence (rseen x) x.consecutiveAbsences := by
      unfold countAbsence
      cases hr : rseen x with
      | true =>
        rw [hends hr]
        exact h.1
      | false =>
        cases seen e <;> simp <;> omega
    rw [SourceIdentityRow.swept_absences hmine', RelationshipSourceRow.swept_absences hmine,
      SourceIdentityRow.swept_active hmine', RelationshipSourceRow.swept_active hmine, he]
    exact ⟨hle, fun hx => ⟨h.2 hx.1, lt_of_le_of_lt hle hx.2⟩⟩
  · have hmine' : ¬ (i.organizationID = org ∧ i.connectorID = connector) := by rwa [ho, hc]
    rw [SourceIdentityRow.swept_of_ne hmine', RelationshipSourceRow.swept_of_ne hmine]
    exact h

variable [Hashes]

structure Linked (db : Db) : Prop where
  id : ∀ r ∈ db.relationships, r.id = relationshipID r.organizationID r.fromAssetID r.toAssetID r.type
  /-- a source leads to the relationship between the assets its ends are bound to -/
  source : ∀ x ∈ db.relationshipSources, ∃ i j r,
    db.sourceIdentities.get (x.organizationID, x.connectorID, x.externalFromID) = some i ∧
    db.sourceIdentities.get (x.organizationID, x.connectorID, x.externalToID) = some j ∧
    db.relationships.get x.relationshipID = some r ∧
    r.key = (x.organizationID, i.assetID, j.assetID, x.type)
  coupled : ∀ x ∈ db.relationshipSources, ∀ e, x.IsEnd e → ∀ i,
    db.sourceIdentities.get (x.organizationID, x.connectorID, e) = some i →
    i.consecutiveAbsences ≤ x.consecutiveAbsences ∧ (x.status = .active → i.status = .active)
  ends : ∀ o ∈ db.relationshipObservations,
    db.observed o.snapshotID o.externalFromID = true ∧ db.observed o.snapshotID o.externalToID = true
  status : ∀ r ∈ db.relationships, r.status = .active ↔ db.relationshipActive r.id = true

theorem linked_of_empty (h : db.InventoryEmpty) : Linked db := by
  refine ⟨?_, ?_, ?_, ?_, ?_⟩
  · simp [h.relationships]
  · simp [h.relationshipSources]
  · simp [h.relationshipSources]
  · simp [h.relationshipObservations]
  · simp [h.relationships]

theorem Linked.id_of_key (h : Linked db) {r : RelationshipRow} (hr : r ∈ db.relationships) {f t type : String}
    (hkey : r.key = (org, f, t, type)) : r.id = relationshipID org f t type := by
  obtain ⟨h1, h2, h3, h4⟩ := RelationshipRow.key_eq hkey
  rw [h.id r hr, h1, h2, h3, h4]

/-- Observing assets resets counters of identities and nothing else. -/
theorem Loaded.linked {l : List Observation} (h : Loaded s now l assets db db') (hl : Linked db) : Linked db' := by
  have hrel : db'.relationships = db.relationships := by rw [h.frame]
  have hsrc : db'.relationshipSources = db.relationshipSources := by rw [h.frame]
  have hobs : db'.relationshipObservations = db.relationshipObservations := by rw [h.frame]
  have hact : ∀ id, db'.relationshipActive id = db.relationshipActive id :=
    fun id => by unfold Db.relationshipActive; rw [hsrc]
  have hseen : ∀ n e, db.observed n e = true → db'.observed n e = true := by
    intro n e he
    obtain ⟨o, ho, hs, he⟩ := observed_iff.mp he
    exact observed_iff.mpr ⟨o, (h.observations o).mpr (.inl ho), hs, he⟩
  refine ⟨?_, fun x hx => ?_, fun x hx e he i hi => ?_, fun o ho => ?_, fun r hr => ?_⟩
  · rw [hrel]; exact hl.id
  · rw [hsrc] at hx
    obtain ⟨i, j, r, hi, hj, hr, hkey⟩ := hl.source x hx
    obtain ⟨i', hi', hia⟩ := h.kept.identity _ i hi
    obtain ⟨j', hj', hja⟩ := h.kept.identity _ j hj
    exact ⟨i', j', r, hi', hj', by rw [hrel]; exact hr, by rw [hia, hja]; exact hkey⟩
  · rw [hsrc] at hx
    by_cases hk : ∃ o ∈ l, (x.organizationID, x.connectorID, e) =
        (s.organizationID, s.connectorID, o.externalID)
    · obtain ⟨o, ho, hk⟩ := hk
      obtain ⟨i', hi', hst, habs⟩ := h.seen o ho
      rw [hk, hi'] at hi
      cases hi
      exact ⟨by omega, fun _ => hst⟩
    · push Not at hk
      rw [h.unseen _ hk] at hi
      exact hl.coupled x hx e he i hi
  · rw [hobs] at ho
    exact ⟨hseen _ _ (hl.ends o ho).1, hseen _ _ (hl.ends o ho).2⟩
  · rw [hrel] at hr
    rw [hact]
    exact hl.status r hr

/-- An end of an observed relationship: an asset of the snapshot. -/
structure Db.End (db : Db) (s : SnapshotEnvelope) (e a : String) : Prop where
  identity : ∃ i, db.sourceIdentities.get (s.organizationID, s.connectorID, e) = some i ∧
    i.assetID = a ∧ i.status = .active ∧ i.consecutiveAbsences = 0
  observed : db.observed s.snapshotID e = true

/-- A source with the key of an observed relationship leads to it already. -/
theorem Linked.source_of_key {r : RelationshipObservation} {f g : String} (hl : Linked db)
    (hf : db.End s r.externalFromID f) (hg : db.End s r.externalToID g) {z : RelationshipSourceRow}
    (hz : z ∈ db.relationshipSources)
    (hk : z.key = (s.organizationID, s.connectorID, r.externalFromID, r.externalToID, r.type)) :
    z.relationshipID = relationshipID s.organizationID f g r.type := by
  obtain ⟨hzo, hzc, hzf, hzt, hzy⟩ := RelationshipSourceRow.key_eq hk
  obtain ⟨i, hi, hif, -⟩ := hf.identity
  obtain ⟨j, hj, hjg, -⟩ := hg.identity
  obtain ⟨i', j', q, hi', hj', hq, hqkey⟩ := hl.source z hz
  rw [hzo, hzc, hzf, hi] at hi'
  rw [hzo, hzc, hzt, hj] at hj'
  cases hi'
  cases hj'
  rw [← Table.key_of_get hq, ← hif, ← hjg, ← hzy, ← hzo]
  exact hl.id_of_key (Table.mem_of_get hq) hqkey

section

variable {r : RelationshipObservation} {t : Time} {f g : String} (h : Related s r t f g db db') (hl : Linked db)

include h hl

/-- New or not, the relationship's row carries the ID derived from its ends, and no
other relationship had it. -/
theorem Related.row : ∃ x, db'.relationships = db.relationships.put x ∧
    x.key = (s.organizationID, f, g, r.type) ∧ x.status = .active ∧
    x.id = relationshipID s.organizationID f g r.type ∧ ∀ q, db.relationships.get x.id = some q → q.key = x.key := by
  obtain ⟨x, hx, hkey, hst, ⟨old, hold, hok, hid⟩ | ⟨-, hnone, hid⟩⟩ := h.relationship
  · refine ⟨x, hx, hkey, hst, by rw [hid, hl.id_of_key hold (hok.trans hkey)], fun q hq => ?_⟩
    have hqo : q = old := Table.eq_of_key (Table.mem_of_get hq) hold ((Table.key_of_get hq).trans hid)
    rw [hqo, hok]
  · refine ⟨x, hx, hkey, hst, hid, fun q hq => ?_⟩
    rw [hnone] at hq
    cases hq

variable (hf : db.End s r.externalFromID f) (hg : db.End s r.externalToID g)

include hf hg

theorem Related.linked_source : ∀ z ∈ db'.relationshipSources, ∃ i j q,
      db'.sourceIdentities.get (z.organizationID, z.connectorID, z.externalFromID) = some i ∧
      db'.sourceIdentities.get (z.organizationID, z.connectorID, z.externalToID) = some j ∧
      db'.relationships.get z.relationshipID = some q ∧ q.key = (z.organizationID, i.assetID, j.assetID, z.type) := by
  obtain ⟨x, hx, hxkey, -, hxid, hold⟩ := h.row hl
  obtain ⟨y, hy, hykey, hyrel, -⟩ := h.source
  have hids : db'.sourceIdentities = db.sourceIdentities := by rw [h.frame]
  intro z hz
  rw [hy] at hz
  rw [hids, hx]
  rcases Table.mem_put.mp hz with rfl | ⟨hz, -⟩
  · obtain ⟨ho, hc, hzf, hzt, hty⟩ := RelationshipSourceRow.key_eq hykey
    obtain ⟨i, hi, hif, -⟩ := hf.identity
    obtain ⟨j, hj, hjg, -⟩ := hg.identity
    refine ⟨i, j, x, by rw [ho, hc, hzf, hi], by rw [ho, hc, hzt, hj], ?_, by rw [hxkey, ho, hty, hif, hjg]⟩
    rw [hyrel, ← hxid]
    exact Table.get_put_self _ _
  · obtain ⟨i, j, q, hi, hj, hq, hqkey⟩ := hl.source z hz
    by_cases hzx : x.id = z.relationshipID
    · refine ⟨i, j, x, hi, hj, by rw [← hzx]; exact Table.get_put_self _ _, ?_⟩
      rw [← hold q (by rwa [hzx])]
      exact hqkey
    · exact ⟨i, j, q, hi, hj, by rwa [Table.get_put_of_ne _ hzx], hqkey⟩

theorem Related.linked_coupled : ∀ z ∈ db'.relationshipSources, ∀ e, z.IsEnd e → ∀ k,
      db'.sourceIdentities.get (z.organizationID, z.connectorID, e) = some k →
      k.consecutiveAbsences ≤ z.consecutiveAbsences ∧ (z.status = .active → k.status = .active) := by
  obtain ⟨y, hy, hykey, -⟩ := h.source
  have hids : db'.sourceIdentities = db.sourceIdentities := by rw [h.frame]
  intro z hz e he k hk
  rw [hids] at hk
  rw [hy] at hz
  rcases Table.mem_put.mp hz with rfl | ⟨hz, -⟩
  · obtain ⟨ho, hc, hzf, hzt, -⟩ := RelationshipSourceRow.key_eq hykey
    obtain ⟨i, hi, -, hist, hiabs⟩ := hf.identity
    obtain ⟨j, hj, -, hjst, hjabs⟩ := hg.identity
    rw [ho, hc] at hk
    rcases he with rfl | rfl
    · rw [hzf, hi] at hk
      cases hk
      exact ⟨by omega, fun _ => hist⟩
    · rw [hzt, hj] at hk
      cases hk
      exact ⟨by omega, fun _ => hjst⟩
  · exact hl.coupled z hz e he k hk

theorem Related.linked_status :
    ∀ q ∈ db'.relationships, q.status = .active ↔ db'.relationshipActive q.id = true := by
  obtain ⟨x, hx, -, hxst, hxid, -⟩ := h.row hl
  obtain ⟨y, hy, hykey, hyrel, hyst, -⟩ := h.source
  intro q hq
  rw [relationshipActive_iff, hy]
  rw [hx] at hq
  rcases Table.mem_put.mp hq with rfl | ⟨hq, hne⟩
  · exact ⟨fun _ => ⟨y, Table.mem_put.mpr (.inl rfl), hyrel.trans hxid.symm, hyst⟩, fun _ => hxst⟩
  · -- another relationship keeps its sources
    rw [hl.status q hq, relationshipActive_iff]
    constructor
    · rintro ⟨z, hz, hzq, hzst⟩
      refine ⟨z, Table.mem_put.mpr (.inr ⟨hz, fun hzk => hne ?_⟩), hzq, hzst⟩
      rw [hxid, ← hl.source_of_key hf hg hz (hzk.trans hykey)]
      exact hzq.symm
    · rintro ⟨z, hz, hzq, hzst⟩
      rcases Table.mem_put.mp hz with rfl | ⟨hz, -⟩
      · exact absurd (hzq.symm.trans (hyrel.trans hxid.symm)) hne
      · exact ⟨z, hz, hzq, hzst⟩

theorem Related.linked : Linked db' := by
  refine ⟨fun q hq => ?_, h.linked_source hl hf hg, h.linked_coupled hl hf hg, fun o ho => ?_, h.linked_status hl hf hg⟩
  · obtain ⟨x, hx, hxkey, -, hxid, -⟩ := h.row hl
    rw [hx] at hq
    rcases Table.mem_put.mp hq with rfl | ⟨hq, -⟩
    · obtain ⟨h1, h2, h3, h4⟩ := RelationshipRow.key_eq hxkey
      rw [hxid, h1, h2, h3, h4]
    · exact hl.id q hq
  · have hobs : ∀ n e, db'.observed n e = db.observed n e := fun n e => by rw [h.frame]; rfl
    rw [hobs, hobs]
    rw [h.observation] at ho
    rcases (Table.mem_put_fresh h.fresh).mp ho with rfl | ho
    · exact ⟨hf.observed, hg.observed⟩
    · exact hl.ends o ho

end

theorem Loaded.end_of_lookup {l : List Observation} (h : Loaded s now l assets db db') {e a : String}
    (he : assets.lookup e = some a) : db'.End s e a := by
  have hmem := List.mem_of_lookup he
  obtain ⟨o, ho, rfl⟩ := h.names e a hmem
  obtain ⟨i, hi, hia⟩ := h.entry _ a hmem
  obtain ⟨i', hi', hst, habs⟩ := h.seen o ho
  rw [hi] at hi'
  cases hi'
  exact ⟨⟨i, hi, hia, hst, habs⟩,
    observed_iff.mpr ⟨_, (h.observations _).mpr (.inr ⟨o, ho, rfl⟩), rfl, rfl⟩⟩

theorem run_relationships_linked {now' : Time} {obs : List Observation} {d : Db} {l : List RelationshipObservation}
    (hload : Loaded s now' obs assets d db) (h : (l.foldlM (relate s now assets) sum).run db = .ok (sum', db'))
    (hl : Linked db) : Linked db' := by
  refine (run_foldlM (fun _ _ e => Linked e ∧ e.sourceIdentities = db.sourceIdentities ∧
    e.observations = db.observations) h ⟨hl, rfl, rfl⟩ ?_).1
  rintro pre r post sum e sum' e' - ⟨he, hids, hobs⟩ hrun
  obtain ⟨f, g, hf, hg, hrel⟩ := run_relate hrun
  have hend : ∀ {x a}, assets.lookup x = some a → e.End s x a := by
    intro x a hx
    obtain ⟨h1, h2⟩ := hload.end_of_lookup hx
    refine ⟨by rw [hids]; exact h1, ?_⟩
    unfold Db.observed at h2 ⊢
    rw [hobs]
    exact h2
  exact ⟨hrel.linked he (hend hf) (hend hg), by rw [hrel.frame]; exact hids,
    by rw [hrel.frame]; exact hobs⟩

/-- What the sweep leaves of identities, sources and relationships. `l` are the
relationships that lost an ACTIVE source. -/
structure Unlinked (s : SnapshotEnvelope) (n : ℕ) (l : List String) (db db' : Db) : Prop where
  identities : ∀ k, db'.sourceIdentities.get k = (db.sourceIdentities.get k).map
    (·.swept s.organizationID s.connectorID (db.observed s.snapshotID) n)
  sources : ∀ {x}, x ∈ db'.relationshipSources ↔ ∃ y ∈ db.relationshipSources,
    y.swept s.organizationID s.connectorID (db.relationshipObserved s.snapshotID) n = x
  relationships : ∀ k, db'.relationships.get k =
    (db.relationships.get k).map (·.retired s.organizationID l db'.relationshipActive)
  removed : ∀ y ∈ db.relationshipSources, y.status = .active →
    (y.swept s.organizationID s.connectorID (db.relationshipObserved s.snapshotID) n).status ≠ .active →
    y.relationshipID ∈ l
  observations : db'.observations = db.observations
  relationshipObservations : db'.relationshipObservations = db.relationshipObservations

theorem run_markMissing_unlinked {order : MapOrder} {n : ℕ}
    (h : (markMissing order s n sum).run db = .ok (sum', db')) : ∃ l, Unlinked s n l db db' := by
  obtain ⟨missing, d₁, sum₁, d₂, removed, d₃, h1, h2, h3, h4⟩ := run_markMissing h
  have hd₂ := run_missing_frame h2
  have hframe := run_removed_frame h4
  have hids : db'.sourceIdentities = d₁.sourceIdentities := by rw [hframe, h3.frame, hd₂]
  have hsrc : db'.relationshipSources = d₃.relationshipSources := by rw [hframe]
  have hsrc₂ : d₂.relationshipSources = db.relationshipSources := by rw [hd₂, h1.frame]
  have hrel₃ : d₃.relationships = db.relationships := by rw [h3.frame, hd₂, h1.frame]
  have hrobs : d₂.relationshipObserved s.snapshotID = db.relationshipObserved s.snapshotID := by
    rw [hd₂, h1.frame]; rfl
  have hactive : d₃.relationshipActive = db'.relationshipActive := by
    funext id
    unfold Db.relationshipActive
    rw [hsrc]
  refine ⟨order.removed removed, by rw [hids]; exact h1.get, ?_, fun k => ?_, fun y hy hst hoff => ?_, ?_, ?_⟩
  · rw [hsrc, ← hrobs, ← hsrc₂]
    exact h3.mem
  · rw [run_removed h4, hrel₃, hactive]
  · refine (order.removed_perm removed).mem_iff.mpr ((h3.removed _).mpr ⟨y, by rwa [hsrc₂], hst, rfl, ?_⟩)
    rwa [hrobs]
  · rw [hframe, h3.frame, hd₂, h1.frame]
  · rw [hframe, h3.frame, hd₂, h1.frame]

section

variable {n : ℕ} {l : List String} (h : Unlinked s n l db db')

include h

omit [Hashes] in
theorem Unlinked.mem_relationships {q : RelationshipRow} : q ∈ db'.relationships ↔
    ∃ r ∈ db.relationships, r.retired s.organizationID l db'.relationshipActive = q :=
  Table.mem_of_get_map (fun r => by rw [retired_eq]) h.relationships

omit [Hashes] in
theorem Unlinked.active_before {id : String} (ha : db'.relationshipActive id = true) :
    db.relationshipActive id = true := by
  obtain ⟨x, hx, hxr, hst⟩ := relationshipActive_iff.mp ha
  obtain ⟨y, hy, rfl⟩ := h.sources.mp hx
  rw [RelationshipSourceRow.swept_relationshipID] at hxr
  exact relationshipActive_iff.mpr ⟨y, hy, hxr, RelationshipSourceRow.active_of_swept hst⟩

/-- A relationship that lost its last ACTIVE source is on the list. -/
theorem Unlinked.lost (hl : Linked db) {r : RelationshipRow} (hr : r ∈ db.relationships)
    (hst : r.status = .active) (hoff : db'.relationshipActive r.id = false) :
    r.id ∈ l ∧ r.organizationID = s.organizationID := by
  obtain ⟨y, hy, hyr, hyst⟩ := relationshipActive_iff.mp ((hl.status r hr).mp hst)
  have hsw : (y.swept s.organizationID s.connectorID (db.relationshipObserved s.snapshotID) n).status ≠ .active := by
    intro hsw
    rw [← Bool.not_eq_true, relationshipActive_iff] at hoff
    exact hoff ⟨_, h.sources.mpr ⟨y, hy, rfl⟩, by rwa [RelationshipSourceRow.swept_relationshipID], hsw⟩
  have hmine : y.organizationID = s.organizationID := by
    by_contra hne
    rw [RelationshipSourceRow.swept_of_ne fun hc => hne hc.1] at hsw
    exact hsw hyst
  obtain ⟨i, j, q, -, -, hq, hqkey⟩ := hl.source y hy
  rw [hyr, Table.mem_iff_get.mp hr] at hq
  cases hq
  exact ⟨hyr ▸ h.removed y hy hyst hsw, (RelationshipRow.key_eq hqkey).1.trans hmine⟩

theorem Unlinked.linked_status (hl : Linked db) :
    ∀ q ∈ db'.relationships, q.status = .active ↔ db'.relationshipActive q.id = true := by
  intro q hq
  obtain ⟨r, hr, rfl⟩ := h.mem_relationships.mp hq
  have hid : (r.retired s.organizationID l db'.relationshipActive).id = r.id := by rw [retired_eq]
  rw [hid]
  unfold RelationshipRow.retired
  cases hact : db'.relationshipActive r.id with
  | true => simpa using (hl.status r hr).mpr (h.active_before hact)
  | false =>
    by_cases hst : r.status = .active
    · simp [hst, h.lost hl hr hst hact]
    · simp [hst]

theorem Unlinked.linked_coupled (hl : Linked db) :
    ∀ x ∈ db'.relationshipSources, ∀ e, x.IsEnd e → ∀ i,
      db'.sourceIdentities.get (x.organizationID, x.connectorID, e) = some i →
      i.consecutiveAbsences ≤ x.consecutiveAbsences ∧ (x.status = .active → i.status = .active) := by
  intro x hx e he i hi
  obtain ⟨y, hy, rfl⟩ := h.sources.mp hx
  have hend : y.IsEnd e := by rwa [RelationshipSourceRow.swept_eq] at he
  rw [RelationshipSourceRow.swept_eq, h.identities, Option.map_eq_some_iff] at hi
  obtain ⟨i₀, hi₀, rfl⟩ := hi
  refine coupled_swept (Table.key_of_get hi₀) (fun hseen => ?_) (hl.coupled y hy e hend i₀ hi₀)
  -- the snapshot that has the relationship has its ends
  obtain ⟨o, ho, hs, hf, ht, -⟩ := relationshipObserved_iff.mp hseen
  have hends := hl.ends o ho
  rw [hs, hf, ht] at hends
  rcases hend with rfl | rfl
  · exact hends.1
  · exact hends.2

theorem Unlinked.linked (hl : Linked db) : Linked db' := by
  refine ⟨fun q hq => ?_, fun x hx => ?_, h.linked_coupled hl, fun o ho => ?_, h.linked_status hl⟩
  · obtain ⟨r, hr, rfl⟩ := h.mem_relationships.mp hq
    rw [retired_eq]
    exact hl.id r hr
  · obtain ⟨y, hy, rfl⟩ := h.sources.mp hx
    obtain ⟨i, j, r, hi, hj, hr, hkey⟩ := hl.source y hy
    rw [RelationshipSourceRow.swept_eq]
    refine ⟨_, _, _, by rw [h.identities, hi]; rfl, by rw [h.identities, hj]; rfl, by rw [h.relationships, hr]; rfl, ?_⟩
    dsimp only
    rw [retired_eq, SourceIdentityRow.swept_assetID, SourceIdentityRow.swept_assetID]
    exact hkey
  · rw [h.relationshipObservations] at ho
    unfold Db.observed
    rw [h.observations]
    exact hl.ends o ho

end

theorem ApplyCall.linked {c : ApplyCall} (hc : c.run db = .ok (sum, db')) (hl : Linked db) : Linked db' := by
  obtain ⟨st, d₁, d₂, d₃, sum₂, happ⟩ := ApplyCall.run_ok hc
  have hload := run_assets happ.observe rfl
  obtain ⟨l, hsweep⟩ := run_markMissing_unlinked happ.sweep
  have hd₃ := hsweep.linked (run_relationships_linked hload happ.relate (hload.linked hl))
  rw [happ.frame]
  exact ⟨hd₃.id, hd₃.source, hd₃.coupled, hd₃.ends, hd₃.status⟩

theorem Runs.linked {db₀ : Db} {h : List ApplyCall} (hr : Runs db₀ h db) (h0 : db₀.InventoryEmpty) : Linked db :=
  hr.invariant (linked_of_empty h0) (fun _ _ _ _ hd hc => ApplyCall.linked hc hd)
    fun _ _ _ _ _ _ _ hd => ⟨hd.id, hd.source, hd.coupled, hd.ends, hd.status⟩

/-- In every database that reconciliation reaches, a relationship is ACTIVE
exactly when one of its sources is, the end identities of a source are counted
absent no longer than it is and are ACTIVE while it is, and so both end assets
of an ACTIVE relationship are there and not MISSING. -/
theorem runs_relationships {db₀ : Db} {h : List ApplyCall} (h0 : db₀.InventoryEmpty) (hr : Runs db₀ h db) :
    (∀ r ∈ db.relationships, r.status = .active ↔
      ∃ x ∈ db.relationshipSources, x.relationshipID = r.id ∧ x.status = .active) ∧
    (∀ x ∈ db.relationshipSources, ∀ e, e = x.externalFromID ∨ e = x.externalToID → ∃ i,
      db.sourceIdentities.get (x.organizationID, x.connectorID, e) = some i ∧
      i.consecutiveAbsences ≤ x.consecutiveAbsences ∧ (x.status = .active → i.status = .active)) ∧
    ∀ r ∈ db.relationships, r.status = .active → ∀ a, a = r.fromAssetID ∨ a = r.toAssetID → ∃ y,
      db.assets.get a = some y ∧ y.status ≠ .missing := by
  have hl := hr.linked h0
  have hinv := hr.inventory h0
  refine ⟨fun r hrm => (hl.status r hrm).trans relationshipActive_iff, fun x hx e he => ?_,
    fun r hrm hst a ha => ?_⟩
  · obtain ⟨i, j, -, hi, hj, -⟩ := hl.source x hx
    rcases he with rfl | rfl
    · exact ⟨i, hi, hl.coupled x hx _ (.inl rfl) i hi⟩
    · exact ⟨j, hj, hl.coupled x hx _ (.inr rfl) j hj⟩
  · obtain ⟨x, hx, hxr, hxst⟩ := relationshipActive_iff.mp ((hl.status r hrm).mp hst)
    obtain ⟨i, j, q, hi, hj, hq, hqkey⟩ := hl.source x hx
    rw [hxr, Table.mem_iff_get.mp hrm] at hq
    cases hq
    -- the asset of an ACTIVE identity is not MISSING
    have hpresent : ∀ k ∈ db.sourceIdentities, k.status = .active → ∃ y,
        db.assets.get k.assetID = some y ∧ y.status ≠ .missing := by
      intro k hk hkst
      obtain ⟨y, hy, -⟩ := hinv.identity k hk
      refine ⟨y, hy, fun hm => ?_⟩
      have hid : y.id = k.assetID := Table.key_of_get hy
      rw [(hinv.settled y (Table.mem_of_get hy)).missing, ← Bool.not_eq_true, anyActive_iff] at hm
      exact hm ⟨k, hk, hid.symm, hkst⟩
    have hf : r.fromAssetID = i.assetID := congrArg (·.2.1) hqkey
    have ht : r.toAssetID = j.assetID := congrArg (·.2.2.1) hqkey
    rcases ha with rfl | rfl
    · rw [hf]
      exact hpresent i (Table.mem_of_get hi) ((hl.coupled x hx _ (.inl rfl) i hi).2 hxst)
    · rw [ht]
      exact hpresent j (Table.mem_of_get hj) ((hl.coupled x hx _ (.inr rfl) j hj).2 hxst)

omit [Hashes] in
/-- The relationship of the deployment before and after its source drops it. -/
theorem runs_relationships_deployment :
    (replayed [firstCall, otherCall]).relationships.rows.map (·.status) = [.active] ∧
      (replayed deployment).relationships.rows.map (·.status) = [.removed] ∧
      (∀ r ∈ (replayed [firstCall, otherCall]).relationships, r.status = .active →
        ∀ a, a = r.fromAssetID ∨ a = r.toAssetID → ∃ y,
          (replayed [firstCall, otherCall]).assets.get a = some y ∧ y.status ≠ .missing) :=
  ⟨by decide +kernel, by decide +kernel,
    (@runs_relationships _ toy _ _ emptyDb_inventory
      (runs_replayed (show replays [firstCall, otherCall] = true by decide +kernel))).2.2⟩

end Infragraph
