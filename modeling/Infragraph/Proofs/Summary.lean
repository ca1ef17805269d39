import Infragraph.Proofs.Absences
import Infragraph.Proofs.Turns

/-! The summary of a call against the tables it leaves. Every observation is
counted once; the created assets and relationships are the rows that are new;
and a relationship is counted as removed exactly when it was ACTIVE before. -/

namespace Infragraph

open Relational ReadCommitted Prog

section

variable [Hashes] {db db' : Db} {c : ApplyCall} {sum : Summary}

/-- What the loops of a call do, and the databases after the observations, the
relationships and the four parts of the sweep. -/
structure Trace where
  sights : List Sight
  links : List Link
  losses : List Loss
  (missing removed : List String)
  (d₁ d₂ e₁ e₂ e₃ d₃ : Db)

/-- A successful call, taken apart: the trace of each loop, and the sweeps between them. -/
structure Traced (c : ApplyCall) (db : Db) (t : Trace) (sum : Summary) (db' : Db) : Prop where
  assets : t.sights.map Sight.observation = c.snapshot.assets
  observe : Steps (Turn c.snapshot (orNow c.snapshot.completedAt c.clock)) db t.sights t.d₁
  loaded : Loaded c.snapshot (orNow c.snapshot.completedAt c.clock) c.snapshot.assets
    (t.sights.map fun x => (x.observation.externalID, x.asset)).reverse db t.d₁
  relationships : t.links.map Link.observation = c.snapshot.relationships
  relate : Steps (LinkTurn c.snapshot (orNow c.snapshot.completedAt c.clock)
    (t.sights.map fun x => (x.observation.externalID, x.asset)).reverse) t.d₁ t.links t.d₂
  linked : Linked db → Linked t.d₂
  identities : IdentitiesSwept c.snapshot.organizationID c.snapshot.connectorID c.snapshot.snapshotID
    (effectiveThreshold c.missingThreshold) t.d₂ t.e₁ t.missing
  lost : t.losses.map Loss.asset = c.order.missing t.missing
  drop : Steps (LossTurn c.snapshot) t.e₁ t.losses t.e₂
  sources : SourcesSwept c.snapshot.organizationID c.snapshot.connectorID c.snapshot.snapshotID
    (effectiveThreshold c.missingThreshold) t.e₂ t.e₃ t.removed
  removals : ((c.order.removed t.removed).foldlM (removedRelationship c.snapshot)
    (t.losses.foldl (fun sum x => x.count sum)
      (t.links.foldl (fun sum x => x.count sum) (countSights c.snapshot {} t.sights)))).run t.e₃ = .ok (sum, t.d₃)
  unrun : ∀ x ∈ db.runs, x.snapshotID ≠ c.snapshot.snapshotID
  fresh : db.runs.get (runRow c.snapshot sum).id = none
  frame : db' = { t.d₃ with runs := t.d₃.runs.put (runRow c.snapshot sum) }

theorem ApplyCall.traced (hc : c.run db = .ok (sum, db')) : ∃ t, Traced c db t sum db' := by
  obtain ⟨st, d₁, d₂, d₃, sum₂, h⟩ := ApplyCall.run_ok hc
  have hload := run_assets h.observe rfl
  obtain ⟨sights, hassets, hst, hsum, hturns⟩ := run_assets_turns h.observe
  obtain ⟨links, hrels, hsum₂, hlinks⟩ := run_relationships_turns h.relate
  obtain ⟨missing, e₁, sum₁, e₂, removed, e₃, h1, h2, h3, h4⟩ := run_markMissing h.sweep
  obtain ⟨losses, hlost, hsum₁, hlosses⟩ := run_missing_turns h2
  rw [hst] at hlinks
  rw [hsum₁, hsum₂, hsum] at h4
  refine ⟨⟨sights, links, losses, missing, removed, d₁, d₂, e₁, e₂, e₃, d₃⟩, hassets, hturns, hst ▸ hload, hrels, hlinks,
    fun hl => ?_, h1, hlost, hlosses, h3, h4, h.runs.1 ▸ h.unrun, h.runs.1 ▸ h.fresh, h.frame⟩
  exact run_relationships_linked hload h.relate (hload.linked hl)

section

variable {sights : List Sight} {links : List Link} {losses : List Loss} {d₁ : Db} {t : Trace}

omit [Hashes] in
theorem countLosses (losses : List Loss) (sum : Summary) : losses.foldl (fun sum x => x.count sum) sum =
    { sum with missing := sum.missing + (losses.filter Loss.marked).length
               changes := sum.changes + (losses.filter Loss.marked).length } := by
  induction losses using List.reverseRecOn with
  | nil => rfl
  | append_singleton l x ih =>
    rw [List.foldl_append, List.foldl_cons, ih]
    cases hx : x.marked <;> simp [Loss.count, hx, Nat.add_assoc]

theorem linkTurns_frame {s : SnapshotEnvelope} {now : Time} {assets : List (String × String)}
    (h : Steps (LinkTurn s now assets) db links db') :
    db' = { db with relationships := db'.relationships, relationshipSources := db'.relationshipSources
                    relationshipObservations := db'.relationshipObservations, changes := db'.changes } :=
  h.invariant (I := fun d => d = { db with relationships := d.relationships
                                           relationshipSources := d.relationshipSources
                                           relationshipObservations := d.relationshipObservations
                                           changes := d.changes }) rfl
    fun _ _ _ _ hd hx => by rw [hx.frame, hd]

theorem lossTurns_frame {s : SnapshotEnvelope} (h : Steps (LossTurn s) db losses db') :
    db' = { db with assets := db'.assets, claims := db'.claims, changes := db'.changes } :=
  h.invariant (I := fun d => d = { db with assets := d.assets, claims := d.claims, changes := d.changes }) rfl
    fun _ _ _ _ hd hx => by rw [hx.frame, hd]

theorem lossTurns_keys {s : SnapshotEnvelope} (h : Steps (LossTurn s) db losses db') (a : String) :
    (db'.assets.get a).isSome ↔ (db.assets.get a).isSome :=
  h.invariant (I := fun d => (d.assets.get a).isSome ↔ (db.assets.get a).isSome) Iff.rfl
    fun _ _ _ _ hd hx => by rw [hx.assets, Option.isSome_map]; exact hd

theorem turns_relationships {s : SnapshotEnvelope} {now : Time} (h : Steps (Turn s now) db sights d₁) :
    d₁ = { db with assets := d₁.assets, sourceIdentities := d₁.sourceIdentities
                   strongIdentities := d₁.strongIdentities, observations := d₁.observations
                   claims := d₁.claims, changes := d₁.changes } :=
  h.invariant (I := fun d => d = { db with assets := d.assets, sourceIdentities := d.sourceIdentities
                                           strongIdentities := d.strongIdentities
                                           observations := d.observations, claims := d.claims
                                           changes := d.changes }) rfl
    fun _ _ _ _ hd hx => by rw [hx.frame, hd]

section

variable (h : Traced c db t sum db')
include h

theorem Traced.links_kept : t.d₁.relationships = db.relationships ∧
    t.d₁.relationshipSources = db.relationshipSources := by
  constructor <;> rw [turns_relationships h.observe]

theorem Traced.assets_kept : t.e₁.assets = t.d₁.assets := by rw [h.identities.frame, linkTurns_frame h.relate]

theorem Traced.sources_kept : t.e₂.relationshipSources = t.d₂.relationshipSources ∧
    t.e₂.relationshipObserved c.snapshot.snapshotID = t.d₂.relationshipObserved c.snapshot.snapshotID := by
  constructor
  · rw [lossTurns_frame h.drop, h.identities.frame]
  · rw [lossTurns_frame h.drop, h.identities.frame]
    rfl

theorem Traced.counters : sum.created + sum.updated + sum.unchanged = t.sights.length ∧
      sum.created = (createdAssets t.sights).length ∧ sum.relationshipsCreated = (newLinks t.links).length ∧
      sum.missing = (t.losses.filter Loss.marked).length := by
  obtain ⟨ids, -, -, hsum⟩ := run_removed_count h.removals
  obtain ⟨htotal, hcreated⟩ := countSights_assets (s := c.snapshot) t.sights
  obtain ⟨hrel, -, hmiss⟩ := countSights_relationships (s := c.snapshot) t.sights
  rw [countLosses, countLinks] at hsum
  rw [hsum]
  simp only [hrel, hmiss, Nat.zero_add]
  exact ⟨htotal, hcreated, trivial, trivial⟩

theorem Traced.assets_created
    (hwf : Wf db) : (db.assets.newRows db'.assets).length = (createdAssets t.sights).length := by
  obtain ⟨hnodup, hfresh, hkeys⟩ := turns_created h.observe hwf
  have hassets : db'.assets = t.e₂.assets := by rw [h.frame, run_removed_frame h.removals, h.sources.frame]
  have hassets₁ := h.assets_kept
  refine Table.length_newRows hnodup fun a => ?_
  rw [hassets, lossTurns_keys h.drop, hassets₁, hkeys]
  constructor
  · exact fun ha => ⟨hfresh a ha, .inr ha⟩
  · intro hparts
    obtain ⟨hnone, ha⟩ := hparts
    exact ha.resolve_left (by simp [hnone])

theorem Traced.relationships_after :
    t.e₃.relationships = t.d₂.relationships ∧ ∀ id, db'.relationships.get id = (t.d₂.relationships.get id).map
      (·.retired c.snapshot.organizationID (c.order.removed t.removed) t.e₃.relationshipActive) := by
  have hrel : t.e₃.relationships = t.d₂.relationships := by
    rw [h.sources.frame, lossTurns_frame h.drop, h.identities.frame]
  refine ⟨hrel, fun id => ?_⟩
  rw [h.frame, ← hrel]
  exact run_removed h.removals id

theorem Traced.relationships_created :
    (db.relationships.newRows db'.relationships).length = (newLinks t.links).length := by
  obtain ⟨hnodup, hfresh, hkeys⟩ := linkTurns_created h.relate
  have hrel₁ := h.links_kept.1
  rw [hrel₁] at hfresh hkeys
  rw [← List.length_map (Link.id c.snapshot)]
  refine Table.length_newRows hnodup fun id => ?_
  rw [h.relationships_after.2, Option.isSome_map, hkeys]
  constructor
  · intro hid
    obtain ⟨x, hx, rfl⟩ := List.mem_map.mp hid
    exact ⟨hfresh x hx, .inr hid⟩
  · intro hparts
    obtain ⟨hnone, hid⟩ := hparts
    exact hid.resolve_left (by simp [hnone])

/-- A source of the snapshot is observed and starts at zero. -/
theorem Traced.named_swept {x : Link} {y : RelationshipSourceRow} (hx : x ∈ t.links)
    (hkey : x.sourceKey c.snapshot = y.key) (hactive : y.status = .active) (habs : y.consecutiveAbsences = 0) :
    (y.swept c.snapshot.organizationID c.snapshot.connectorID (t.d₂.relationshipObserved c.snapshot.snapshotID)
      (effectiveThreshold c.missingThreshold)).status = .active := by
  have hmine : y.organizationID = c.snapshot.organizationID ∧ y.connectorID = c.snapshot.connectorID :=
    ⟨(congrArg (·.1) hkey).symm, (congrArg (·.2.1) hkey).symm⟩
  have hseen : t.d₂.relationshipObserved c.snapshot.snapshotID y = true :=
    (linkTurns_observed h.relate y).mpr (.inr ⟨x, hx, congrArg (·.2.2.1) hkey, congrArg (·.2.2.2.1) hkey,
      congrArg (·.2.2.2.2) hkey⟩)
  rw [RelationshipSourceRow.swept_active hmine, hseen, habs]
  exact ⟨hactive, effectiveThreshold_pos _⟩

theorem Traced.expired_source {y : RelationshipSourceRow} (hy : y ∈ t.d₂.relationshipSources)
    (hactive : y.status = .active) (hswept : (y.swept c.snapshot.organizationID c.snapshot.connectorID
      (t.d₂.relationshipObserved c.snapshot.snapshotID) (effectiveThreshold c.missingThreshold)).status ≠ .active) :
    y ∈ db.relationshipSources := by
  rcases linkTurns_sources h.relate y.key with ⟨x, hx, hkey, z, hz, -, -, habs⟩ | ⟨-, hsame⟩
  · rw [Table.mem_iff_get.mp hy] at hz
    cases hz
    exact absurd (h.named_swept hx hkey hactive habs) hswept
  · have hsources := h.links_kept.2
    rw [Table.mem_iff_get, ← hsources, ← hsame]
    exact Table.mem_iff_get.mp hy

/-- A relationship is t.removed by the call exactly when the loop can remove it. -/
theorem Traced.removed_iff (hl : Linked db) (id : String) :
    (id ∈ c.order.removed t.removed ∧ t.e₃.Removable c.snapshot.organizationID id) ↔
      ∃ r, db.relationships.get id = some r ∧ r.status = .active ∧
        (db'.relationships.get id).any (·.status = .removed) = true := by
  have hl₂ := h.linked hl
  obtain ⟨hrel, hafter⟩ := h.relationships_after
  have hrel₁ := h.links_kept.1
  obtain ⟨hsources, hobserved⟩ := h.sources_kept
  constructor
  · intro hparts
    obtain ⟨hid, ⟨q, hq, horg, hact⟩, hoff⟩ := hparts
    rw [hrel] at hq
    have hqid : q.id = id := Table.key_of_get hq
    -- the source that made it ACTIVE is gone, so it expired now
    obtain ⟨y, hy, hyid, hyact⟩ := relationshipActive_iff.mp ((hl₂.status q (Table.mem_of_get hq)).mp hact)
    have hswept : (y.swept c.snapshot.organizationID c.snapshot.connectorID
        (t.d₂.relationshipObserved c.snapshot.snapshotID) (effectiveThreshold c.missingThreshold)).status ≠ .active := by
      intro hkept
      rw [← Bool.not_eq_true, relationshipActive_iff] at hoff
      refine hoff ⟨_, h.sources.mem.mpr ⟨y, by rw [hsources]; exact hy, rfl⟩, ?_, by rw [hobserved]; exact hkept⟩
      rw [RelationshipSourceRow.swept_relationshipID, hyid, hqid]
    have hdb := h.expired_source hy hyact hswept
    obtain ⟨-, -, r, -, -, hr, -⟩ := hl.source y hdb
    rw [hyid, hqid] at hr
    have hrid : r.id = id := Table.key_of_get hr
    refine ⟨r, hr, (hl.status r (Table.mem_of_get hr)).mpr (relationshipActive_iff.mpr ⟨y, hdb, ?_, hyact⟩), ?_⟩
    · rw [hyid, hqid, hrid]
    · rw [hafter, hq, Option.map_some, RelationshipRow.retired,
        if_pos ⟨⟨by rw [hqid]; exact hid, horg, hact⟩, by rw [hqid]; exact hoff⟩]
      rfl
  · intro hparts
    obtain ⟨r, hr, hact, hremoved⟩ := hparts
    obtain ⟨q, hq, -, hqr⟩ := linkTurns_kept h.relate (by rw [hrel₁]; exact hr)
    have hqact : q.status = .active := by
      rcases hqr with rfl | hq'
      · exact hact
      · exact hq'
    have hqid : q.id = id := Table.key_of_get hq
    rw [hafter, hq, Option.map_some, RelationshipRow.retired] at hremoved
    split_ifs at hremoved with hret
    · rw [hqid] at hret
      exact ⟨hret.1.1, ⟨q, by rw [hrel]; exact hq, hret.1.2⟩, hret.2⟩
    · simp [hqact] at hremoved

theorem Traced.relationships_removed (hl : Linked db) : sum.relationshipsRemoved = (db.relationships.rows.filter fun r =>
      r.status = .active && (db'.relationships.get r.id).any (·.status = .removed)).length := by
  obtain ⟨ids, hnodup, hids, hsum⟩ := run_removed_count h.removals
  have hcount : sum.relationshipsRemoved = ids.length := by
    obtain ⟨-, hrem, -⟩ := countSights_relationships (s := c.snapshot) t.sights
    rw [countLosses, countLinks] at hsum
    rw [hsum]
    simp only [hrem, Nat.zero_add]
  rw [hcount, ← List.length_map RelationshipRow.id]
  refine List.Perm.length_eq ((List.perm_ext_iff_of_nodup hnodup ?_).mpr fun id => ?_)
  · exact db.relationships.nodup.sublist (List.filter_sublist.map _)
  · rw [hids, h.removed_iff hl, List.mem_map]
    constructor
    · intro hparts
      obtain ⟨r, hr, hact, hremoved⟩ := hparts
      have hid : r.id = id := Table.key_of_get hr
      exact ⟨r, List.mem_filter.mpr ⟨Table.mem_of_get hr, by simp [hact, hid, hremoved]⟩, hid⟩
    · intro hparts
      obtain ⟨r, hr, hid⟩ := hparts
      obtain ⟨hmem, hp⟩ := List.mem_filter.mp hr
      rw [Bool.and_eq_true, decide_eq_true_eq] at hp
      rw [← hid]
      exact ⟨r, Table.mem_iff_get.mp hmem, hp⟩

end

end

/-- In every reachable database a successful call counts every observation of the
snapshot once, the new assets as created, the new relationships as created, and as
removed the relationships that were ACTIVE and no longer are. -/
theorem runs_summary {db₀ : Db} {h : List ApplyCall} (h0 : db₀.InventoryEmpty) (hr : Runs db₀ h db)
    (hc : c.run db = .ok (sum, db')) : sum.created + sum.updated + sum.unchanged = c.snapshot.assets.length ∧
      sum.created = (db.assets.newRows db'.assets).length ∧
      sum.relationshipsCreated = (db.relationships.newRows db'.relationships).length ∧
      sum.relationshipsRemoved = (db.relationships.rows.filter fun r =>
        r.status = .active && (db'.relationships.get r.id).any (·.status = .removed)).length := by
  obtain ⟨t, htrace⟩ := ApplyCall.traced hc
  obtain ⟨htotal, hcreated, hlinks, -⟩ := htrace.counters
  refine ⟨?_, ?_, ?_, htrace.relationships_removed (hr.linked h0)⟩
  · rw [htotal, ← htrace.assets, List.length_map]
  · rw [hcreated, htrace.assets_created (hr.inventory h0).toWf]
  · rw [hlinks, htrace.relationships_created]

end

/-- The empty snapshot of a connector removes the relationship it saw before. -/
theorem runs_summary_empty : ∃ sum db', @ApplyCall.run toy emptyCall (replayed [firstCall]) = .ok (sum, db') ∧
    sum.created + sum.updated + sum.unchanged = 0 ∧ sum.relationshipsRemoved = 1 ∧
    sum.relationshipsRemoved = ((replayed [firstCall]).relationships.rows.filter fun r =>
      r.status = .active && (db'.relationships.get r.id).any (·.status = .removed)).length := by
  have hok : succeeds emptyCall (replayed [firstCall]) (fun out => decide (out.1.relationshipsRemoved = 1)) = true := by
    decide +kernel
  obtain ⟨sum, db', hrun, hone⟩ := run_of_succeeds hok
  obtain ⟨htotal, -, -, hremoved⟩ :=
    @runs_summary toy _ _ _ _ _ _ emptyDb_inventory (runs_replayed (by decide +kernel)) hrun
  exact ⟨sum, db', hrun, htotal, of_decide_eq_true hone, hremoved⟩

end Infragraph
