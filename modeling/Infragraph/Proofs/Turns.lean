import Infragraph.Proofs.Relationships
import Infragraph.Sanity.Tally

/-! What the loops of a call leave behind, read off their traces: the assets and
relationships that are new, the sources of the snapshot's relationships, and the
relationships that lost their last source. -/

namespace Infragraph

open Relational ReadCommitted Prog

variable {links : List Link}

section

variable {db db' : Db} {s : SnapshotEnvelope} {now : Time}

def Link.sourceKey (s : SnapshotEnvelope) (x : Link) : String × String × String × String × String :=
  (s.organizationID, s.connectorID, x.observation.externalFromID, x.observation.externalToID, x.observation.type)

theorem findRelationship_isSome {key : String × String × String × String} :
    (db.findRelationship key).isSome ↔ ∃ r ∈ db.relationships, r.key = key := by
  simp [Db.findRelationship, Table.mem_rows]

/-- The removal counter counts each relationship once. -/
theorem run_removed_count {l : List String} {sum sum' : Summary}
    (h : (l.foldlM (removedRelationship s) sum).run db = .ok (sum', db')) :
    ∃ ids : List String, ids.Nodup ∧ (∀ id, id ∈ ids ↔ id ∈ l ∧ db.Removable s.organizationID id) ∧
      sum' = { sum with relationshipsRemoved := sum.relationshipsRemoved + ids.length } := by
  refine (run_foldlM (fun pre sum₁ d => (∀ k, d.relationships.get k = (db.relationships.get k).map
      (·.retired s.organizationID pre db.relationshipActive)) ∧
    d.relationshipSources = db.relationshipSources ∧
    ∃ ids : List String, ids.Nodup ∧ (∀ id, id ∈ ids ↔ id ∈ pre ∧ db.Removable s.organizationID id) ∧
      sum₁ = { sum with relationshipsRemoved := sum.relationshipsRemoved + ids.length }) h
    ⟨by simp [RelationshipRow.retired], rfl, [], by simp⟩ ?_).2.2
  intro pre id post sum₁ d sum₂ d' _ hparts hrun
  obtain ⟨hget, hsrc, ids, hnodup, hids, hsum⟩ := hparts
  have hact : ∀ k, d.relationshipActive k = db.relationshipActive k := fun k => by
    unfold Db.relationshipActive
    rw [hsrc]
  obtain ⟨hframe, hmark⟩ := run_removedRelationship hrun
  refine ⟨fun k => ?_, by rw [hframe]; exact hsrc, ?_⟩
  · rw [hmark, hget, Option.map_map, hact]
    congr 1
    funext r
    exact retired_snoc s.organizationID id pre db.relationshipActive r
  -- the row is still there to be removed unless an earlier turn removed it
  have hremovable : d.Removable s.organizationID id ↔ db.Removable s.organizationID id ∧ id ∉ pre := by
    unfold Db.Removable
    rw [hget, hact]
    constructor
    · intro hparts
      obtain ⟨⟨q, hq, horg, hst⟩, ha⟩ := hparts
      obtain ⟨r, hr, rfl⟩ := Option.map_eq_some_iff.mp hq
      have hid : r.id = id := Table.key_of_get hr
      unfold RelationshipRow.retired at horg hst
      split_ifs at horg hst with hret
      exact ⟨⟨⟨r, hr, horg, hst⟩, ha⟩, fun hp => hret ⟨⟨hid ▸ hp, horg, hst⟩, hid ▸ ha⟩⟩
    · intro hparts
      obtain ⟨⟨⟨r, hr, horg, hst⟩, ha⟩, hp⟩ := hparts
      have hid : r.id = id := Table.key_of_get hr
      refine ⟨⟨r, ?_, horg, hst⟩, ha⟩
      rw [hr, Option.map_some, RelationshipRow.retired, if_neg fun hc => hp (hid ▸ hc.1.1)]
  rcases run_removedRelationship_count hrun with ⟨hrem, rfl⟩ | ⟨hrem, rfl⟩
  · obtain ⟨hdb, hp⟩ := hremovable.mp hrem
    refine ⟨id :: ids, List.nodup_cons.mpr ⟨fun hm => hp ((hids id).mp hm).1, hnodup⟩, fun k => ?_, ?_⟩
    · rw [List.mem_cons, hids, List.mem_append, List.mem_singleton, or_and_right, or_comm]
      exact or_congr_right ⟨fun hk => ⟨hk, hk ▸ hdb⟩, And.left⟩
    · rw [hsum]
      simp [Nat.add_assoc]
  · refine ⟨ids, hnodup, fun k => ?_, hsum⟩
    rw [hids, List.mem_append, List.mem_singleton, or_and_right]
    refine (or_iff_left_of_imp fun hk => ?_).symm
    by_contra hno
    exact hrem (hremovable.mpr ⟨hk.1 ▸ hk.2, fun hp => hno ⟨hk.1 ▸ hp, hk.2⟩⟩)

variable [Hashes]

theorem Turn.created_iff {x : Sight} (h : Turn s now db x db') (hwf : Wf db) :
    x.kind = .created ↔ db.assets.get x.asset = none := by
  cases hi : db.sourceIdentities.get (s.organizationID, s.connectorID, x.observation.externalID) with
  | some i =>
    obtain ⟨r, hr, -, hk⟩ := h.sighted.known i hi
    rw [hr, hk]
    split_ifs <;> simp
  | none =>
    rcases h.sighted.unknown hi with ⟨hk, hstrong⟩ | ⟨hk, -, hnone, -⟩
    · obtain ⟨e, -, he⟩ := List.exists_of_findSome?_eq_some hstrong
      obtain ⟨y, hy, hya⟩ := Option.map_eq_some_iff.mp (Option.filter_eq_some_iff.mp he).1
      obtain ⟨r, hr, -⟩ := hwf.strong y (Table.mem_of_get hy)
      rw [hya] at hr
      rw [hk, hr]
      simp
    · simp [hk, hnone]

theorem Turn.wf {x : Sight} (h : Turn s now db x db') (hwf : Wf db) : Wf db' := by
  obtain ⟨created, hobs⟩ := h.observed hwf
  exact hobs.wf hwf

theorem turns_wf {sights : List Sight} (h : Steps (Turn s now) db sights db') (hwf : Wf db) : Wf db' :=
  h.invariant hwf fun _ _ _ _ hd hx => hx.wf hd

def createdAssets (sights : List Sight) : List String :=
  (sights.filter fun x => x.kind = .created).map Sight.asset

omit [Hashes] in
theorem createdAssets_snoc (sights : List Sight) (x : Sight) : createdAssets (sights ++ [x]) =
    if x.kind = .created then createdAssets sights ++ [x.asset] else createdAssets sights := by
  unfold createdAssets
  by_cases hk : x.kind = .created <;> simp [hk]

theorem turns_created {sights : List Sight} (h : Steps (Turn s now) db sights db') (hwf : Wf db) :
    (createdAssets sights).Nodup ∧ (∀ a ∈ createdAssets sights, db.assets.get a = none) ∧
      ∀ a, (db'.assets.get a).isSome ↔ (db.assets.get a).isSome ∨ a ∈ createdAssets sights := by
  induction h with
  | nil => simp [createdAssets]
  | @snoc l d x d' hl hx ih =>
    obtain ⟨hnodup, hfresh, hkeys⟩ := ih
    have hd := turns_wf hl hwf
    obtain ⟨created, hobs⟩ := hx.observed hd
    have hsome : ∀ a, (d'.assets.get a).isSome ↔ (d.assets.get a).isSome ∨ a = x.asset := by
      intro a
      by_cases ha : a = x.asset
      · obtain ⟨r, hr, -⟩ := hobs.asset
        rw [ha, hr]
        simp
      · rw [hx.others a ha]
        simp [ha]
    by_cases hk : x.kind = .created
    · have hnone := (hx.created_iff hd).mp hk
      have hnot : ¬ ((db.assets.get x.asset).isSome ∨ x.asset ∈ createdAssets l) := by
        rw [← hkeys, hnone]
        simp
      rw [createdAssets_snoc, if_pos hk]
      refine ⟨?_, fun a ha => ?_, fun a => ?_⟩
      · rw [← List.concat_eq_append, List.nodup_concat]
        exact ⟨fun ha => hnot (.inr ha), hnodup⟩
      · rcases List.mem_append.mp ha with ha | ha
        · exact hfresh a ha
        · rw [List.mem_singleton.mp ha]
          exact Option.not_isSome_iff_eq_none.mp fun hs => hnot (.inl hs)
      · rw [hsome, hkeys, List.mem_append, List.mem_singleton, or_assoc]
    · rw [createdAssets_snoc, if_neg hk]
      refine ⟨hnodup, hfresh, fun a => ?_⟩
      rw [hsome, hkeys]
      refine or_iff_left_of_imp fun ha => ?_
      rw [← hkeys, ha]
      exact Option.isSome_iff_ne_none.mpr fun hn => hk ((hx.created_iff hd).mpr hn)

theorem countSights_snoc (sights : List Sight) (x : Sight) (sum : Summary) :
    countSights s sum (sights ++ [x]) = x.count s (countSights s sum sights) := by
  simp [countSights]

/-- Every turn counts once, and as created when its asset was. -/
theorem countSights_assets (sights : List Sight) :
    (countSights s {} sights).created + (countSights s {} sights).updated +
        (countSights s {} sights).unchanged = sights.length ∧
      (countSights s {} sights).created = (createdAssets sights).length := by
  induction sights using List.reverseRecOn with
  | nil => exact ⟨rfl, rfl⟩
  | append_singleton l x ih =>
    rw [countSights_snoc, createdAssets_snoc]
    cases hk : x.kind <;> simp [Sight.count, hk, Sighting.count] <;> omega

theorem countSights_relationships (sights : List Sight) :
    (countSights s {} sights).relationshipsCreated = 0 ∧ (countSights s {} sights).relationshipsRemoved = 0 ∧
      (countSights s {} sights).missing = 0 := by
  induction sights using List.reverseRecOn with
  | nil => exact ⟨rfl, rfl, rfl⟩
  | append_singleton l x ih =>
    rw [countSights_snoc]
    cases hk : x.kind <;> simpa [Sight.count, hk, Sighting.count] using ih

def Link.id (s : SnapshotEnvelope) (x : Link) : String :=
  relationshipID s.organizationID x.fromAsset x.toAsset x.observation.type

def newLinks (links : List Link) : List Link := links.filter fun x => !x.existing

omit [Hashes] in
theorem newLinks_snoc (links : List Link) (x : Link) : newLinks (links ++ [x]) =
    if x.existing then newLinks links else newLinks links ++ [x] := by
  unfold newLinks
  cases hx : x.existing <;> simp [hx]

variable {assets : List (String × String)}

theorem linkTurns_created (h : Steps (LinkTurn s now assets) db links db') :
    ((newLinks links).map (Link.id s)).Nodup ∧ (∀ x ∈ newLinks links, db.relationships.get (x.id s) = none) ∧
      ∀ id, (db'.relationships.get id).isSome ↔
        (db.relationships.get id).isSome ∨ id ∈ (newLinks links).map (Link.id s) := by
  induction h with
  | nil => simp [newLinks]
  | @snoc l d x d' hl hx ih =>
    obtain ⟨hnodup, hfresh, hkeys⟩ := ih
    obtain ⟨q, hq, hqkey, -, hq'⟩ := hx.relationship
    have hsome : ∀ id, (d'.relationships.get id).isSome ↔ (d.relationships.get id).isSome ∨ id = q.id := by
      intro id
      rw [hq, Table.get_put]
      by_cases hid : q.id = id
      · simp [hid]
      · simp [hid, Ne.symm hid]
    rw [newLinks_snoc]
    rcases hq' with ⟨old, hold, hkey, hid⟩ | ⟨hnone, hfree, hid⟩
    · have hexisting : x.existing = true := by
        rw [hx.found, findRelationship_isSome]
        exact ⟨old, hold, hkey.trans hqkey⟩
      rw [if_pos hexisting]
      refine ⟨hnodup, hfresh, fun id => ?_⟩
      rw [hsome, hkeys]
      refine or_iff_left_of_imp fun he => ?_
      rw [← hkeys, he, hid, Table.mem_iff_get.mp hold]
      rfl
    · have hexisting : ¬ x.existing = true := by
        rw [hx.found, findRelationship_isSome]
        intro hparts
        obtain ⟨old, hold, hkey⟩ := hparts
        exact hnone old hold (hkey.trans hqkey.symm)
      have hnot : ¬ ((db.relationships.get q.id).isSome ∨ q.id ∈ (newLinks l).map (Link.id s)) := by
        rw [← hkeys, hfree]
        simp
      have hid : x.id s = q.id := hid.symm
      rw [if_neg hexisting, List.map_append, List.map_singleton, hid]
      refine ⟨?_, fun y hy => ?_, fun id => ?_⟩
      · rw [← List.concat_eq_append, List.nodup_concat]
        exact ⟨fun hy => hnot (.inr hy), hnodup⟩
      · rcases List.mem_append.mp hy with hy | hy
        · exact hfresh y hy
        · rw [List.mem_singleton.mp hy, hid]
          exact Option.not_isSome_iff_eq_none.mp fun hs => hnot (.inl hs)
      · rw [hsome, hkeys, List.mem_append, List.mem_singleton, or_assoc]

omit [Hashes] in
theorem countLinks (links : List Link) (sum : Summary) : links.foldl (fun sum x => x.count sum) sum =
      { sum with relationshipsCreated := sum.relationshipsCreated + (newLinks links).length
                 changes := sum.changes + (newLinks links).length } := by
  induction links using List.reverseRecOn with
  | nil => rfl
  | append_singleton l x ih =>
    rw [List.foldl_append, List.foldl_cons, ih, newLinks_snoc]
    cases hx : x.existing <;> simp [Link.count, hx, Nat.add_assoc]

/-- The sources after the relationship loop: those of the snapshot are ACTIVE and
lead to the relationship of their ends, the others are as they were. -/
theorem linkTurns_sources (h : Steps (LinkTurn s now assets) db links db')
    (k : String × String × String × String × String) :
    (∃ x ∈ links, x.sourceKey s = k ∧ ∃ y, db'.relationshipSources.get k = some y ∧
        y.relationshipID = x.id s ∧ y.status = .active ∧ y.consecutiveAbsences = 0) ∨
      ((∀ x ∈ links, x.sourceKey s ≠ k) ∧ db'.relationshipSources.get k = db.relationshipSources.get k) := by
  induction h with
  | nil => exact .inr ⟨by simp, rfl⟩
  | @snoc l d x d' _ hx ih =>
    obtain ⟨y, hy, hkey, hid, hact, habs⟩ := hx.source
    by_cases hk : x.sourceKey s = k
    · refine .inl ⟨x, by simp, hk, y, ?_, hid, hact, habs⟩
      rw [hy, ← hk, show x.sourceKey s = y.key from hkey.symm]
      exact Table.get_put_self _ _
    · have hsame : d'.relationshipSources.get k = d.relationshipSources.get k := by
        rw [hy]
        exact Table.get_put_of_ne _ fun he => hk (hkey.symm.trans he)
      rw [hsame]
      rcases ih with ⟨z, hz, hrest⟩ | ⟨hne, hold⟩
      · exact .inl ⟨z, List.mem_append_left _ hz, hrest⟩
      · refine .inr ⟨fun z hz => ?_, hold⟩
        rcases List.mem_append.mp hz with hz | hz
        · exact hne z hz
        · rwa [List.mem_singleton.mp hz]

theorem linkTurns_observed (h : Steps (LinkTurn s now assets) db links db')
    (y : RelationshipSourceRow) : db'.relationshipObserved s.snapshotID y = true ↔
      db.relationshipObserved s.snapshotID y = true ∨ ∃ x ∈ links,
        x.observation.externalFromID = y.externalFromID ∧ x.observation.externalToID = y.externalToID ∧
        x.observation.type = y.type := by
  induction h with
  | nil => simp
  | @snoc l d x d' _ hx ih =>
    rw [relationshipObserved_iff] at ih ⊢
    simp only [hx.observation, Table.mem_put_fresh hx.fresh, List.mem_append, List.mem_singleton, or_and_right,
      exists_or, exists_eq_left]
    rw [ih, or_comm, or_assoc]
    simp [relationshipObservationRow]

/-- A turn keeps the key of every relationship and makes none of them less than ACTIVE. -/
theorem LinkTurn.relationship_kept {x : Link} (h : LinkTurn s now assets db x db') {id : String} {r : RelationshipRow}
    (hr : db.relationships.get id = some r) :
    ∃ q, db'.relationships.get id = some q ∧ q.key = r.key ∧ (q = r ∨ q.status = .active) := by
  obtain ⟨y, hy, -, hact, hy'⟩ := h.relationship
  rw [hy, Table.get_put]
  split_ifs with hid
  · refine ⟨y, rfl, ?_, .inr hact⟩
    rcases hy' with ⟨old, hold, hkey, hoid⟩ | ⟨-, hfree, -⟩
    · rw [Table.mem_iff_get, ← hoid, hid, hr] at hold
      cases hold
      exact hkey.symm
    · rw [hid, hr] at hfree
      cases hfree
  · exact ⟨r, hr, rfl, .inl rfl⟩

section

variable (h : Steps (LinkTurn s now assets) db links db')
include h

theorem linkTurns_kept {id : String} {r : RelationshipRow} (hr : db.relationships.get id = some r) :
    ∃ q, db'.relationships.get id = some q ∧ q.key = r.key ∧ (q = r ∨ q.status = .active) := by
  induction h with
  | nil => exact ⟨r, hr, rfl, .inl rfl⟩
  | snoc _ hx ih =>
    obtain ⟨q, hq, hkey, hqr⟩ := ih
    obtain ⟨q', hq', hkey', hqq⟩ := hx.relationship_kept hq
    refine ⟨q', hq', hkey'.trans hkey, ?_⟩
    rcases hqq with rfl | hact
    · exact hqr
    · exact .inr hact

theorem linkTurns_new {x : Link}
    (hx : x ∈ newLinks links) : ∃ q, db'.relationships.get (x.id s) = some q ∧ q.key = x.key s := by
  induction h with
  | nil => simp [newLinks] at hx
  | @snoc l d y d' _ hy ih =>
    have hkept : x ∈ newLinks l → ∃ q, d'.relationships.get (x.id s) = some q ∧ q.key = x.key s := by
      intro hxl
      obtain ⟨q, hq, hkey⟩ := ih hxl
      obtain ⟨q', hq', hkey', -⟩ := hy.relationship_kept hq
      exact ⟨q', hq', hkey'.trans hkey⟩
    rw [newLinks_snoc] at hx
    split_ifs at hx with hexisting
    · exact hkept hx
    · rcases List.mem_append.mp hx with hx | hx
      · exact hkept hx
      · rw [List.mem_singleton.mp hx]
        obtain ⟨q, hq, hkey, -, hq'⟩ := hy.relationship
        rcases hq' with ⟨old, hold, hold', -⟩ | ⟨-, -, hid⟩
        · rw [hy.found, findRelationship_isSome] at hexisting
          exact absurd ⟨old, hold, hold'.trans hkey⟩ hexisting
        · refine ⟨q, ?_, hkey⟩
          rw [hq, show y.id s = q.id from hid.symm]
          exact Table.get_put_self _ _

theorem linkTurns_keys (key : String × String × String × String) : (∃ r ∈ db'.relationships, r.key = key) ↔
      (∃ r ∈ db.relationships, r.key = key) ∨ ∃ x ∈ links, x.key s = key := by
  induction h with
  | nil => simp
  | @snoc l d x d' _ hx ih =>
    obtain ⟨q, hq, hkey, -, hq'⟩ := hx.relationship
    have hstep : (∃ r ∈ d'.relationships, r.key = key) ↔ (∃ r ∈ d.relationships, r.key = key) ∨ x.key s = key := by
      rw [hq]
      constructor
      · intro hparts
        obtain ⟨r, hr, hrk⟩ := hparts
        rcases Table.mem_put.mp hr with rfl | ⟨hr, -⟩
        · exact .inr (hkey.symm.trans hrk)
        · exact .inl ⟨r, hr, hrk⟩
      · intro hor
        rcases hor with ⟨r, hr, hrk⟩ | hxk
        · obtain ⟨q', hq', hkey', -⟩ := hx.relationship_kept (Table.mem_iff_get.mp hr)
          rw [hq] at hq'
          exact ⟨q', Table.mem_of_get hq', hkey'.trans hrk⟩
        · exact ⟨q, Table.mem_put.mpr (.inl rfl), hkey.trans hxk⟩
    rw [hstep, ih]
    simp [or_and_right, exists_or, or_assoc]

/-- The relationships created are those of the snapshot that were not there, each once. -/
theorem linkTurns_newKeys : ((newLinks links).map (Link.key s)).Nodup ∧
      ∀ key, key ∈ (newLinks links).map (Link.key s) ↔
        (∃ x ∈ links, x.key s = key) ∧ ¬ ∃ r ∈ db.relationships, r.key = key := by
  induction h with
  | nil => simp [newLinks]
  | @snoc l d x d' hl hx ih =>
    obtain ⟨hnodup, hkeys⟩ := ih
    have hfound : x.existing = true ↔ (∃ r ∈ db.relationships, r.key = x.key s) ∨ ∃ y ∈ l, y.key s = x.key s := by
      rw [hx.found, findRelationship_isSome, linkTurns_keys hl]
    rw [newLinks_snoc]
    split_ifs with hexisting
    · refine ⟨hnodup, fun key => ?_⟩
      rw [hkeys]
      refine and_congr_left fun hnone => ?_
      simp only [List.mem_append, List.mem_singleton, or_and_right, exists_or, exists_eq_left]
      refine (or_iff_left_of_imp fun hxk => ?_).symm
      rw [hfound, hxk] at hexisting
      exact hexisting.resolve_left hnone
    · rw [hfound] at hexisting
      push Not at hexisting
      rw [List.map_append, List.map_singleton]
      refine ⟨?_, fun key => ?_⟩
      · rw [← List.concat_eq_append, List.nodup_concat]
        refine ⟨fun hk => ?_, hnodup⟩
        obtain ⟨⟨y, hy, hyk⟩, -⟩ := (hkeys _).mp hk
        exact hexisting.2 y hy hyk
      · rw [List.mem_append, hkeys]
        simp only [List.mem_append, List.mem_singleton, or_and_right, exists_or, exists_eq_left]
        refine or_congr_right ⟨fun hk => ⟨hk.symm, ?_⟩, fun hk => hk.1.symm⟩
        rw [hk]
        intro hparts
        obtain ⟨r, hr, hrk⟩ := hparts
        exact hexisting.1 r hr hrk

end

end

end Infragraph
