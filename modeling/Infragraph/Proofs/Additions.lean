import Infragraph.Proofs.Changes

/-! Which relationship changes of a call are recorded. A relationship that a call
creates has its own change row exactly when no other one created by the call
starts at the same asset; one that a call removes never has. -/

namespace Infragraph

open Relational ReadCommitted Prog

variable {x : Link} {y : RelationshipSourceRow}

section

/-- The snapshot contains the relationship of the source. -/
def ApplyCall.Names (c : ApplyCall) (y : RelationshipSourceRow) : Prop :=
  ∃ r ∈ c.snapshot.relationships,
    y.key = (c.snapshot.organizationID, c.snapshot.connectorID, r.externalFromID, r.externalToID, r.type)

/-- The source of the connector reaches the threshold by being absent from the snapshot. -/
def ApplyCall.Lapses (c : ApplyCall) (db : Db) (y : RelationshipSourceRow) : Prop :=
  (y.organizationID = c.snapshot.organizationID ∧ y.connectorID = c.snapshot.connectorID) ∧ ¬ c.Names y ∧
    effectiveThreshold c.missingThreshold ≤
      countAbsence (db.relationshipObserved c.snapshot.snapshotID y) y.consecutiveAbsences

/-- The relationships that were ACTIVE before and are REMOVED after. -/
def Db.removedBy (db db' : Db) : List RelationshipRow :=
  db.relationships.rows.filter fun r =>
    r.status = .active && (db'.relationships.get r.id).any (·.status = .removed)

/-- Every relationship created or removed between the two has a change row of its
own among those written, and there are no others. -/
structure Db.RelationshipsLogged (db db' : Db) : Prop where
  created : ∀ r ∈ db.relationships.newRows db'.relationships, ∃ x ∈ db.changes.newRows db'.changes,
    x.changeType = "RELATIONSHIP_ADDED" ∧ x.assetID = r.fromAssetID ∧
      x.afterValue = .obj [("relationshipId", .str r.id), ("toAssetId", .str r.toAssetID), ("type", .str r.type)]
  removed : ∀ r ∈ db.removedBy db', ∃ x ∈ db.changes.newRows db'.changes,
    x.changeType = "RELATIONSHIP_REMOVED" ∧ x.assetID = r.fromAssetID
  count : ((db.changes.newRows db'.changes).filter fun x =>
      x.changeType = "RELATIONSHIP_ADDED" || x.changeType = "RELATIONSHIP_REMOVED").length =
    (db.relationships.newRows db'.relationships).length + (db.removedBy db').length

variable [Hashes]

/-- The asset an external ID leads to once the snapshot is recorded. -/
def ApplyCall.leads (c : ApplyCall) (db : Db) (e : String) : Option String :=
  ((db.bindings c.snapshot).after c.snapshot c.snapshot.assets).identity e

def ApplyCall.relationshipKey (c : ApplyCall) (db : Db) (r : RelationshipObservation) :
    String × String × String × String :=
  (c.snapshot.organizationID, (c.leads db r.externalFromID).getD "", (c.leads db r.externalToID).getD "", r.type)

def ApplyCall.relationshipID (c : ApplyCall) (db : Db) (r : RelationshipObservation) : String :=
  Infragraph.relationshipID (c.relationshipKey db r).1 (c.relationshipKey db r).2.1 (c.relationshipKey db r).2.2.1
    (c.relationshipKey db r).2.2.2

/-- An ACTIVE relationship loses its last ACTIVE source. -/
structure ApplyCall.Removes (c : ApplyCall) (db : Db) (r : RelationshipRow) : Prop where
  active : r.status = .active
  own : r.organizationID = c.snapshot.organizationID
  lapses : ∃ y ∈ db.relationshipSources, y.relationshipID = r.id ∧ y.status = .active ∧ c.Lapses db y
  last : ∀ y ∈ db.relationshipSources, y.relationshipID = r.id → y.status = .active → c.Names y ∨ c.Lapses db y
  unnamed : ∀ x ∈ c.snapshot.relationships, c.relationshipID db x ≠ r.id

/-- The relationships the snapshot adds start at different assets, and no change
row stands in their way. -/
structure ApplyCall.AddsApart (c : ApplyCall) (db : Db) : Prop where
  apart : ∀ r ∈ c.snapshot.relationships, ∀ r' ∈ c.snapshot.relationships,
    db.findRelationship (c.relationshipKey db r) = none → db.findRelationship (c.relationshipKey db r') = none →
    (c.relationshipKey db r).2.1 = (c.relationshipKey db r').2.1 → c.relationshipKey db r = c.relationshipKey db r'
  unlogged : ∀ r ∈ c.snapshot.relationships, db.findRelationship (c.relationshipKey db r) = none →
    ∀ x ∈ db.changes, x.slot ≠ (c.snapshot.organizationID,
      "|".intercalate [c.snapshot.snapshotID, (c.relationshipKey db r).2.1, "RELATIONSHIP_ADDED"])

variable {db db' : Db} {c : ApplyCall} {sum : Summary} {s : SnapshotEnvelope} {now : Time}
  {sights : List Sight} {links : List Link} {t : Trace}

theorem turns_leads (h : Steps (Turn s now) db sights db') {x : Sight} (hx : x ∈ sights) :
    (db'.bindings s).identity x.observation.externalID = some x.asset := by
  induction h with
  | nil => simp at hx
  | @snoc l d y d' _ hy ih =>
    rcases List.mem_append.mp hx with hx | hx
    · obtain ⟨i, hi, hia⟩ := Option.map_eq_some_iff.mp (ih hx)
      obtain ⟨j, hj, hji⟩ := hy.kept.identity _ i hi
      exact Option.map_eq_some_iff.mpr ⟨j, hj, hji.trans hia⟩
    · rw [List.mem_singleton.mp hx, hy.bindings.2, hy.bindings.1]
      exact if_pos rfl

theorem leads_of_lookup (h : Steps (Turn c.snapshot now) db sights db')
    (hall : sights.map Sight.observation = c.snapshot.assets) {e a : String}
    (he : (sights.map fun x => (x.observation.externalID, x.asset)).reverse.lookup e = some a) :
    c.leads db e = some a := by
  have hmem := List.mem_of_lookup he
  rw [List.mem_reverse, List.mem_map] at hmem
  obtain ⟨x, hx, heq⟩ := hmem
  cases heq
  rw [← turns_leads h hx, turns_bindings h, hall]
  rfl

theorem linkTurns_mem {assets : List (String × String)} (h : Steps (LinkTurn s now assets) db links db')
    (hx : x ∈ links) : assets.lookup x.observation.externalFromID = some x.fromAsset ∧
      assets.lookup x.observation.externalToID = some x.toAsset := by
  obtain ⟨_, d, d', _, -, hturn, -⟩ := h.at_mem hx
  exact ⟨hturn.source_end, hturn.target_end⟩

theorem addedRow_slots :
    ((links.map fun x => addedRow s (x.row s now)).map ChangeRow.slot).Nodup ↔ (links.map Link.fromAsset).Nodup := by
  have heq : (links.map fun x => addedRow s (x.row s now)).map ChangeRow.slot =
      (links.map Link.fromAsset).map fun a =>
        (s.organizationID, "|".intercalate [s.snapshotID, a, "RELATIONSHIP_ADDED"]) := by
    rw [List.map_map, List.map_map]
    rfl
  rw [heq]
  refine List.nodup_map_iff fun a b hab => ?_
  exact (logical_inj (by decide) (by decide) (congrArg Prod.snd hab)).1

section

variable (h : Traced c db t sum db')
include h

theorem Traced.leads (e : String) : c.leads db e = (t.d₁.bindings c.snapshot).identity e := by
  rw [turns_bindings h.observe, h.assets]
  rfl

theorem Traced.lookup {e a : String}
    (he : (t.sights.map fun x => (x.observation.externalID, x.asset)).reverse.lookup e = some a) :
    c.leads db e = some a :=
  leads_of_lookup h.observe h.assets he

theorem Traced.link_key (hx : x ∈ t.links) : c.relationshipKey db x.observation = x.key c.snapshot := by
  obtain ⟨hfrom, hto⟩ := linkTurns_mem h.relate hx
  rw [ApplyCall.relationshipKey, h.lookup hfrom, h.lookup hto]
  rfl

theorem Traced.link_id (hx : x ∈ t.links) : c.relationshipID db x.observation = x.id c.snapshot := by
  rw [ApplyCall.relationshipID, h.link_key hx]
  rfl

theorem Traced.names_iff (y : RelationshipSourceRow) : c.Names y ↔ ∃ x ∈ t.links, x.sourceKey c.snapshot = y.key := by
  unfold ApplyCall.Names
  rw [← h.relationships]
  simp only [List.mem_map, exists_exists_and_eq_and]
  exact exists_congr fun x => and_congr_right fun _ => eq_comm

/-- A source the snapshot does not contain is swept by what was stored before. -/
theorem Traced.unnamed_swept (hy : ¬ c.Names y) :
    (y.swept c.snapshot.organizationID c.snapshot.connectorID (t.d₂.relationshipObserved c.snapshot.snapshotID)
      (effectiveThreshold c.missingThreshold)).status = .active ↔ y.status = .active ∧ ¬ c.Lapses db y := by
  by_cases hmine : y.organizationID = c.snapshot.organizationID ∧ y.connectorID = c.snapshot.connectorID
  · have hobserved : t.d₂.relationshipObserved c.snapshot.snapshotID y =
        db.relationshipObserved c.snapshot.snapshotID y := by
      have hd₁ : t.d₁.relationshipObserved c.snapshot.snapshotID y =
          db.relationshipObserved c.snapshot.snapshotID y := by
        rw [turns_relationships h.observe]
        rfl
      rw [Bool.eq_iff_iff, linkTurns_observed h.relate, hd₁]
      refine or_iff_left fun hnamed => hy ((h.names_iff y).mpr ?_)
      obtain ⟨x, hx, hf, ht, htype⟩ := hnamed
      refine ⟨x, hx, ?_⟩
      rw [Link.sourceKey, hf, ht, htype, ← hmine.1, ← hmine.2]
      rfl
    rw [RelationshipSourceRow.swept_active hmine, hobserved]
    refine and_congr_right fun _ => ?_
    rw [← not_le]
    exact not_congr ⟨fun hle => ⟨hmine, hy, hle⟩, fun hl => hl.2.2⟩
  · rw [RelationshipSourceRow.swept_of_ne hmine]
    exact ⟨fun hact => ⟨hact, fun hl => hmine hl.1⟩, And.left⟩

theorem Traced.mem_sources (hy : y ∈ t.d₂.relationshipSources) :
    (∃ x ∈ t.links, x.sourceKey c.snapshot = y.key ∧ y.relationshipID = x.id c.snapshot ∧ y.status = .active ∧
        y.consecutiveAbsences = 0) ∨ (¬ c.Names y ∧ y ∈ db.relationshipSources) := by
  have hsources := h.links_kept.2
  rcases linkTurns_sources h.relate y.key with ⟨x, hx, hkey, z, hz, hid, hact, habs⟩ | ⟨hne, hsame⟩
  · rw [Table.mem_iff_get.mp hy] at hz
    cases hz
    exact .inl ⟨x, hx, hkey, hid, hact, habs⟩
  · refine .inr ⟨fun hn => ?_, ?_⟩
    · obtain ⟨x, hx, hkey⟩ := (h.names_iff y).mp hn
      exact hne x hx hkey
    · rw [Table.mem_iff_get, ← hsources, ← hsame]
      exact Table.mem_iff_get.mp hy

theorem Traced.unnamed_source (hy : y ∈ db.relationshipSources) (hn : ¬ c.Names y) : y ∈ t.d₂.relationshipSources := by
  have hsources := h.links_kept.2
  rcases linkTurns_sources h.relate y.key with ⟨x, hx, hkey, -⟩ | ⟨-, hsame⟩
  · exact absurd ((h.names_iff y).mpr ⟨x, hx, hkey⟩) hn
  · rw [Table.mem_iff_get, hsame, hsources]
    exact Table.mem_iff_get.mp hy

theorem Traced.mem_removed (id : String) : id ∈ c.order.removed t.removed ↔
      ∃ y ∈ db.relationshipSources, y.relationshipID = id ∧ y.status = .active ∧ c.Lapses db y := by
  obtain ⟨hframe, hobserved⟩ := h.sources_kept
  rw [(c.order.removed_perm t.removed).mem_iff, h.sources.removed, hframe, hobserved]
  constructor
  · intro hparts
    obtain ⟨y, hy, hact, hid, hswept⟩ := hparts
    rcases h.mem_sources hy with ⟨x, hx, hkey, -, -, habs⟩ | ⟨hn, hdb⟩
    · exact absurd (h.named_swept hx hkey hact habs) hswept
    · refine ⟨y, hdb, hid, hact, ?_⟩
      by_contra hl
      exact hswept ((h.unnamed_swept hn).mpr ⟨hact, hl⟩)
  · intro hparts
    obtain ⟨y, hy, hid, hact, hl⟩ := hparts
    exact ⟨y, h.unnamed_source hy hl.2.1, hact, hid, fun hs => ((h.unnamed_swept hl.2.1).mp hs).2 hl⟩

theorem Traced.active_after (id : String) : t.e₃.relationshipActive id = true ↔ (∃ x ∈ t.links, x.id c.snapshot = id) ∨
      ∃ y ∈ db.relationshipSources, y.relationshipID = id ∧ y.status = .active ∧ ¬ c.Names y ∧ ¬ c.Lapses db y := by
  obtain ⟨hframe, hobserved⟩ := h.sources_kept
  have hmem : ∀ z, z ∈ t.e₃.relationshipSources ↔ ∃ y ∈ t.d₂.relationshipSources,
      y.swept c.snapshot.organizationID c.snapshot.connectorID (t.d₂.relationshipObserved c.snapshot.snapshotID)
        (effectiveThreshold c.missingThreshold) = z := fun z => by
    rw [h.sources.mem, hframe, hobserved]
  rw [relationshipActive_iff]
  constructor
  · intro hparts
    obtain ⟨z, hz, hid, hact⟩ := hparts
    obtain ⟨y, hy, rfl⟩ := (hmem z).mp hz
    rw [RelationshipSourceRow.swept_relationshipID] at hid
    rcases h.mem_sources hy with ⟨x, hx, -, hxid, -⟩ | ⟨hn, hdb⟩
    · exact .inl ⟨x, hx, hxid.symm.trans hid⟩
    · obtain ⟨hyact, hl⟩ := (h.unnamed_swept hn).mp hact
      exact .inr ⟨y, hdb, hid, hyact, hn, hl⟩
  · intro hor
    rcases hor with ⟨x, hx, rfl⟩ | ⟨y, hy, hid, hact, hn, hl⟩
    · rcases linkTurns_sources h.relate (x.sourceKey c.snapshot) with ⟨x', hx', hkey, y, hy, hid, hact, habs⟩ | ⟨hne, -⟩
      · have hykey : x'.sourceKey c.snapshot = y.key := hkey.trans (Table.key_of_get hy).symm
        refine ⟨_, (hmem _).mpr ⟨y, Table.mem_of_get hy, rfl⟩, ?_, h.named_swept hx' hykey hact habs⟩
        -- the same ends lead to the same relationship
        obtain ⟨hfrom, hto⟩ := linkTurns_mem h.relate hx
        obtain ⟨hfrom', hto'⟩ := linkTurns_mem h.relate hx'
        have hf : x'.observation.externalFromID = x.observation.externalFromID := congrArg (·.2.2.1) hkey
        have ht : x'.observation.externalToID = x.observation.externalToID := congrArg (·.2.2.2.1) hkey
        have htype : x'.observation.type = x.observation.type := congrArg (·.2.2.2.2) hkey
        rw [hf, hfrom] at hfrom'
        rw [ht, hto] at hto'
        rw [RelationshipSourceRow.swept_relationshipID, hid, Link.id, Link.id, htype, Option.some.inj hfrom',
          Option.some.inj hto']
      · exact absurd rfl (hne x hx)
    · exact ⟨_, (hmem _).mpr ⟨y, h.unnamed_source hy hn, rfl⟩, by rwa [RelationshipSourceRow.swept_relationshipID],
        (h.unnamed_swept hn).mpr ⟨hact, hl⟩⟩

theorem Traced.mem_removedBy
    {r : RelationshipRow} (hr : r ∈ db.relationships) : r ∈ db.removedBy db' ↔ c.Removes db r := by
  have hrel₁ := h.links_kept.1
  obtain ⟨q, hq, hkey, hqr⟩ := linkTurns_kept h.relate (by rw [hrel₁]; exact Table.mem_iff_get.mp hr)
  have hqid : q.id = r.id := Table.key_of_get hq
  have horg : q.organizationID = r.organizationID := congrArg Prod.fst hkey
  have hmem : r ∈ db.removedBy db' ↔ r.status = .active ∧ (r.id ∈ c.order.removed t.removed ∧
      r.organizationID = c.snapshot.organizationID) ∧ t.e₃.relationshipActive r.id = false := by
    rw [Db.removedBy, List.mem_filter, Bool.and_eq_true, decide_eq_true_eq, h.relationships_after.2, hq]
    refine (and_iff_right (Table.mem_rows.mpr hr)).trans (and_congr_right fun hact => ?_)
    have hqact : q.status = .active := hqr.elim (fun he => he ▸ hact) id
    rw [Option.map_some, RelationshipRow.retired, hqid, horg, hqact]
    by_cases hret : (r.id ∈ c.order.removed t.removed ∧ r.organizationID = c.snapshot.organizationID) ∧
        t.e₃.relationshipActive r.id = false
    · simp [hret]
    · have hret' : ¬ ((r.id ∈ c.order.removed t.removed ∧ r.organizationID = c.snapshot.organizationID ∧
          RelationshipStatus.active = .active) ∧ t.e₃.relationshipActive r.id = false) :=
        fun hc => hret ⟨⟨hc.1.1, hc.1.2.1⟩, hc.2⟩
      rw [if_neg hret']
      exact iff_of_false (by simp [hqact]) hret
  rw [hmem, h.mem_removed, ← Bool.not_eq_true, h.active_after]
  constructor
  · intro hparts
    obtain ⟨hact, ⟨hlapses, hown⟩, hoff⟩ := hparts
    push Not at hoff
    refine ⟨hact, hown, hlapses, fun y hy hid hyact => ?_, fun x hx hid => ?_⟩
    · by_cases hn : c.Names y
      · exact .inl hn
      · exact .inr (hoff.2 y hy hid hyact hn)
    · rw [← h.relationships] at hx
      obtain ⟨z, hz, rfl⟩ := List.mem_map.mp hx
      exact hoff.1 z hz ((h.link_id hz).symm.trans hid)
  · intro hrem
    refine ⟨hrem.active, ⟨hrem.lapses, hrem.own⟩, fun hor => ?_⟩
    rcases hor with ⟨x, hx, hid⟩ | ⟨y, hy, hid, hact, hn, hl⟩
    · refine hrem.unnamed x.observation ?_ ((h.link_id hx).trans hid)
      rw [← h.relationships]
      exact List.mem_map_of_mem hx
    · exact (hrem.last y hy hid hact).elim hn hl

theorem Traced.created_iff {k : String × String × String × String} :
    (∃ x ∈ newLinks t.links, x.key c.snapshot = k) ↔
      ∃ r ∈ c.snapshot.relationships, c.relationshipKey db r = k ∧
        db.findRelationship (c.relationshipKey db r) = none := by
  have hkeys := (linkTurns_newKeys h.relate).2 k
  rw [List.mem_map, h.links_kept.1, ← findRelationship_isSome, Option.not_isSome_iff_eq_none] at hkeys
  rw [hkeys]
  constructor
  · rintro ⟨⟨x, hx, rfl⟩, hnone⟩
    refine ⟨x.observation, h.relationships ▸ List.mem_map_of_mem hx, h.link_key hx, ?_⟩
    rwa [h.link_key hx]
  · rintro ⟨r, hr, rfl, hnone⟩
    rw [← h.relationships] at hr
    obtain ⟨x, hx, rfl⟩ := List.mem_map.mp hr
    exact ⟨⟨x, hx, (h.link_key hx).symm⟩, hnone⟩

/-- The created relationships start at different assets exactly when the snapshot's do. -/
theorem Traced.newLinks_apart : ((newLinks t.links).map Link.fromAsset).Nodup ↔
      ∀ r ∈ c.snapshot.relationships, ∀ r' ∈ c.snapshot.relationships,
        db.findRelationship (c.relationshipKey db r) = none → db.findRelationship (c.relationshipKey db r') = none →
        (c.relationshipKey db r).2.1 = (c.relationshipKey db r').2.1 →
        c.relationshipKey db r = c.relationshipKey db r' := by
  have hnodup := (linkTurns_newKeys h.relate).1
  have hfrom : ∀ x : Link, x.fromAsset = (x.key c.snapshot).2.1 := fun x => rfl
  rw [List.nodup_map_iff_inj_on (List.Nodup.of_map _ hnodup)]
  constructor
  · intro hinj r hr r' hr' hnone hnone' heq
    obtain ⟨z, hz, hzk⟩ := h.created_iff.mpr ⟨r, hr, rfl, hnone⟩
    obtain ⟨z', hz', hzk'⟩ := h.created_iff.mpr ⟨r', hr', rfl, hnone'⟩
    rw [← hzk, ← hzk', hinj z hz z' hz' (by rw [hfrom, hfrom, hzk, hzk', heq])]
  · intro hall x hx x' hx' heq
    obtain ⟨r, hr, hkey, hnone⟩ := h.created_iff.mp ⟨x, hx, rfl⟩
    obtain ⟨r', hr', hkey', hnone'⟩ := h.created_iff.mp ⟨x', hx', rfl⟩
    refine List.inj_on_of_nodup_map hnodup hx hx' ?_
    rw [← hkey, ← hkey']
    exact hall r hr r' hr' hnone hnone' (by rw [hkey, hkey', ← hfrom, ← hfrom, heq])

theorem Traced.added_iff :
    ((db.changes.newRows db'.changes).filter fun x => x.changeType = "RELATIONSHIP_ADDED").length =
      (newLinks t.links).length ↔ c.AddsApart db := by
  have hlog := h.logged.newRows_filter_eq_iff (p := fun r => r.changeType = "RELATIONSHIP_ADDED")
    fun r hr r' hr' hs hp => by
      rw [← hp, ((attempts_of hr).slot_inj (attempts_of hr') hs).2]
  rw [attempts_filter_added, List.length_map] at hlog
  rw [hlog, addedRow_slots, h.newLinks_apart]
  constructor
  · intro hparts
    obtain ⟨hapart, hfree⟩ := hparts
    refine ⟨hapart, fun r hr hnone x hx => ?_⟩
    obtain ⟨z, hz, hzk⟩ := h.created_iff.mpr ⟨r, hr, rfl, hnone⟩
    rw [← hzk]
    exact hfree _ (List.mem_map_of_mem hz) x hx
  · intro hadds
    refine ⟨hadds.apart, fun r hr x hx => ?_⟩
    obtain ⟨z, hz, rfl⟩ := List.mem_map.mp hr
    obtain ⟨r, hr, hkey, hnone⟩ := h.created_iff.mp ⟨z, hz, rfl⟩
    have hfree := hadds.unlogged r hr hnone x hx
    rw [hkey] at hfree
    exact hfree

theorem Traced.newRow_link {r : RelationshipRow} (hr : r ∈ db.relationships.newRows db'.relationships) :
    ∃ x ∈ newLinks t.links, r.id = x.id c.snapshot ∧ r.key = x.key c.snapshot := by
  obtain ⟨hmem, hnone⟩ := Table.mem_newRows.mp hr
  obtain ⟨-, -, hkeys⟩ := linkTurns_created h.relate
  have hrel₁ := h.links_kept.1
  have hget := h.relationships_after.2 r.id
  rw [Table.mem_iff_get.mp hmem] at hget
  obtain ⟨q, hq, hqr⟩ := Option.map_eq_some_iff.mp hget.symm
  have hid := (hkeys r.id).mp (by rw [hq]; rfl)
  rw [hrel₁, hnone] at hid
  obtain ⟨x, hx, hxid⟩ := List.mem_map.mp (hid.resolve_left (by simp))
  obtain ⟨q', hq', hkey⟩ := linkTurns_new h.relate hx
  rw [hxid, hq] at hq'
  cases hq'
  refine ⟨x, hx, hxid.symm, ?_⟩
  rw [← hqr, retired_eq]
  exact hkey

end

/-- For every database and every successful call, the relationships it creates and
removes are all recorded exactly when it removes none and the ones it creates start
at different assets, with no change row standing in their way. -/
theorem relationships_logged_iff (hc : c.run db = .ok (sum, db')) :
    db.RelationshipsLogged db' ↔ (∀ r ∈ db.relationships, ¬ c.Removes db r) ∧ c.AddsApart db := by
  obtain ⟨t, h⟩ := ApplyCall.traced hc
  have hsub := h.logged.newRows_sublist
  -- no call attempts RELATIONSHIP_REMOVED
  have htypes : ∀ x ∈ db.changes.newRows db'.changes, x.changeType ≠ "RELATIONSHIP_REMOVED" := by
    intro x hx htype
    have hmem := (attempts_of (hsub.subset hx)).type
    rw [htype] at hmem
    simp [changeTypes] at hmem
  have hfilter : ((db.changes.newRows db'.changes).filter fun x =>
      x.changeType = "RELATIONSHIP_ADDED" || x.changeType = "RELATIONSHIP_REMOVED") =
      (db.changes.newRows db'.changes).filter fun x => x.changeType = "RELATIONSHIP_ADDED" := by
    refine List.filter_congr fun x hx => ?_
    simp [htypes x hx]
  have hremoved : db.removedBy db' = [] ↔ ∀ r ∈ db.relationships, ¬ c.Removes db r := by
    rw [List.eq_nil_iff_forall_not_mem]
    constructor
    · exact fun hnil r hr hrem => hnil r ((h.mem_removedBy hr).mpr hrem)
    · intro hnone r hr
      have hmem : r ∈ db.relationships := (List.mem_filter.mp hr).1
      exact hnone r hmem ((h.mem_removedBy hmem).mp hr)
  constructor
  · intro hlogged
    have hnil : db.removedBy db' = [] := by
      rw [List.eq_nil_iff_forall_not_mem]
      intro r hr
      obtain ⟨x, hx, htype, -⟩ := hlogged.removed r hr
      exact htypes x hx htype
    refine ⟨hremoved.mp hnil, h.added_iff.mp ?_⟩
    have hcount := hlogged.count
    rwa [hfilter, hnil, List.length_nil, h.relationships_created] at hcount
  · intro hparts
    obtain ⟨hnone, hadds⟩ := hparts
    have hnil := hremoved.mpr hnone
    have hlen := h.added_iff.mpr hadds
    refine ⟨fun r hr => ?_, fun r hr => by rw [hnil] at hr; simp at hr, ?_⟩
    · obtain ⟨x, hx, hid, hkey⟩ := h.newRow_link hr
      have hlist : ((db.changes.newRows db'.changes).filter fun x => x.changeType = "RELATIONSHIP_ADDED") =
          (newLinks t.links).map fun x =>
            addedRow c.snapshot (x.row c.snapshot (orNow c.snapshot.completedAt c.clock)) := by
        rw [← attempts_filter_added t.sights t.links t.losses]
        refine (hsub.filter _).eq_of_length ?_
        rw [hlen, attempts_filter_added, List.length_map]
      have hrow := List.mem_map_of_mem
        (f := fun x : Link => addedRow c.snapshot (x.row c.snapshot (orNow c.snapshot.completedAt c.clock))) hx
      rw [← hlist] at hrow
      refine ⟨_, (List.mem_filter.mp hrow).1, rfl, (congrArg (·.2.1) hkey).symm, ?_⟩
      have hto : x.toAsset = r.toAssetID := (congrArg (·.2.2.1) hkey).symm
      have htype : x.observation.type = r.type := (congrArg (·.2.2.2) hkey).symm
      rw [hid, ← hto, ← htype]
      rfl
    · rw [hfilter, hnil, List.length_nil, Nat.add_zero, h.relationships_created, hlen]

end

theorem relationships_logged_first : ∃ sum db', @ApplyCall.run toy firstCall emptyDb = .ok (sum, db') ∧
    emptyDb.RelationshipsLogged db' := by
  have hok : succeeds firstCall emptyDb (fun _ => true) = true := by decide +kernel
  obtain ⟨sum, db', hrun, -⟩ := run_of_succeeds hok
  refine ⟨sum, db', hrun, (@relationships_logged_iff toy _ _ _ _ hrun).mpr ⟨fun r hr => ?_,
    @ApplyCall.AddsApart.mk toy _ _ ?_ ?_⟩⟩
  · exact absurd hr (Table.not_mem_empty r)
  · intro r hr r' hr' _ _ _
    rw [List.mem_singleton.mp hr, List.mem_singleton.mp hr']
  · exact fun r _ _ x hx => absurd hx (Table.not_mem_empty x)

def twoLinksCall : ApplyCall :=
  callOf (snapshotOf "first" "one" [appSeen "app" "production", databaseSeen]
    [usesDatabase, { usesDatabase with type := "READS_FROM" }])

def Db.relationshipChanges (db db' : Db) : ℕ :=
  ((db.changes.newRows db'.changes).filter fun x =>
    x.changeType = "RELATIONSHIP_ADDED" || x.changeType = "RELATIONSHIP_REMOVED").length

/-- Two relationships created and one row; one relationship removed and no row. -/
theorem relationship_changes_lost :
    (∃ sum db', @ApplyCall.run toy twoLinksCall emptyDb = .ok (sum, db') ∧ ¬ emptyDb.RelationshipsLogged db' ∧
      (emptyDb.relationships.newRows db'.relationships).length = 2 ∧ emptyDb.relationshipChanges db' = 1) ∧
    ∃ sum db', @ApplyCall.run toy emptyCall (replayed [firstCall]) = .ok (sum, db') ∧
      ¬ (replayed [firstCall]).RelationshipsLogged db' ∧
      ((replayed [firstCall]).removedBy db').length = 1 ∧ (replayed [firstCall]).relationshipChanges db' = 0 := by
  constructor
  · have hok : succeeds twoLinksCall emptyDb (fun out =>
        decide ((emptyDb.relationships.newRows out.2.relationships).length = 2 ∧
          emptyDb.relationshipChanges out.2 = 1)) = true := by decide +kernel
    obtain ⟨sum, db', hrun, hout⟩ := run_of_succeeds hok
    obtain ⟨hcreated, hrows⟩ := of_decide_eq_true hout
    refine ⟨sum, db', hrun, fun hl => ?_, hcreated, hrows⟩
    have hcount := hl.count.symm.trans hrows
    rw [hcreated] at hcount
    omega
  · have hok : succeeds emptyCall (replayed [firstCall]) (fun out =>
        decide (((replayed [firstCall]).removedBy out.2).length = 1 ∧
          (replayed [firstCall]).relationshipChanges out.2 = 0)) = true := by decide +kernel
    obtain ⟨sum, db', hrun, hout⟩ := run_of_succeeds hok
    obtain ⟨hremoved, hrows⟩ := of_decide_eq_true hout
    refine ⟨sum, db', hrun, fun hl => ?_, hremoved, hrows⟩
    have hcount := hl.count.symm.trans hrows
    rw [hremoved] at hcount
    omega

end Infragraph
