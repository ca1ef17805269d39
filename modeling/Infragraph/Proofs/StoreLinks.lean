import Infragraph.Proofs.StoreRegister

/-! `ApplyPostgres` keeps a register of the relationships that the snapshots of one
connector name: each has one source, REMOVED once it has been absent for the
threshold, and the relationship with it. -/

namespace Infragraph

open Relational ReadCommitted Prog

theorem mem_links {s : SnapshotEnvelope} {links : List Link} (h : links.map Link.observation = s.relationships)
    {k : LinkName} : k ∈ s.triples ↔ ∃ x ∈ links, x.observation.triple = k := by
  unfold SnapshotEnvelope.triples
  rw [List.mem_toFinset, ← h, List.map_map, List.mem_map]
  rfl

section

variable [Hashes]

def LinkName.key (org connector : String) (k : LinkName) : String × String × String × String :=
  (org, stableID "asset" [org, connector, k.1], stableID "asset" [org, connector, k.2.1], k.2.2)

/-- The sources of relationships are those of the register, all of one connector. -/
structure MirrorsLinks (org connector : String) (n : ℕ) (q : Register LinkName) (db : Db) : Prop where
  owned : ∀ y ∈ db.relationshipSources, y.organizationID = org ∧ y.connectorID = connector
  known : ∀ k : LinkName, (∃ y, db.relationshipSources.get (org, connector, k) = some y) ↔ k ∈ q.known
  absences : ∀ (k : LinkName) y, db.relationshipSources.get (org, connector, k) = some y →
    y.consecutiveAbsences = q.absences k ∧ (y.status = .active ↔ q.absences k < n)
  keys : ∀ x ∈ db.relationships, ∃ k ∈ q.known, x.key = LinkName.key org connector k

variable {db db' : Db} {c : ApplyCall} {sum : Summary} {n : ℕ} {r : Register String} {q : Register LinkName}
  {org connector : String} {t : Trace}

theorem Linked.unobserved (h : Linked db) (hrec : db.Recorded) {id : String} (hid : ∀ x ∈ db.runs, x.snapshotID ≠ id)
    (y : RelationshipSourceRow) : db.relationshipObserved id y = false := by
  rw [Bool.eq_false_iff]
  intro hseen
  obtain ⟨p, hp, hsnapshot, -⟩ := relationshipObserved_iff.mp hseen
  obtain ⟨o, ho, hoid, -⟩ := observed_iff.mp (h.ends p hp).1
  obtain ⟨x, hx, hxid⟩ := hrec o ho
  exact hid x hx (hxid.trans (hoid.trans hsnapshot))

theorem Traced.sources_after (h : Traced c db t sum db')
    (hlinked : Linked db) (hrec : db.Recorded) (k : String × String × String × String × String) :
    db'.relationshipSources.get k = (t.d₂.relationshipSources.get k).map
      (·.swept c.snapshot.organizationID c.snapshot.connectorID
        (fun y => decide ((y.externalFromID, y.externalToID, y.type) ∈ c.snapshot.triples))
        (effectiveThreshold c.missingThreshold)) := by
  have hsame := h.sources_kept.1
  have hobservations : t.e₂.relationshipObservations = t.d₂.relationshipObservations := by
    rw [lossTurns_frame h.drop, h.identities.frame]
  have hold : t.d₁.relationshipObservations = db.relationshipObservations := by rw [turns_relationships h.observe]
  have hobserved : t.e₂.relationshipObserved c.snapshot.snapshotID =
      fun y => decide ((y.externalFromID, y.externalToID, y.type) ∈ c.snapshot.triples) := by
    funext y
    rw [Bool.eq_iff_iff, decide_eq_true_eq]
    have hnone := hlinked.unobserved hrec h.unrun y
    unfold Db.relationshipObserved at hnone ⊢
    rw [← hold] at hnone
    rw [hobservations]
    refine (linkTurns_observed h.relate y).trans ?_
    unfold Db.relationshipObserved
    rw [hnone, mem_links h.relationships]
    simp [RelationshipObservation.triple, Prod.ext_iff]
  have hafter : db'.relationshipSources = t.e₃.relationshipSources := by rw [h.frame, run_removed_frame h.removals]
  rw [hafter, h.sources.get, hsame, hobserved]

/-- After the turns the source of a triple is new exactly when the snapshot names it. -/
theorem Traced.triple_source (h : Traced c db t sum db') (k : LinkName) :
    (k ∈ c.snapshot.triples ∧ ∃ y,
        t.d₂.relationshipSources.get (c.snapshot.organizationID, c.snapshot.connectorID, k) = some y ∧
        y.status = .active ∧ y.consecutiveAbsences = 0) ∨
      (k ∉ c.snapshot.triples ∧ t.d₂.relationshipSources.get (c.snapshot.organizationID, c.snapshot.connectorID, k) =
        db.relationshipSources.get (c.snapshot.organizationID, c.snapshot.connectorID, k)) := by
  rw [mem_links h.relationships, ← h.links_kept.2]
  rcases linkTurns_sources h.relate (c.snapshot.organizationID, c.snapshot.connectorID, k) with
    ⟨x, hx, hkey, y, hy, -, hactive, hzero⟩ | ⟨hne, hget⟩
  · exact .inl ⟨⟨x, hx, congrArg (·.2.2) hkey⟩, y, hy, hactive, hzero⟩
  · refine .inr ⟨?_, hget⟩
    rintro ⟨x, hx, rfl⟩
    exact hne x hx rfl

theorem MirrorsLinks.step (h : MirrorsLinks c.snapshot.organizationID c.snapshot.connectorID n q db)
    (hmirrors : Mirrors c.snapshot.organizationID c.snapshot.connectorID n r db) (hn : 1 ≤ n)
    (hthreshold : c.missingThreshold = n) (hweak : c.snapshot.Weak) (hlinked : Linked db) (hrec : db.Recorded)
    (hends : ∀ k ∈ c.snapshot.triples, k.1 ∈ c.snapshot.observedIDs ∧ k.2.1 ∈ c.snapshot.observedIDs)
    (hc : c.run db = .ok (sum, db')) :
    MirrorsLinks c.snapshot.organizationID c.snapshot.connectorID n (q.tick c.snapshot.triples) db' := by
  obtain ⟨t, htrace⟩ := ApplyCall.traced hc
  have heffective : effectiveThreshold c.missingThreshold = n := by rw [hthreshold, effectiveThreshold_natCast hn]
  have hafter := htrace.sources_after hlinked hrec
  have hrelationships := htrace.links_kept.1
  rw [heffective] at hafter
  refine ⟨fun y hy => ?_, fun k => ?_, fun k y hy => ?_, fun x hx => ?_⟩
  · by_contra hother
    have hold := (OfConnector.mem_iff (ApplyCall.framed hc).relationshipSources y hother).mp hy
    exact hother (h.owned y hold)
  · have hsame : (∃ y, db'.relationshipSources.get (c.snapshot.organizationID, c.snapshot.connectorID, k) = some y) ↔
        ∃ y, t.d₂.relationshipSources.get (c.snapshot.organizationID, c.snapshot.connectorID, k) = some y := by
      rw [hafter]
      simp
    rw [hsame]
    rcases htrace.triple_source k with ⟨hk, y, hy, -⟩ | ⟨hk, hget⟩
    · exact iff_of_true ⟨y, hy⟩ (Finset.mem_union_right _ hk)
    · rw [hget, h.known]
      exact ⟨Finset.mem_union_left _, fun hin => (Finset.mem_union.mp hin).resolve_right hk⟩
  · rw [hafter] at hy
    obtain ⟨z, hz, rfl⟩ := Option.map_eq_some_iff.mp hy
    have hzkey := Table.key_of_get hz
    have hmine : z.organizationID = c.snapshot.organizationID ∧ z.connectorID = c.snapshot.connectorID :=
      ⟨congrArg Prod.fst hzkey, congrArg (·.2.1) hzkey⟩
    have hztriple : (z.externalFromID, z.externalToID, z.type) = k := congrArg (·.2.2) hzkey
    rw [RelationshipSourceRow.swept_absences hmine, RelationshipSourceRow.swept_active hmine, hztriple]
    unfold countAbsence
    rcases htrace.triple_source k with ⟨hk, y, hy, hactive, hzero⟩ | ⟨hk, hget⟩
    · rw [hz] at hy
      cases hy
      simp only [Register.tick, hk, decide_true, if_true, hzero, hactive, true_and, and_self]
    · rw [hget] at hz
      obtain ⟨hold, hactive⟩ := h.absences k z hz
      simp only [Register.tick, hk, decide_false, Bool.false_eq_true, if_false, hold, hactive, true_and]
      omega
  · have hrow := htrace.relationships_after.2 x.id
    rw [Table.mem_iff_get.mp hx] at hrow
    obtain ⟨z, hz, heq⟩ := Option.map_eq_some_iff.mp hrow.symm
    have hkey : x.key = z.key := by rw [← heq, retired_eq]; rfl
    rw [hkey]
    rcases (linkTurns_keys htrace.relate z.key).mp ⟨z, Table.mem_of_get hz, rfl⟩ with ⟨p, hp, hpkey⟩ | ⟨l, hl, hlkey⟩
    · rw [hrelationships] at hp
      obtain ⟨k, hk, hold⟩ := h.keys p hp
      exact ⟨k, Finset.mem_union_left _ hk, hpkey.symm.trans hold⟩
    · have hk : l.observation.triple ∈ c.snapshot.triples := (mem_links htrace.relationships).mpr ⟨l, hl, rfl⟩
      obtain ⟨hsource, htarget⟩ := linkTurns_mem htrace.relate hl
      have hfrom := Option.some.inj ((htrace.lookup hsource).symm.trans (hmirrors.leads_seen hweak (hends _ hk).1))
      have hto := Option.some.inj ((htrace.lookup htarget).symm.trans (hmirrors.leads_seen hweak (hends _ hk).2))
      refine ⟨l.observation.triple, Finset.mem_union_right _ hk, hlkey.symm.trans ?_⟩
      unfold Link.key LinkName.key
      rw [hfrom, hto]
      rfl

section

variable (hmirrors : Mirrors org connector n r db) (hapart : AssetsApart org connector r.known)

include hapart in
theorem LinkName.key_inj {k k' : LinkName} (hk : k.1 ∈ r.known ∧ k.2.1 ∈ r.known)
    (hk' : k'.1 ∈ r.known ∧ k'.2.1 ∈ r.known)
    (h : LinkName.key org connector k = LinkName.key org connector k') : k = k' :=
  Prod.ext (hapart _ hk.1 _ hk'.1 (congrArg (·.2.1) h))
    (Prod.ext (hapart _ hk.2 _ hk'.2 (congrArg (·.2.2.1) h)) (congrArg (·.2.2.2) h))

include hmirrors in
/-- A source has known ends and leads to the relationship of its triple. -/
theorem MirrorsLinks.source (h : MirrorsLinks org connector n q db) (hlinked : Linked db) {y : RelationshipSourceRow}
    (hy : y ∈ db.relationshipSources) : (y.externalFromID ∈ r.known ∧ y.externalToID ∈ r.known) ∧
      ∃ x, db.relationships.get y.relationshipID = some x ∧
        x.key = LinkName.key org connector (y.externalFromID, y.externalToID, y.type) := by
  obtain ⟨i, j, x, hi, hj, hx, hkey⟩ := hlinked.source y hy
  obtain ⟨horg, hconnector⟩ := h.owned y hy
  rw [horg, hconnector] at hi hj
  refine ⟨⟨(hmirrors.known _).mp ⟨i, hi⟩, (hmirrors.known _).mp ⟨j, hj⟩⟩, x, hx, hkey.trans ?_⟩
  unfold LinkName.key
  rw [horg, hmirrors.asset _ i hi, hmirrors.asset _ j hj]

include hmirrors hapart

theorem MirrorsLinks.active_iff (h : MirrorsLinks org connector n q db) (hlinked : Linked db)
    {y : RelationshipSourceRow} (hy : y ∈ db.relationshipSources) :
    db.relationshipActive y.relationshipID = true ↔ y.status = .active := by
  rw [relationshipActive_iff]
  constructor
  · intro hactive
    obtain ⟨z, hz, hid, hstatus⟩ := hactive
    obtain ⟨hends, x, hx, hkey⟩ := h.source hmirrors hlinked hy
    obtain ⟨hends', x', hx', hkey'⟩ := h.source hmirrors hlinked hz
    rw [hid, hx] at hx'
    cases hx'
    -- both sources name one relationship, so they are one
    have htriple := LinkName.key_inj hapart hends hends' (hkey.symm.trans hkey')
    obtain ⟨horg, hconnector⟩ := h.owned y hy
    obtain ⟨horg', hconnector'⟩ := h.owned z hz
    have hsame : z.key = y.key := by
      unfold RelationshipSourceRow.key
      rw [horg, hconnector, horg', hconnector', ← htriple]
    have hget := Table.mem_iff_get.mp hz
    rw [hsame, Table.mem_iff_get.mp hy] at hget
    rw [Option.some.inj hget]
    exact hstatus
  · exact fun hactive => ⟨y, hy, rfl, hactive⟩

theorem MirrorsLinks.linkStatus (h : MirrorsLinks org connector n q db) (hlinked : Linked db) (k : LinkName) :
    db.linkStatus org connector k = q.state n .active .removed k := by
  have hends : ∀ k' ∈ q.known, k'.1 ∈ r.known ∧ k'.2.1 ∈ r.known := by
    intro k' hk'
    obtain ⟨y, hy⟩ := (h.known k').mpr hk'
    have hkey := Table.key_of_get hy
    obtain ⟨hyends, -⟩ := h.source hmirrors hlinked (Table.mem_of_get hy)
    exact (congrArg (·.2.2) hkey : (y.externalFromID, y.externalToID, y.type) = k') ▸ hyends
  unfold Db.linkStatus Register.state
  rw [hmirrors.assetOf, hmirrors.assetOf]
  by_cases hsource : k.1 ∈ r.known
  swap
  · rw [if_neg hsource, if_neg fun hk => hsource (hends k hk).1]
    rfl
  by_cases htarget : k.2.1 ∈ r.known
  swap
  · rw [if_pos hsource, if_neg htarget, if_neg fun hk => htarget (hends k hk).2]
    rfl
  rw [if_pos hsource, if_pos htarget, Option.bind_some, Option.bind_some]
  by_cases hk : k ∈ q.known
  · obtain ⟨y, hy⟩ := (h.known k).mpr hk
    have hytriple : (y.externalFromID, y.externalToID, y.type) = k := congrArg (·.2.2) (Table.key_of_get hy)
    obtain ⟨-, x, hx, hkey⟩ := h.source hmirrors hlinked (Table.mem_of_get hy)
    rw [hytriple] at hkey
    have hfound : ((db.findRelationship (LinkName.key org connector k)).isSome) :=
      findRelationship_isSome.mpr ⟨x, Table.mem_of_get hx, hkey⟩
    obtain ⟨z, hz⟩ := Option.isSome_iff_exists.mp hfound
    have hzmem : z ∈ db.relationships := Table.mem_rows.mp (List.mem_of_find?_eq_some hz)
    have hzkey : z.key = LinkName.key org connector k := by
      simpa using List.find?_some hz
    have hzid : z.id = y.relationshipID := by
      rw [hlinked.id_of_key hzmem hzkey, ← hlinked.id_of_key (Table.mem_of_get hx) hkey]
      exact Table.key_of_get hx
    have hactive : z.status = .active ↔ q.absences k < n := by
      rw [hlinked.status z hzmem, hzid, h.active_iff hmirrors hapart hlinked (Table.mem_of_get hy),
        (h.absences k y hy).2]
    unfold LinkName.key at hz
    rw [hz, if_pos hk, Option.map_some]
    congr 1
    split_ifs with hn
    · cases hs : z.status with
      | active => exact absurd (hactive.mp hs) (not_lt.mpr hn)
      | removed => rfl
    · exact hactive.mpr (not_le.mp hn)
  · rw [if_neg hk, Option.map_eq_none_iff, ← Option.not_isSome_iff_eq_none, findRelationship_isSome]
    intro hx
    obtain ⟨x, hx, hkey⟩ := hx
    obtain ⟨k', hk', hkey'⟩ := h.keys x hx
    exact hk (LinkName.key_inj hapart ⟨hsource, htarget⟩ (hends k' hk') (hkey.symm.trans hkey') ▸ hk')

end

end

end Infragraph
