import Infragraph.Proofs.MemoryRegister

/-! The in-memory engine keeps a register of the relationships that the snapshots of
one connector name, whatever the threshold: a relationship is REMOVED by the first
snapshot without it. -/

namespace Infragraph.Memory

def linkKey (s : SnapshotEnvelope) (k : LinkName) : String :=
  scope s ++ ("asset-" ++ safe k.1) ++ "|" ++ ("asset-" ++ safe k.2.1) ++ "|" ++ k.2.2

/-- The relationships are those of the register, between assets of known external IDs. -/
structure FollowsLinks (s : SnapshotEnvelope) (r : Register String) (q : Register LinkName) (st : State) : Prop where
  ends : ∀ k ∈ q.known, k.1 ∈ r.known ∧ k.2.1 ∈ r.known
  link : ∀ k ∈ q.known, st.relationshipStatus (linkKey s k) = q.state 1 .active .removed k
  known : ∀ key ∈ st.relationships.keys, ∃ k ∈ q.known, key = linkKey s k

variable {s : SnapshotEnvelope} {n : ℕ} {r : Register String} {q : Register LinkName} {st : State} {policy : Policy}
  {now : Time}

theorem FollowsLinks.congr {r' : Register String} {st' : State} (h : FollowsLinks s r q st)
    (hknown : r.known ⊆ r'.known) (hsame : st'.relationships = st.relationships) : FollowsLinks s r' q st' where
  ends k hk := ⟨hknown (h.ends k hk).1, hknown (h.ends k hk).2⟩
  link k hk := by
    rw [State.relationshipStatus, hsame]
    exact h.link k hk
  known key hkey := by
    rw [hsame] at hkey
    exact h.known key hkey

theorem linkKey_eq (s : SnapshotEnvelope) (k : LinkName) : linkKey s k =
    scope s ++ ("asset-" ++ safe k.1 ++ "|" ++ ("asset-" ++ safe k.2.1 ++ "|" ++ k.2.2)) := by
  simp only [linkKey, String.append_assoc]

theorem linkKey_ends {k k' : LinkName} (h : linkKey s k = linkKey s k') :
    safe k.1 = safe k'.1 ∧ safe k.2.1 = safe k'.2.1 ∧ k.2.2 = k'.2.2 := by
  rw [linkKey_eq, linkKey_eq] at h
  obtain ⟨hsource, hrest⟩ := bar_inj (bar_not_mem_assetID _) (bar_not_mem_assetID _) ((String.append_right_inj _).mp h)
  obtain ⟨htarget, htype⟩ := bar_inj (bar_not_mem_assetID _) (bar_not_mem_assetID _) hrest
  exact ⟨(String.append_right_inj _).mp hsource, (String.append_right_inj _).mp htarget, htype⟩

section

variable (hsafe : ∀ e ∈ r.known, ∀ e' ∈ r.known, safe e = safe e' → e = e')
include hsafe

theorem linkKey_inj {k k' : LinkName} (hk : k.1 ∈ r.known ∧ k.2.1 ∈ r.known) (hk' : k'.1 ∈ r.known ∧ k'.2.1 ∈ r.known)
    (h : linkKey s k = linkKey s k') : k = k' := by
  obtain ⟨hsource, htarget, htype⟩ := linkKey_ends h
  exact Prod.ext (hsafe _ hk.1 _ hk'.1 hsource) (Prod.ext (hsafe _ hk.2 _ hk'.2 htarget) htype)

theorem FollowsLinks.linkStatus (h : FollowsLinks s r q st) (hfollows : Follows s n r st) (k : LinkName) :
    st.linkStatus s.organizationID s.connectorID k = q.state 1 .active .removed k := by
  have hfind : ∀ e, st.externalToAsset.find (s.organizationID ++ "|" ++ s.connectorID ++ "|" ++ e) =
    if e ∈ r.known then some ("asset-" ++ safe e) else none := hfollows.find
  unfold State.linkStatus
  rw [hfind, hfind]
  by_cases hk : k ∈ q.known
  · rw [if_pos (h.ends k hk).1, if_pos (h.ends k hk).2]
    exact h.link k hk
  · have hnone : q.state 1 RelationshipStatus.active .removed k = none := if_neg hk
    rw [hnone]
    by_cases hsource : k.1 ∈ r.known
    · by_cases htarget : k.2.1 ∈ r.known
      · rw [if_pos hsource, if_pos htarget]
        refine Option.map_eq_none_iff.mpr (Dict.find_eq_none.mpr fun hkey => ?_)
        obtain ⟨k', hk', heq⟩ := h.known _ hkey
        exact hk (linkKey_inj hsafe ⟨hsource, htarget⟩ (h.ends k' hk') heq ▸ hk')
      · rw [if_pos hsource, if_neg htarget]
        rfl
    · rw [if_neg hsource]
      rfl

end

theorem Follows.relationshipKeys (h : Follows s n r st)
    (hends : ∀ x ∈ s.relationships, x.externalFromID ∈ r.known ∧ x.externalToID ∈ r.known) :
    s.relationships.filterMap (relationshipKey s st) = s.relationships.map fun x => linkKey s x.triple := by
  rw [← List.filterMap_eq_map]
  refine List.filterMap_congr fun x hx => ?_
  have hsource := State.assetOf_of_find ((h.find x.externalFromID).trans (if_pos (hends x hx).1))
  have htarget := State.assetOf_of_find ((h.find x.externalToID).trans (if_pos (hends x hx).2))
  unfold relationshipKey
  simp only [hsource, htarget, assetID_ne_empty, or_self, if_false]
  rfl

theorem mem_triples {k : LinkName} : k ∈ s.triples ↔ ∃ x ∈ s.relationships, x.triple = k := by
  unfold SnapshotEnvelope.triples
  rw [List.mem_toFinset, List.mem_map]

theorem observes_relationships (policy : Policy) (s : SnapshotEnvelope) (now : Time) (l : List Observation) (w : Work) :
    (l.foldl (observe policy s now) w).state.relationships = w.state.relationships := by
  induction l generalizing w with
  | nil => rfl
  | cons o l ih =>
    rw [List.foldl_cons, ih, (observe_seen policy s now w o).state]

/-- The relationship loop and the removals are a round of the register. -/
theorem FollowsLinks.removed {seen : List String} {order : Iteration String} {w₁ w₂ w₃ : Work}
    (h : FollowsLinks s r q w₁.state) (hseen : seen = s.relationships.map fun x => linkKey s x.triple)
    (hends : ∀ k ∈ s.triples, k.1 ∈ r.known ∧ k.2.1 ∈ r.known)
    (hsafe : ∀ e ∈ r.known, ∀ e' ∈ r.known, safe e = safe e' → e = e') (hlinked : Linked s seen w₁ w₂)
    (hremoved : Removed s now seen (order.list w₂.state.relationships.keys) w₂ w₃) :
    FollowsLinks s r (q.tick s.triples) w₃.state := by
  have hallEnds : ∀ k ∈ (q.tick s.triples).known, k.1 ∈ r.known ∧ k.2.1 ∈ r.known := by
    intro k hk
    rcases Finset.mem_union.mp hk with hk | hk
    · exact h.ends k hk
    · exact hends k hk
  have hmem : ∀ k ∈ (q.tick s.triples).known, (linkKey s k ∈ seen ↔ k ∈ s.triples) := by
    intro k hk
    rw [hseen, List.mem_map, mem_triples]
    constructor
    · intro hx
      obtain ⟨x, hx, heq⟩ := hx
      have htriple : x.triple ∈ s.triples := mem_triples.mpr ⟨x, hx, rfl⟩
      exact ⟨x, hx, linkKey_inj hsafe (hends _ htriple) (hallEnds k hk) heq⟩
    · intro hx
      obtain ⟨x, hx, rfl⟩ := hx
      exact ⟨x, hx, rfl⟩
  refine ⟨hallEnds, fun k hk => ?_, fun key hkey => ?_⟩
  · unfold State.relationshipStatus Register.state
    rw [if_pos hk, hremoved.relationships]
    by_cases htriple : k ∈ s.triples
    · obtain ⟨x, hx, hactive⟩ := hlinked.active _ ((hmem k hk).mpr htriple)
      have hkeep : ¬ (linkKey s k ∈ order.list w₂.state.relationships.keys ∧ Removable s seen (linkKey s k) x) :=
        fun hr => hr.2.2.1 ((hmem k hk).mpr htriple)
      rw [hx, Option.map_some, Option.map_some, if_neg hkeep, hactive]
      simp [Register.tick, htriple]
    · have hold : k ∈ q.known := (Finset.mem_union.mp hk).resolve_right htriple
      have hunseen := (hmem k hk).not.mpr htriple
      obtain ⟨x, hx, hstatus⟩ := Option.map_eq_some_iff.mp ((h.link k hold).trans (if_pos hold))
      have hlisted : linkKey s k ∈ order.list w₂.state.relationships.keys := by
        refine (order.mem _ _).mpr (Dict.mem_keys.mpr ⟨x, ?_⟩)
        rw [hlinked.others _ hunseen, hx]
      rw [hlinked.others _ hunseen, hx, Option.map_some, Option.map_some]
      have hremovable : Removable s seen (linkKey s k) x ↔ x.status = .active := by
        rw [linkKey_eq]
        exact ⟨fun hr => hr.2.2, fun ha => ⟨hasPrefix_append _ _, linkKey_eq s k ▸ hunseen, ha⟩⟩
      -- active, it is removed now; else it was removed before
      have hgone : (if linkKey s k ∈ order.list w₂.state.relationships.keys ∧ Removable s seen (linkKey s k) x
          then x.gone now else x).status = .removed := by
        by_cases ha : x.status = .active
        · rw [if_pos ⟨hlisted, hremovable.mpr ha⟩]
          rfl
        · rw [if_neg fun hr => ha (hremovable.mp hr.2)]
          cases hs : x.status with
          | active => exact absurd hs ha
          | removed => rfl
      rw [hgone]
      simp [Register.tick, htriple]
  · have hkey₂ : key ∈ w₂.state.relationships.keys := hremoved.keys ▸ hkey
    by_cases hin : key ∈ seen
    · rw [hseen] at hin
      obtain ⟨x, hx, rfl⟩ := List.mem_map.mp hin
      exact ⟨x.triple, Finset.mem_union_right _ (mem_triples.mpr ⟨x, hx, rfl⟩), rfl⟩
    · obtain ⟨x, hx⟩ := Dict.mem_keys.mp hkey₂
      rw [hlinked.others key hin] at hx
      obtain ⟨k, hk, heq⟩ := h.known key (Dict.mem_keys.mpr ⟨x, hx⟩)
      exact ⟨k, Finset.mem_union_left _ hk, heq⟩

theorem FollowsLinks.reconcile (policy : Policy) (now : Time) (order : RangeOrder) (h : FollowsLinks s r q st)
    (hfollows : Follows s n r st) (hn : 1 ≤ n) (hclaims : OwnClaims s.connectorID st)
    (hnodup : (s.assets.map fun o => o.externalID).Nodup)
    (hsafe : ∀ e ∈ r.known ∪ s.observedIDs, ∀ e' ∈ r.known ∪ s.observedIDs, safe e = safe e' → e = e')
    (hends : ∀ k ∈ s.triples, k.1 ∈ s.observedIDs ∧ k.2.1 ∈ s.observedIDs) :
    FollowsLinks s (r.tick s.observedIDs) (q.tick s.triples) (reconcile policy s now order st).state := by
  obtain ⟨hfollows₁, -⟩ := hfollows.observes policy now hn hclaims (fun _ ho => ho) hnodup
    fun e he e' he' => hsafe e he e' (Finset.mem_union_right _ he')
  have hrelationships := observes_relationships policy s now s.assets ⟨st, {}⟩
  rw [reconcile_eq]
  generalize s.assets.foldl (observe policy s now) ⟨st, {}⟩ = w₁ at *
  obtain ⟨w₂, w₃, hlinked, hremoved, habsent⟩ := settle_loops policy s now order w₁
  have hknown : ∀ k ∈ s.triples, k.1 ∈ (r.tick s.observedIDs).known ∧ k.2.1 ∈ (r.tick s.observedIDs).known :=
    fun k hk => ⟨Finset.mem_union_right _ (hends k hk).1, Finset.mem_union_right _ (hends k hk).2⟩
  have h₁ : FollowsLinks s (r.tick s.observedIDs) q w₁.state := h.congr Finset.subset_union_left hrelationships
  have hkeys := hfollows₁.relationshipKeys fun x hx => hknown x.triple (mem_triples.mpr ⟨x, hx, rfl⟩)
  refine (h₁.removed hkeys hknown hsafe hlinked hremoved).congr subset_rfl ?_
  rw [habsent.state]

end Infragraph.Memory
