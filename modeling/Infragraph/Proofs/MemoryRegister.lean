import Infragraph.Spec.Engines
import Infragraph.Proofs.Effective
import Infragraph.Proofs.Counts

/-! The in-memory engine keeps a register of the external IDs of one connector: one
asset for each, MISSING once it has been absent for the threshold. As long as all
claims are the connector's own, none of them conflicts. -/

namespace Infragraph.Memory

/-- The state says of the external IDs what the register says. -/
structure Follows (s : SnapshotEnvelope) (n : ℕ) (r : Register String) (st : State) : Prop where
  externals : ∀ key id, st.externalToAsset.find key = some id ↔
    ∃ e ∈ r.known, key = scope s ++ e ∧ id = "asset-" ++ safe e
  absences : ∀ e ∈ r.known, st.successfulAbsences.find (scope s ++ e) = some (r.absences e)
  status : ∀ e ∈ r.known, st.statusOf ("asset-" ++ safe e) = r.state n .active .missing e

def OwnClaims (connector : String) (st : State) : Prop := ∀ ck, ∀ c ∈ st.claimsAt ck, c.connectorID = connector

theorem assetID_ne_empty (e : String) : "asset-" ++ safe e ≠ "" := by
  intro h
  exact absurd (String.append_eq_empty_iff.mp h).1 (by decide)

variable {s : SnapshotEnvelope} {n : ℕ} {r : Register String} {st st' : State} {policy : Policy} {now : Time}

theorem OwnClaims.edit {connector : String} (h : OwnClaims connector st) (hs : s.connectorID = connector)
    (he : Edit s st st') : OwnClaims connector st' := by
  cases he with
  | claim c _ _ hc => exact forall_claimed h (hc.trans hs) fun _ hold => deactivate_connectorID.trans hold
  | change | discover | asset | absences | relate | relationship => exact h

theorem OwnClaims.edits {connector : String} (h : OwnClaims connector st) (hs : s.connectorID = connector)
    (he : Edits s st st') : OwnClaims connector st' := by
  induction he with
  | refl => exact h
  | tail _ hstep ih => exact ih.edit hs hstep

/-- A claim among older ones of its own connector is the only active one. -/
theorem OwnClaims.conflicts_nil (h : OwnClaims s.connectorID st) (o : Observation) (id : String)
    (entries : List (String × Json)) : conflicts policy s o id st entries = [] := by
  refine List.filter_eq_nil_iff.mpr fun e _ => ?_
  unfold verdict
  rw [effective_conflict]
  intro hconflict
  have honly : ∀ c ∈ relevant (claimed (st.claimsAt (id ++ "|" ++ e.1)) (claimOf policy s o id e)) e.1,
      c = claimOf policy s o id e := by
    intro c hc
    obtain ⟨hmem, hactive⟩ := List.mem_filter.mp hc
    rcases mem_claimed hmem with rfl | ⟨old, hold, rfl⟩
    · rfl
    · exact absurd (h _ old hold) (deactivate_active.mp (of_decide_eq_true hactive).1).2
  obtain ⟨a, ha, b, hb, hne⟩ := hconflict
  rw [honly a ha, honly b hb] at hne
  exact hne rfl

section

variable {o : Observation} {w w' : Work}

section

variable (h : Follows s n r st)
include h

theorem Follows.find (e : String) : st.externalToAsset.find (scope s ++ e) =
    if e ∈ r.known then some ("asset-" ++ safe e) else none := by
  split_ifs with he
  · exact (h.externals _ _).mpr ⟨e, he, rfl, rfl⟩
  · refine Option.eq_none_iff_forall_ne_some.mpr fun id hid => ?_
    obtain ⟨e', he', hkey, -⟩ := (h.externals _ _).mp hid
    exact he ((String.append_right_inj _).mp hkey ▸ he')

theorem Follows.unmapped_iff : Unmapped st s o ↔ o.externalID ∉ r.known := by
  unfold Unmapped State.assetOf
  rw [h.find]
  split_ifs with he
  · exact iff_of_false (assetID_ne_empty _) (not_not_intro he)
  · exact iff_of_true rfl he

theorem Follows.assetIDOf : assetIDOf st s o = "asset-" ++ safe o.externalID := by
  unfold Memory.assetIDOf State.assetOf
  rw [h.find]
  by_cases he : o.externalID ∈ r.known
  · rw [if_pos he, Option.getD_some, if_neg (assetID_ne_empty _)]
  · rw [if_neg he, Option.getD_none, if_pos rfl]

theorem Follows.missing_iff {e : String} (he : e ∈ r.known) :
    (st.assetAt ("asset-" ++ safe e)).status = .missing ↔ n ≤ r.absences e := by
  obtain ⟨a, ha, hstatus⟩ := Option.map_eq_some_iff.mp ((h.status e he).trans (if_pos he))
  unfold State.assetAt
  rw [ha, Option.getD_some, hstatus]
  split_ifs with hn
  · exact iff_of_true rfl hn
  · exact iff_of_false (by simp) hn

end

theorem Follows.seen (h : Follows s n r w.state) (hn : 1 ≤ n) (hclaims : OwnClaims s.connectorID w.state)
    (hsafe : ∀ e ∈ r.known, safe e = safe o.externalID → e = o.externalID) (hseen : Seen policy s now o w w') :
    Follows s n (r.sight {o.externalID}) w'.state := by
  have hexternals := hseen.externals
  have hassets := hseen.assets
  rw [hclaims.conflicts_nil, if_pos rfl, h.assetIDOf] at hassets
  rw [h.assetIDOf] at hexternals
  refine ⟨fun key id => ?_, fun e he => ?_, fun e he => ?_⟩
  · rw [hexternals]
    by_cases hnew : Unmapped w.state s o
    · rw [if_pos hnew, Dict.find_set]
      by_cases hkey : scope s ++ o.externalID = key
      · rw [if_pos hkey]
        constructor
        · intro hid
          exact ⟨o.externalID, Finset.mem_union_right _ (Finset.mem_singleton_self _), hkey.symm,
            (Option.some.inj hid).symm⟩
        · intro hid
          obtain ⟨e, -, hke, rfl⟩ := hid
          rw [(String.append_right_inj _).mp (hkey.trans hke)]
      · rw [if_neg hkey, h.externals]
        constructor
        · intro hid
          obtain ⟨e, he, hid⟩ := hid
          exact ⟨e, Finset.mem_union_left _ he, hid⟩
        · intro hid
          obtain ⟨e, he, hke, hid⟩ := hid
          rcases Finset.mem_union.mp he with he | he
          · exact ⟨e, he, hke, hid⟩
          · rw [Finset.mem_singleton.mp he] at hke
            exact absurd hke.symm hkey
    · rw [if_neg hnew, h.externals]
      have hknown : o.externalID ∈ r.known := by
        by_contra hno
        exact hnew (h.unmapped_iff.mpr hno)
      have hsame : (r.sight {o.externalID}).known = r.known :=
        Finset.union_eq_left.mpr (Finset.singleton_subset_iff.mpr hknown)
      rw [hsame]
  · rw [hseen.absences, Dict.find_set]
    by_cases heq : e = o.externalID
    · subst heq
      simp [Register.sight]
    · have hold : e ∈ r.known := by simpa [Register.sight, heq] using he
      rw [if_neg fun hk => heq ((String.append_right_inj _).mp hk).symm, h.absences e hold]
      simp [Register.sight, heq]
  · unfold State.statusOf Register.state
    rw [if_pos he, hassets, Dict.find_set]
    by_cases heq : e = o.externalID
    · subst heq
      have hactive : (identified s now w.state o).status = .active := by
        unfold identified
        split_ifs <;> rfl
      have hzero : (r.sight {o.externalID}).absences o.externalID = 0 := by simp [Register.sight]
      rw [if_pos rfl, hzero, if_neg (by omega), Option.map_some, hactive]
    · have hold : e ∈ r.known := by simpa [Register.sight, heq] using he
      have hother := h.status e hold
      unfold State.statusOf Register.state at hother
      rw [if_neg fun hid => heq (hsafe e hold ((String.append_right_inj _).mp hid).symm), hother, if_pos hold]
      simp [Register.sight, heq]

theorem Follows.seen_summary (h : Follows s n r w.state) (hclaims : OwnClaims s.connectorID w.state)
    (hseen : Seen policy s now o w w') : w'.summary = { w.summary with
      created := w.summary.created + if o.externalID ∈ r.known then 0 else 1
      updated := w.summary.updated + if o.externalID ∈ r.known ∧ n ≤ r.absences o.externalID then 1 else 0
      unchanged := w.summary.unchanged + if o.externalID ∈ r.known ∧ r.absences o.externalID < n then 1 else 0
      changes := w'.summary.changes } := by
  have hsummary := hseen.summary
  rw [hclaims.conflicts_nil, h.assetIDOf] at hsummary
  rw [hsummary]
  by_cases he : o.externalID ∈ r.known
  · have hold : ¬ Unmapped w.state s o := fun hnew => h.unmapped_iff.mp hnew he
    simp only [hold, he, h.missing_iff he, ne_eq, not_false_eq_true, true_and, if_true, if_false, not_le,
      List.length_nil, add_zero]
  · have hnew : Unmapped w.state s o := h.unmapped_iff.mpr he
    simp [hnew, he]

theorem Follows.observes (policy : Policy) (now : Time) (h : Follows s n r st) (hn : 1 ≤ n)
    (hclaims : OwnClaims s.connectorID st)
    {l : List Observation} (hl : ∀ o ∈ l, o ∈ s.assets) (hnodup : (l.map fun o => o.externalID).Nodup)
    (hsafe : ∀ e ∈ r.known ∪ s.observedIDs, ∀ e' ∈ s.observedIDs, safe e = safe e' → e = e') :
    Follows s n (r.sight (l.map fun o => o.externalID).toFinset) (l.foldl (observe policy s now) ⟨st, {}⟩).state ∧
      (l.foldl (observe policy s now) ⟨st, {}⟩).summary =
        { created := (r.discovered (l.map fun o => o.externalID).toFinset).card
          updated := (r.returned n (l.map fun o => o.externalID).toFinset).card
          unchanged := (r.steady n (l.map fun o => o.externalID).toFinset).card
          changes := (l.foldl (observe policy s now) ⟨st, {}⟩).summary.changes } := by
  induction l using List.reverseRecOn with
  | nil => simp [h, Register.discovered, Register.returned, Register.steady]
  | append_singleton l o ih =>
    have hmem : ∀ x ∈ l, x ∈ s.assets := fun x hx => hl x (List.mem_append_left _ hx)
    rw [List.map_append, List.map_singleton, List.nodup_append_comm, List.singleton_append, List.nodup_cons] at hnodup
    obtain ⟨hfollows, hsummary⟩ := ih hmem hnodup.2
    have hedits := edits_observes (s := s) policy now hmem ⟨st, {}⟩
    rw [List.foldl_concat, List.map_append, List.map_singleton, List.toFinset_append, List.toFinset_cons,
      List.toFinset_nil, insert_empty_eq, Finset.union_comm, ← Finset.insert_eq]
    generalize l.foldl (observe policy s now) ⟨st, {}⟩ = w at *
    have hown : OwnClaims s.connectorID w.state := hclaims.edits rfl hedits
    have hseen := observe_seen policy s now w o
    have hseenIDs : ∀ x ∈ s.assets, x.externalID ∈ s.observedIDs := fun x hx =>
      List.mem_toFinset.mpr (List.mem_map_of_mem hx)
    have ho : o.externalID ∈ s.observedIDs := hseenIDs o (hl o (by simp))
    -- the seen external IDs of the prefix, without the new one
    have hnew : o.externalID ∉ (l.map fun o => o.externalID).toFinset := fun hin => hnodup.1 (List.mem_toFinset.mp hin)
    have hcounts := hfollows.seen_summary hown hseen
    refine ⟨?_, ?_⟩
    · rw [← Register.sight_insert]
      refine hfollows.seen hn hown (fun e he => hsafe e ?_ _ ho) hseen
      rcases Finset.mem_union.mp he with he | he
      · exact Finset.mem_union_left _ he
      · obtain ⟨x, hx, rfl⟩ := List.mem_map.mp (List.mem_toFinset.mp he)
        exact Finset.mem_union_right _ (hseenIDs x (hmem x hx))
    · have hknown : o.externalID ∈ (r.sight (l.map fun o => o.externalID).toFinset).known ↔ o.externalID ∈ r.known :=
        Finset.mem_union.trans (or_iff_left hnew)
      have habsences : (r.sight (l.map fun o => o.externalID).toFinset).absences o.externalID =
          r.absences o.externalID := if_neg hnew
      rw [hcounts, hsummary]
      simp only [hknown, habsences, Register.card_discovered_insert hnew, Register.card_returned_insert hnew,
        Register.card_steady_insert hnew]

end

theorem Follows.congr (h : Follows s n r st) (hexternals : st'.externalToAsset = st.externalToAsset)
    (hassets : st'.assets = st.assets) (habsences : st'.successfulAbsences = st.successfulAbsences) :
    Follows s n r st' where
  externals key id := by rw [hexternals, h.externals]
  absences e he := by rw [habsences, h.absences e he]
  status e he := by rw [State.statusOf, hassets, ← State.statusOf, h.status e he]

section

variable {keys : List String}

theorem mem_observed {e : String} : scope s ++ e ∈ s.assets.map (fun o => scope s ++ o.externalID) ↔
    e ∈ s.observedIDs := by
  unfold SnapshotEnvelope.observedIDs
  rw [List.mem_map, List.mem_toFinset, List.mem_map]
  exact exists_congr fun o => and_congr_right fun _ => String.append_right_inj _

theorem counted_iff {e : String} :
    Counted s (s.assets.map fun o => scope s ++ o.externalID) (scope s ++ e) ↔ e ∉ s.observedIDs := by
  unfold Counted
  rw [mem_observed]
  exact and_iff_right (hasPrefix_append _ _)

theorem Follows.mem_keys (h : Follows s n r st) {key : String} :
    key ∈ st.externalToAsset.keys ↔ ∃ e ∈ r.known, key = scope s ++ e := by
  rw [Dict.mem_keys]
  constructor
  · intro hkey
    obtain ⟨id, hid⟩ := hkey
    obtain ⟨e, he, hke, -⟩ := (h.externals _ _).mp hid
    exact ⟨e, he, hke⟩
  · intro hkey
    obtain ⟨e, he, hke⟩ := hkey
    exact ⟨_, (h.externals _ _).mpr ⟨e, he, hke, rfl⟩⟩

theorem Follows.nextAbsences (h : Follows s n (r.sight s.observedIDs) st) {e : String}
    (he : e ∈ (r.sight s.observedIDs).known) (hseen : e ∉ s.observedIDs) :
    st.nextAbsences (scope s ++ e) = r.absences e + 1 := by
  have hzero : (r.sight s.observedIDs).absences e = r.absences e := if_neg hseen
  unfold State.nextAbsences
  rw [h.absences e he, hzero, Option.getD_some]

theorem Follows.present_iff (h : Follows s n r st) {e : String} (he : e ∈ r.known) :
    (st.assetAt ("asset-" ++ safe e)).Present ↔ r.absences e < n := by
  have hmissing := h.missing_iff he
  obtain ⟨a, ha, hstatus⟩ := Option.map_eq_some_iff.mp ((h.status e he).trans (if_pos he))
  unfold Asset.Present
  rw [ne_eq, hmissing, not_le]
  refine and_iff_left ?_
  unfold State.assetAt
  rw [ha, Option.getD_some, hstatus]
  split_ifs <;> simp

section

variable (h : Follows s n (r.sight s.observedIDs) st) (hthreshold : policy.threshold = n)
include h hthreshold

theorem Follows.lostAssets_eq (hkeys : ∀ key, key ∈ keys ↔ key ∈ st.externalToAsset.keys) :
    lostAssets policy s (s.assets.map fun o => scope s ++ o.externalID) st keys =
      (r.lost n s.observedIDs).image fun e => "asset-" ++ safe e := by
  ext id
  rw [mem_lostAssets, Finset.mem_image]
  constructor
  · intro hlost
    obtain ⟨⟨key, hkey, ⟨hcounted, hdue⟩, hid⟩, hpresent⟩ := hlost
    obtain ⟨e, he, rfl⟩ := h.mem_keys.mp ((hkeys key).mp hkey)
    have hseen := counted_iff.mp hcounted
    rw [State.assetOf_of_find ((h.find e).trans (if_pos he))] at hid
    subst hid
    rw [h.present_iff he] at hpresent
    rw [hthreshold, h.nextAbsences he hseen] at hdue
    have hzero : (r.sight s.observedIDs).absences e = r.absences e := if_neg hseen
    refine ⟨e, Finset.mem_filter.mpr ⟨?_, hseen, hzero ▸ hpresent, by exact_mod_cast hdue⟩, rfl⟩
    exact (Finset.mem_union.mp he).resolve_right hseen
  · intro hlost
    obtain ⟨e, he, rfl⟩ := hlost
    obtain ⟨hknown, hseen, hbelow, hdue⟩ := Finset.mem_filter.mp he
    have hsight : e ∈ (r.sight s.observedIDs).known := Finset.mem_union_left _ hknown
    have hzero : (r.sight s.observedIDs).absences e = r.absences e := if_neg hseen
    refine ⟨⟨scope s ++ e, (hkeys _).mpr (h.mem_keys.mpr ⟨e, hsight, rfl⟩), ⟨counted_iff.mpr hseen, ?_⟩,
      State.assetOf_of_find ((h.find e).trans (if_pos hsight))⟩, (h.present_iff hsight).mpr (hzero.symm ▸ hbelow)⟩
    rw [hthreshold, h.nextAbsences hsight hseen]
    exact_mod_cast hdue

theorem Follows.absent
    (hsafe : ∀ e ∈ r.known ∪ s.observedIDs, ∀ e' ∈ r.known ∪ s.observedIDs, safe e = safe e' → e = e')
    (hkeys : ∀ key, key ∈ keys ↔ key ∈ st.externalToAsset.keys) {sum : Summary} {w : Work}
    (habsent : Absent policy s now (s.assets.map fun o => scope s ++ o.externalID) keys ⟨st, sum⟩ w) :
    Follows s n (r.tick s.observedIDs) w.state ∧ w.summary.missing = sum.missing + (r.lost n s.observedIDs).card := by
  have hlost := h.lostAssets_eq hthreshold hkeys
  have hexternals : w.state.externalToAsset = st.externalToAsset := by rw [habsent.state]
  refine ⟨⟨fun key id => ?_, fun e he => ?_, fun e he => ?_⟩, ?_⟩
  · rw [hexternals]
    exact h.externals key id
  · have hmem : scope s ++ e ∈ keys := (hkeys _).mpr (h.mem_keys.mpr ⟨e, he, rfl⟩)
    rw [habsent.absences]
    by_cases hseen : e ∈ s.observedIDs
    · rw [if_neg fun hc => counted_iff.mp hc.2 hseen]
      refine (h.absences e he).trans ?_
      simp [Register.sight, Register.tick, hseen]
    · rw [if_pos ⟨hmem, counted_iff.mpr hseen⟩]
      refine (congrArg some (h.nextAbsences he hseen)).trans ?_
      simp [Register.tick, hseen]
  · have hin : "asset-" ++ safe e ∈ lostAssets policy s (s.assets.map fun o => scope s ++ o.externalID) st keys ↔
        e ∈ r.lost n s.observedIDs := by
      rw [hlost, Finset.mem_image]
      constructor
      · intro himage
        obtain ⟨e', he', hid⟩ := himage
        have hknown := Finset.mem_union_left s.observedIDs (Finset.mem_filter.mp he').1
        exact hsafe e he e' hknown ((String.append_right_inj _).mp hid).symm ▸ he'
      · exact fun hmem => ⟨e, hmem, rfl⟩
    have hsight : e ∈ (r.sight s.observedIDs).known := he
    have hold := h.status e he
    unfold State.statusOf Register.state at hold ⊢
    rw [if_pos hsight] at hold
    rw [if_pos he, habsent.assets]
    by_cases hmem : e ∈ r.lost n s.observedIDs
    · obtain ⟨-, hseen, -, hdue⟩ := Finset.mem_filter.mp hmem
      rw [if_pos (hin.mpr hmem)]
      simp [Asset.lost, Register.tick, hseen, hdue]
    · rw [if_neg (hin.not.mpr hmem)]
      refine hold.trans ?_
      by_cases hseen : e ∈ s.observedIDs
      · simp [Register.sight, Register.tick, hseen]
      · have hknown : e ∈ r.known := (Finset.mem_union.mp he).resolve_right hseen
        have hsame : n ≤ r.absences e ↔ n ≤ r.absences e + 1 := by
          constructor
          · omega
          · intro hdue
            by_contra hbelow
            exact hmem (Finset.mem_filter.mpr ⟨hknown, hseen, by omega, hdue⟩)
        simp [Register.sight, Register.tick, hseen, hsame]
  · rw [habsent.missing, hlost, Finset.card_image_of_injOn]
    intro e he e' he' hid
    exact hsafe e (Finset.mem_union_left _ (Finset.mem_filter.mp he).1) e'
      (Finset.mem_union_left _ (Finset.mem_filter.mp he').1) ((String.append_right_inj _).mp hid)

end

/-- Reconciling a snapshot is a round of the register, and its summary is that of the round. -/
theorem Follows.reconcile (policy : Policy) (now : Time) (order : RangeOrder) (h : Follows s n r st) (hn : 1 ≤ n)
    (hthreshold : policy.missingAfterSuccessfulRuns = n) (hclaims : OwnClaims s.connectorID st)
    (hnodup : (s.assets.map fun o => o.externalID).Nodup)
    (hsafe : ∀ e ∈ r.known ∪ s.observedIDs, ∀ e' ∈ r.known ∪ s.observedIDs, safe e = safe e' → e = e') :
    Follows s n (r.tick s.observedIDs) (reconcile policy s now order st).state ∧
      RoundSummary r n s.observedIDs (reconcile policy s now order st).summary := by
  have hpolicy : policy.threshold = n := by
    unfold Policy.threshold
    rw [hthreshold, if_neg (by omega)]
  obtain ⟨hfollows, hsummary⟩ := h.observes policy now hn hclaims (fun _ ho => ho) hnodup
    fun e he e' he' => hsafe e he e' (Finset.mem_union_right _ he')
  rw [reconcile_eq]
  generalize s.assets.foldl (observe policy s now) ⟨st, {}⟩ = w₁ at *
  obtain ⟨w₂, w₃, hlinked, hremoved, habsent⟩ := settle_loops policy s now order w₁
  have hfollows₃ : Follows s n (r.sight s.observedIDs) w₃.state := by
    refine hfollows.congr ?_ ?_ ?_ <;> rw [hremoved.state, hlinked.state]
  obtain ⟨htick, hmissing⟩ := hfollows₃.absent hpolicy hsafe (fun key => order.externals.mem _ key) habsent
  refine ⟨htick, ?_⟩
  rw [hremoved.summary, hlinked.summary, hsummary] at hmissing
  have hcounts := habsent.summary
  rw [hremoved.summary, hlinked.summary, hsummary] at hcounts
  refine ⟨?_, ?_, ?_, ?_, ?_⟩
  · rw [hcounts]; rfl
  · rw [hcounts]; rfl
  · rw [hcounts]; rfl
  · rw [hmissing, Nat.zero_add]
  · rw [hcounts]

end

end Infragraph.Memory
