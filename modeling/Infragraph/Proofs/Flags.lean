import Infragraph.Proofs.Counts

/-! The status CONFLICTING in the in-memory engine. An observation resets its asset
to ACTIVE and then looks at its own attributes only, so the status agrees with the
stored claims as long as no observation leaves out an attribute on which they conflict. -/

namespace Infragraph.Memory

def State.Conflicts (st : State) (policy : Policy) (id key : String) : Prop :=
  (effective (st.claimsAt (id ++ "|" ++ key)) key policy).conflict = true

/-- The status of every asset that is neither MISSING nor RETIRED agrees with its claims. -/
def State.Flagged (st : State) (policy : Policy) : Prop :=
  ∀ id a, st.assets.find id = some a → a.status ≠ .missing → a.status ≠ .retired →
    (a.status = .conflicting ↔ ∃ key, st.Conflicts policy id key)

/-- An observation that leaves out an attribute on which its asset's claims conflict
has another one that conflicts. -/
def Carries (policy : Policy) (s : SnapshotEnvelope) (st : State) (o : Observation) : Prop :=
  ∀ key, st.Conflicts policy (assetIDOf st s o) key → key ∉ o.attributes.entries.map Prod.fst →
    conflicts policy s o (assetIDOf st s o) st o.attributes.entries ≠ []

/-- Every observation of the call does, in the state in which it is processed. -/
def Call.Carries (c : Call) (st : State) : Prop :=
  st.processedSnapshots.find c.snapshot.snapshotID = none → ∀ pre o post, c.snapshot.assets = pre ++ o :: post →
    Memory.Carries c.policy c.snapshot
      (pre.foldl (observe c.policy c.snapshot (orNow c.snapshot.completedAt c.clock)) ⟨st, {}⟩).state o

/-- Asset IDs have no bar, and external IDs are mapped to assets. -/
structure Plain (st : State) : Prop where
  assets : ∀ id ∈ st.assets.keys, '|' ∉ id.toList
  externals : ∀ key id, st.externalToAsset.find key = some id → id ∈ st.assets.keys

section

variable {policy : Policy} {s : SnapshotEnvelope} {now : Time} {w : Work} {o : Observation}

theorem Plain.assetIDOf {st : State} (h : Plain st) : '|' ∉ (assetIDOf st s o).toList := by
  unfold Memory.assetIDOf
  split_ifs with hnew
  · exact bar_not_mem_assetID _
  · exact h.assets _ (h.externals _ _ (State.find_of_assetOf hnew))

theorem Plain.observe (h : Plain w.state) : Plain (observe policy s now w o).state := by
  have hseen := observe_seen policy s now w o
  refine ⟨fun id hid => ?_, fun key id hkey => ?_⟩
  · rw [hseen.assets, Dict.mem_keys_set] at hid
    rcases hid with rfl | hid
    · exact h.assetIDOf
    · exact h.assets id hid
  · rw [hseen.assets, Dict.mem_keys_set]
    rw [hseen.externals] at hkey
    split_ifs at hkey with hnew
    · rw [Dict.find_set] at hkey
      split_ifs at hkey
      · cases hkey
        exact .inl rfl
      · exact .inr (h.externals key id hkey)
    · exact .inr (h.externals key id hkey)

theorem find_claimsAfter_other {id ck : String} {st : State} {entries : List (String × Json)}
    (h : ∀ e ∈ entries, id ++ "|" ++ e.1 ≠ ck) (m : Dict String (List AttributeClaim)) :
    (claimsAfter policy s o id st m entries).find ck = m.find ck := by
  unfold claimsAfter
  induction entries generalizing m with
  | nil => rfl
  | cons e entries ih =>
    rw [List.foldl_cons, ih fun e' he' => h e' (.tail _ he')]
    exact Dict.find_set_of_ne _ _ (h e (.head _))

theorem find_claimsAfter_mem {id : String} {st : State} {entries : List (String × Json)}
    (hnodup : (entries.map Prod.fst).Nodup) {e : String × Json} (he : e ∈ entries)
    (m : Dict String (List AttributeClaim)) : (claimsAfter policy s o id st m entries).find (id ++ "|" ++ e.1) =
      some (claimed (st.claimsAt (id ++ "|" ++ e.1)) (claimOf policy s o id e)) := by
  induction entries generalizing m with
  | nil => exact absurd he List.not_mem_nil
  | cons x entries ih =>
    rw [List.map_cons, List.nodup_cons] at hnodup
    have hcons : claimsAfter policy s o id st m (x :: entries) = claimsAfter policy s o id st
        (m.set (id ++ "|" ++ x.1) (claimed (st.claimsAt (id ++ "|" ++ x.1)) (claimOf policy s o id x))) entries := rfl
    rw [hcons]
    rcases List.mem_cons.mp he with rfl | he
    · rw [find_claimsAfter_other, Dict.find_set_self]
      intro e' he' heq
      apply hnodup.1
      have hkey : e'.1 = e.1 := by
        simpa [String.toList_append] using heq
      exact hkey ▸ List.mem_map_of_mem he'
    · exact ih hnodup.2 he _

theorem conflicts_reported {e : String × Json} (he : e ∈ o.attributes.entries) :
    (observe policy s now w o).state.Conflicts policy (assetIDOf w.state s o) e.1 ↔
      (verdict policy s o (assetIDOf w.state s o) w.state e).conflict = true := by
  unfold State.Conflicts verdict
  rw [State.claimsAt, (observe_seen policy s now w o).claims, find_claimsAfter_mem o.attributes.nodup he]
  rfl

theorem conflicts_other {id key : String} (hid : '|' ∉ id.toList) (hplain : Plain w.state)
    (h : id = assetIDOf w.state s o → key ∉ o.attributes.entries.map Prod.fst) :
    (observe policy s now w o).state.Conflicts policy id key ↔ w.state.Conflicts policy id key := by
  unfold State.Conflicts
  rw [State.claimsAt, (observe_seen policy s now w o).claims, find_claimsAfter_other]
  · rfl
  · intro e he heq
    obtain ⟨hid', hkey⟩ := bar_inj hplain.assetIDOf hid heq
    exact h hid'.symm (hkey ▸ List.mem_map_of_mem he)

theorem flagged_observe (hplain : Plain w.state) (hflagged : w.state.Flagged policy)
    (hcarries : Carries policy s w.state o) : (observe policy s now w o).state.Flagged policy := by
  intro id a ha hmissing hretired
  have hseen := observe_seen policy s now w o
  have hid : '|' ∉ id.toList := (Plain.observe hplain).assets id (Dict.mem_keys.mpr ⟨a, ha⟩)
  rw [hseen.assets, Dict.find_set] at ha
  split_ifs at ha with hown hnone
  · -- no attribute of the observation conflicts, so by the condition none at all does
    subst hown
    cases ha
    have hstatus : (identified s now w.state o).status = .active := by
      unfold identified
      split_ifs <;> rfl
    rw [hstatus]
    refine iff_of_false (by decide) fun hconflict => ?_
    obtain ⟨key, hkey⟩ := hconflict
    by_cases hin : key ∈ o.attributes.entries.map Prod.fst
    · obtain ⟨e, he, rfl⟩ := List.mem_map.mp hin
      have hconflict := (conflicts_reported he).mp hkey
      exact absurd hnone (List.ne_nil_of_mem (List.mem_filter.mpr ⟨he, hconflict⟩))
    · exact hcarries key ((conflicts_other hid hplain fun _ => hin).mp hkey) hin hnone
  · subst hown
    cases ha
    refine iff_of_true rfl ?_
    obtain ⟨e, he⟩ := List.exists_mem_of_ne_nil _ hnone
    obtain ⟨he, hconflict⟩ := List.mem_filter.mp he
    exact ⟨e.1, (conflicts_reported he).mpr hconflict⟩
  · rw [hflagged id a ha hmissing hretired]
    exact exists_congr fun key => (conflicts_other hid hplain fun h => absurd h.symm hown).symm

theorem flagged_observes {l : List Observation} (hplain : Plain w.state) (hflagged : w.state.Flagged policy)
    (hcarries : ∀ pre o post, l = pre ++ o :: post →
      Carries policy s (pre.foldl (observe policy s now) w).state o) :
    Plain (l.foldl (observe policy s now) w).state ∧ (l.foldl (observe policy s now) w).state.Flagged policy := by
  induction l generalizing w with
  | nil => exact ⟨hplain, hflagged⟩
  | cons o l ih =>
    refine ih hplain.observe (flagged_observe hplain hflagged (hcarries [] o l rfl)) ?_
    intro pre o' post hsplit
    exact hcarries (o :: pre) o' post (by rw [hsplit]; rfl)

/-- The other loops change no claim, and no status except to MISSING. -/
theorem flagged_settle (s : SnapshotEnvelope) (now : Time) (order : RangeOrder) (hplain : Plain w.state)
    (hflagged : w.state.Flagged policy) :
    Plain (settle policy s now order w).state ∧ (settle policy s now order w).state.Flagged policy := by
  obtain ⟨w₂, w₃, hlinked, hremoved, habsent⟩ := settle_loops policy s now order w
  generalize settle policy s now order w = w₄ at *
  have hassets₃ : w₃.state.assets = w.state.assets := by rw [hremoved.state, hlinked.state]
  have hexternals : w₄.state.externalToAsset = w.state.externalToAsset := by
    rw [habsent.state, hremoved.state, hlinked.state]
  have hclaims : w₄.state.claims = w.state.claims := by rw [habsent.state, hremoved.state, hlinked.state]
  have hlost : ∀ id ∈ lostAssets policy s (s.assets.map fun o => scope s ++ o.externalID) w₃.state
      (order.externals.list w₃.state.externalToAsset.keys), id ∈ w.state.assets.keys := by
    intro id hid
    obtain ⟨⟨key, hkey, -, rfl⟩, -⟩ := mem_lostAssets.mp hid
    obtain ⟨id', hid'⟩ := Dict.mem_keys.mp ((order.externals.mem _ _).mp hkey)
    rw [State.assetOf_of_find hid']
    refine hplain.externals key id' ?_
    rwa [← show w₃.state.externalToAsset = w.state.externalToAsset by rw [hremoved.state, hlinked.state]]
  have hkeys : ∀ id, id ∈ w₄.state.assets.keys ↔ id ∈ w.state.assets.keys := by
    intro id
    rw [Dict.mem_keys, Dict.mem_keys, habsent.assets, hassets₃]
    split_ifs with hid
    · exact iff_of_true ⟨_, rfl⟩ (Dict.mem_keys.mp (hlost id hid))
    · rfl
  refine ⟨⟨fun id hid => hplain.assets id ((hkeys id).mp hid), fun key id hkey => ?_⟩,
    fun id a ha hmissing hretired => ?_⟩
  · rw [hexternals] at hkey
    exact (hkeys id).mpr (hplain.externals key id hkey)
  · rw [habsent.assets, hassets₃] at ha
    split_ifs at ha with hid
    · cases ha
      exact absurd rfl hmissing
    · have hsame : ∀ key, w₄.state.Conflicts policy id key ↔ w.state.Conflicts policy id key := by
        intro key
        unfold State.Conflicts
        rw [claimsAt_of_claims hclaims]
      rw [hflagged id a ha hmissing hretired]
      exact exists_congr fun key => (hsame key).symm

end

/-- In every state that such calls reach, the status agrees with the claims. -/
theorem reachable_flagged {policy : Policy} {calls : List Call} (hpolicy : ∀ c ∈ calls, c.policy = policy)
    (hstatus : ∀ c ∈ calls, c.status = .succeeded)
    (hcarries : ∀ before c after, calls = before ++ c :: after → c.Carries (run before)) :
    (run calls).Flagged policy := by
  suffices h : Plain (run calls) ∧ (run calls).Flagged policy from h.2
  induction calls using List.reverseRecOn with
  | nil =>
    refine ⟨⟨fun id hid => ?_, fun key id hkey => ?_⟩, fun id a ha => ?_⟩
    · simp [run, newState] at hid
    · simp [run, newState, Dict.find] at hkey
    · simp [run, newState, Dict.find] at ha
  | append_singleton calls c ih =>
    have hbegins := ih (fun c' hc' => hpolicy c' (List.mem_append_left _ hc'))
      (fun c' hc' => hstatus c' (List.mem_append_left _ hc'))
      fun before c' after hsplit => hcarries before c' (after ++ [c]) (by rw [hsplit]; simp)
    have hc := hcarries calls c [] rfl
    have hcpolicy := hpolicy c (List.mem_append_right _ (.head _))
    rw [run_append]
    cases hprocessed : (run calls).processedSnapshots.find c.snapshot.snapshotID with
    | some hash =>
      rw [Call.after_of_processed hprocessed]
      exact hbegins
    | none =>
      rw [Call.after_of_succeeded hprocessed (hstatus c (List.mem_append_right _ (.head _)))]
      unfold Call.reconciled
      have hsplits := hc hprocessed
      rw [hcpolicy] at hsplits ⊢
      have hobserved := flagged_observes (w := ⟨run calls, {}⟩) hbegins.1 hbegins.2 hsplits
      have hsettled := flagged_settle c.snapshot (orNow c.snapshot.completedAt c.clock) c.order hobserved.1 hobserved.2
      exact ⟨⟨hsettled.1.assets, hsettled.1.externals⟩, hsettled.2⟩

def cmdbCall : Call :=
  ⟨snapshotOf "cmdb-1" "cmdb" [cmdbSeen] [], .succeeded, noPolicy, .ascending, 0⟩

def ownerCall : Call :=
  ⟨snapshotOf "docker-2" "docker" [seenFirst [("owner", .str "team")] (by decide) 6000] [], .succeeded, noPolicy,
    .ascending, 0⟩

theorem split_singleton {α : Type} {x y : α} {before after : List α} (h : [x] = before ++ y :: after) :
    before = [] ∧ y = x ∧ after = [] := by
  cases before with
  | nil =>
    obtain ⟨rfl, rfl⟩ := List.cons.inj h
    exact ⟨rfl, rfl, rfl⟩
  | cons z before =>
    have hlength := congrArg List.length h
    simp at hlength

/-- Without stored claims there is nothing to leave out. -/
theorem carries_of_no_conflict {c : Call} {st : State} {o : Observation} (hassets : c.snapshot.assets = [o])
    (h : ∀ key, ¬ st.Conflicts c.policy (assetIDOf st c.snapshot o) key) : c.Carries st := by
  intro _ pre o' post hsplit
  obtain ⟨rfl, rfl, rfl⟩ := split_singleton (hassets.symm.trans hsplit)
  exact fun key hkey => absurd hkey (h key)

/-- Two connectors disagree, and the second carries both attributes. -/
theorem reachable_flagged_disagreement : (run [cmdbCall, dockerCall]).Flagged noPolicy ∧
    ((run [cmdbCall, dockerCall]).assets.find "asset-app").map Asset.status = some .conflicting := by
  have hfirst : ∀ id key, ¬ newState.Conflicts noPolicy id key := by
    intro id key
    simp [State.Conflicts, State.claimsAt, newState, Dict.find, effective, activeClaims]
  have hcmdb : cmdbCall.Carries newState := carries_of_no_conflict rfl fun key => hfirst _ key
  have hflagged : (run [cmdbCall]).Flagged noPolicy := by
    refine reachable_flagged (by simp [cmdbCall]) (by simp [cmdbCall]) fun before c after hsplit => ?_
    obtain ⟨rfl, rfl, rfl⟩ := split_singleton hsplit
    exact hcmdb
  have hactive : ((run [cmdbCall]).assets.find "asset-app").map Asset.status = some .active := by decide +kernel
  obtain ⟨a, ha, hstatus⟩ := Option.map_eq_some_iff.mp hactive
  have hnone : ∀ key, ¬ (run [cmdbCall]).Conflicts noPolicy "asset-app" key := by
    intro key hkey
    have hconflicting := (hflagged _ a ha (by simp [hstatus]) (by simp [hstatus])).mpr ⟨key, hkey⟩
    simp [hstatus] at hconflicting
  have hid : assetIDOf (run [cmdbCall]) dockerSnapshot dockerSeen = "asset-app" := by decide +kernel
  refine ⟨reachable_flagged (by simp [cmdbCall, dockerCall]) (by simp [cmdbCall, dockerCall]) ?_, by decide +kernel⟩
  intro before c after hsplit
  cases before with
  | nil =>
    obtain ⟨rfl, -⟩ := List.cons.inj hsplit
    exact hcmdb
  | cons c' before =>
    obtain ⟨rfl, hrest⟩ := List.cons.inj hsplit
    obtain ⟨rfl, rfl, rfl⟩ := split_singleton hrest
    exact carries_of_no_conflict (o := dockerSeen) rfl fun key hkey => hnone key (hid ▸ hkey)

/-- The claims still conflict, and the status is ACTIVE. -/
theorem left_out_conflict_unflagged :
    (∀ c ∈ [cmdbCall, dockerCall, ownerCall], c.status = .succeeded ∧ c.policy = noPolicy) ∧
      ((run [cmdbCall, dockerCall, ownerCall]).assets.find "asset-app").map Asset.status = some .active ∧
      (run [cmdbCall, dockerCall, ownerCall]).Conflicts noPolicy "asset-app" "name" := by
  refine ⟨by simp [cmdbCall, dockerCall, ownerCall], by decide +kernel, ?_⟩
  unfold State.Conflicts
  decide +kernel

end Infragraph.Memory
