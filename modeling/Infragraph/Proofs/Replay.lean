import Infragraph.Proofs.Counts

/-! Retries and failed snapshots leave no trace in the in-memory engine. A call
whose snapshot ID was processed before, or whose snapshot did not succeed, changes
nothing but the set of processed IDs, which the loops never read; and a counter of
absences is read off the snapshots that remain. -/

namespace Infragraph.Memory

def Work.marked (p : Dict String String) (w : Work) : Work :=
  { w with state := { w.state with processedSnapshots := p } }

section

variable {policy : Policy} {s : SnapshotEnvelope} {now : Time} (p : Dict String String)

theorem claimAttribute_marked (o : Observation) (id : String) (w : Work) (e : String × Json) :
    claimAttribute policy s o id (w.marked p) e = (claimAttribute policy s o id w e).marked p := by
  have hclaims : (w.marked p).state.claimsAt = w.state.claimsAt := rfl
  unfold claimAttribute
  simp only [addChange_eq, hclaims]
  split_ifs <;> rfl

theorem identify_marked (w : Work) (o : Observation) :
    identify s now (w.marked p) o = (identify s now w o).marked p := by
  have hasset : (w.marked p).state.assetOf = w.state.assetOf := rfl
  have hassets : (w.marked p).state.assets = w.state.assets := rfl
  unfold identify discover
  simp only [touch_eq, addChange_eq, hasset, hassets]
  split_ifs <;> rfl

theorem relate_marked (w : Work) (r : RelationshipObservation) :
    relate s now (w.marked p) r = (relate s now w r).marked p := by
  have hkey : relationshipKey s (w.marked p).state r = relationshipKey s w.state r := rfl
  have hrelationships : (w.marked p).state.relationships = w.state.relationships := rfl
  unfold relate
  simp only [addChange_eq, hkey, hrelationships]
  split
  · rfl
  · split <;> rfl

theorem removeAbsent_marked (seen : List String) (w : Work) (key : String) :
    removeAbsent s now seen (w.marked p) key = (removeAbsent s now seen w key).marked p := by
  have hrelationships : (w.marked p).state.relationships = w.state.relationships := rfl
  unfold removeAbsent
  simp only [addChange_eq, hrelationships]
  split
  · rfl
  · split <;> rfl

theorem countAbsence_marked (seen : List String) (w : Work) (key : String) :
    countAbsence policy s now seen (w.marked p) key = (countAbsence policy s now seen w key).marked p := by
  have hmiss : ∀ id (w : Work), missAsset s now id (w.marked p) = (missAsset s now id w).marked p := by
    intro id w
    have hasset : (w.marked p).state.assetAt = w.state.assetAt := rfl
    rw [missAsset_eq, missAsset_eq, hasset]
    split_ifs <;> rfl
  have habsences : (w.marked p).state.successfulAbsences = w.state.successfulAbsences := rfl
  unfold countAbsence
  simp only [habsences]
  split
  · rfl
  · split
    · exact hmiss _ (w.setAbsences key _)
    · rfl

/-- A loop whose body does not read them does not read them. -/
theorem foldl_marked {α : Type} {f : Work → α → Work} (hf : ∀ w x, f (w.marked p) x = (f w x).marked p) (l : List α)
    (w : Work) : l.foldl f (w.marked p) = (l.foldl f w).marked p := by
  induction l generalizing w with
  | nil => rfl
  | cons x l ih =>
    rw [List.foldl_cons, hf]
    exact ih _

theorem observe_marked (w : Work) (o : Observation) :
    observe policy s now (w.marked p) o = (observe policy s now w o).marked p := by
  rw [observe_eq, identify_marked]
  exact foldl_marked p (claimAttribute_marked p o (assetIDOf w.state s o)) o.attributes.entries
    ((identify s now w o).setAbsences (scope s ++ o.externalID) 0)

theorem reconcile_marked (order : RangeOrder) (st : State) :
    reconcile policy s now order { st with processedSnapshots := p } =
      (reconcile policy s now order st).marked p := by
  rw [reconcile_eq, reconcile_eq]
  have hstart : (⟨{ st with processedSnapshots := p }, {}⟩ : Work) = Work.marked p ⟨st, {}⟩ := rfl
  rw [hstart, foldl_marked p (observe_marked p)]
  unfold settle
  simp only
  rw [foldl_marked p (relate_marked p)]
  generalize s.assets.foldl (observe policy s now) ⟨st, {}⟩ = w₁
  generalize s.relationships.foldl (relate s now) w₁ = w₂
  have hseen : s.relationships.filterMap (relationshipKey s (w₁.marked p).state) =
      s.relationships.filterMap (relationshipKey s w₁.state) := rfl
  rw [hseen]
  generalize s.relationships.filterMap (relationshipKey s w₁.state) = seen
  have hkeys : (w₂.marked p).state.relationships.keys = w₂.state.relationships.keys := rfl
  rw [hkeys, foldl_marked p (removeAbsent_marked p seen)]
  exact foldl_marked p (countAbsence_marked p _) _ _

end

structure SameCall (c c' : Call) : Prop where
  snapshot : c'.snapshot = c.snapshot
  status : c'.status = c.status
  policy : c'.policy = c.policy

theorem reconcile_order (policy : Policy) (s : SnapshotEnvelope) (now : Time) (order order' : RangeOrder) (st : State) :
    reconcile policy s now order st = reconcile policy s now order' st := by
  rw [reconcile_eq]
  unfold settle
  simp only
  rw [removals_perm (order.relationships.perm order'.relationships _)]
  exact absences_perm (order.externals.perm order'.externals _) _

theorem SameCall.reconciled {c c' : Call} (h : SameCall c c') (hcompleted : c.snapshot.completedAt ≠ 0) (st : State) :
    c'.reconciled st = c.reconciled st := by
  have hnow : ∀ clock, orNow c.snapshot.completedAt clock = c.snapshot.completedAt := fun clock => if_neg hcompleted
  unfold Call.reconciled
  rw [h.snapshot, h.policy, hnow, hnow, reconcile_order _ _ _ c'.order c.order]

/-- Without the calls whose snapshot ID came before, in `seen` or earlier in the
list, and without those that did not succeed. -/
def remaining (seen : List String) : List Call → List Call
  | [] => []
  | c :: cs =>
    if c.snapshot.snapshotID ∈ seen ∨ c.status ≠ .succeeded then remaining (c.snapshot.snapshotID :: seen) cs
    else c :: remaining (c.snapshot.snapshotID :: seen) cs

structure SameInventory (st st' : State) : Prop where
  assets : st'.assets = st.assets
  externalToAsset : st'.externalToAsset = st.externalToAsset
  claims : st'.claims = st.claims
  relationships : st'.relationships = st.relationships
  changes : st'.changes = st.changes
  successfulAbsences : st'.successfulAbsences = st.successfulAbsences

theorem SameInventory.eq {st st' : State} (h : SameInventory st st') :
    st' = { st with processedSnapshots := st'.processedSnapshots } := by
  cases st
  cases st'
  obtain ⟨rfl, rfl, rfl, rfl, rfl, rfl⟩ := h
  rfl

theorem SameInventory.reconciled {st st' : State} (h : SameInventory st st') (c : Call) :
    SameInventory (c.reconciled st) (c.reconciled st') := by
  unfold Call.reconciled
  have hmarked : reconcile c.policy c.snapshot (orNow c.snapshot.completedAt c.clock) c.order st' =
      (reconcile c.policy c.snapshot (orNow c.snapshot.completedAt c.clock) c.order st).marked
        st'.processedSnapshots := by
    rw [← reconcile_marked, ← h.eq]
  rw [hmarked]
  exact ⟨rfl, rfl, rfl, rfl, rfl, rfl⟩

theorem SameInventory.processed {st st' : State} (h : SameInventory st st') (s s' : SnapshotEnvelope) :
    SameInventory (st.process s) (st'.process s') :=
  ⟨h.assets, h.externalToAsset, h.claims, h.relationships, h.changes, h.successfulAbsences⟩

theorem Call.processed_after (c : Call) (st : State) (k : String) :
    ((c.after st).processedSnapshots.find k).isSome = true ↔
      k = c.snapshot.snapshotID ∨ (st.processedSnapshots.find k).isSome = true := by
  have hset : ∀ st' : State, st'.processedSnapshots = st.processedSnapshots →
      (((st'.process c.snapshot).processedSnapshots.find k).isSome = true ↔
        k = c.snapshot.snapshotID ∨ (st.processedSnapshots.find k).isSome = true) := by
    intro st' hst'
    unfold State.process
    simp only [Dict.find_set, hst']
    by_cases hk : c.snapshot.snapshotID = k
    · simp [hk]
    · simp [hk, Ne.symm hk]
  cases h : st.processedSnapshots.find c.snapshot.snapshotID with
  | some hash =>
    rw [Call.after_of_processed h]
    constructor
    · exact .inr
    · intro hor
      rcases hor with rfl | hk
      · rw [h]
        rfl
      · exact hk
  | none =>
    by_cases hstatus : c.status = .succeeded
    · rw [Call.after_of_succeeded h hstatus]
      exact hset _ (edits_processed (c.edits st))
    · rw [Call.after_of_unsucceeded h hstatus]
      exact hset st rfl

/-- From two states with one inventory, the calls lead to one inventory again
when those that change nothing are left out. -/
theorem sameInventory_remaining {calls calls' : List Call} {seen : List String} {st st' : State}
    (hcompleted : ∀ c ∈ calls, c.snapshot.completedAt ≠ 0) (hcalls : List.Forall₂ SameCall (remaining seen calls) calls')
    (h : SameInventory st st') (hseen : ∀ k, (st.processedSnapshots.find k).isSome = true ↔ k ∈ seen)
    (hseen' : ∀ k, (st'.processedSnapshots.find k).isSome = true → k ∈ seen) :
    SameInventory (calls.foldl (fun st c => c.after st) st) (calls'.foldl (fun st c => c.after st) st') := by
  induction calls generalizing calls' seen st st' with
  | nil =>
    cases hcalls
    exact h
  | cons c cs ih =>
    have hcompleted' := fun c' hc' => hcompleted c' (.tail _ hc')
    have hmarked : ∀ k, ((c.after st).processedSnapshots.find k).isSome = true ↔ k ∈ c.snapshot.snapshotID :: seen := by
      intro k
      rw [c.processed_after st k, hseen, List.mem_cons]
    rw [remaining] at hcalls
    rw [List.foldl_cons]
    split_ifs at hcalls with hskip
    · -- the call only marks its ID
      refine ih hcompleted' hcalls ?_ hmarked fun k hk => .tail _ (hseen' k hk)
      by_cases hold : c.snapshot.snapshotID ∈ seen
      · obtain ⟨hash, hhash⟩ := Option.isSome_iff_exists.mp ((hseen _).mpr hold)
        rwa [Call.after_of_processed hhash]
      · rw [Call.after_of_unsucceeded (Option.not_isSome_iff_eq_none.mp fun hs => hold ((hseen _).mp hs))
          (hskip.resolve_left hold)]
        exact ⟨h.assets, h.externalToAsset, h.claims, h.relationships, h.changes, h.successfulAbsences⟩
    · obtain ⟨c', rest, hsame, hrest, rfl⟩ := List.forall₂_cons_left_iff.mp hcalls
      rw [not_or, not_not] at hskip
      have hfresh : st.processedSnapshots.find c.snapshot.snapshotID = none :=
        Option.not_isSome_iff_eq_none.mp fun hs => hskip.1 ((hseen _).mp hs)
      have hfresh' : st'.processedSnapshots.find c'.snapshot.snapshotID = none := by
        rw [hsame.snapshot]
        exact Option.not_isSome_iff_eq_none.mp fun hs => hskip.1 (hseen' _ hs)
      rw [List.foldl_cons]
      refine ih hcompleted' hrest ?_ hmarked fun k hk => ?_
      · rw [Call.after_of_succeeded hfresh hskip.2, Call.after_of_succeeded hfresh' (hsame.status.trans hskip.2),
          hsame.reconciled (hcompleted c (.head _))]
        exact (h.reconciled c).processed _ _
      · rw [c'.processed_after st' k, hsame.snapshot] at hk
        rcases hk with rfl | hk
        · exact .head _
        · exact .tail _ (hseen' k hk)

theorem scope_inj {s : SnapshotEnvelope} {org connector external rest : String} (horg : '|' ∉ org.toList)
    (hconnector : '|' ∉ connector.toList) (horg' : '|' ∉ s.organizationID.toList)
    (hconnector' : '|' ∉ s.connectorID.toList) (h : org ++ "|" ++ connector ++ "|" ++ external = scope s ++ rest) :
    s.organizationID = org ∧ s.connectorID = connector ∧ external = rest := by
  have hfirst : org ++ "|" ++ (connector ++ "|" ++ external) =
      s.organizationID ++ "|" ++ (s.connectorID ++ "|" ++ rest) := by
    simpa only [scope, String.append_assoc] using h
  obtain ⟨horgs, hsecond⟩ := bar_inj horg horg' hfirst
  obtain ⟨hconnectors, hexternal⟩ := bar_inj hconnector hconnector' hsecond
  exact ⟨horgs.symm, hconnectors.symm, hexternal⟩

section

variable (policy : Policy) (s : SnapshotEnvelope) (now : Time)

theorem observes_counters (l : List Observation) (w : Work) (key : String) :
    (key ∈ (l.foldl (observe policy s now) w).state.externalToAsset.keys ↔
      key ∈ w.state.externalToAsset.keys ∨ ∃ o ∈ l, scope s ++ o.externalID = key) ∧
    ((l.foldl (observe policy s now) w).state.successfulAbsences.find key =
      if ∃ o ∈ l, scope s ++ o.externalID = key then some 0 else w.state.successfulAbsences.find key) := by
  induction l generalizing w with
  | nil => simp
  | cons o l ih =>
    have hseen := observe_seen policy s now w o
    obtain ⟨hkeys, habsences⟩ := ih (observe policy s now w o)
    have hmem : key ∈ (observe policy s now w o).state.externalToAsset.keys ↔
        key ∈ w.state.externalToAsset.keys ∨ scope s ++ o.externalID = key := by
      rw [hseen.externals]
      split_ifs with hnew
      · rw [Dict.mem_keys_set, or_comm, eq_comm]
      · have hknown : scope s ++ o.externalID ∈ w.state.externalToAsset.keys :=
          Dict.mem_keys.mpr ⟨_, State.find_of_assetOf hnew⟩
        exact ⟨.inl, fun h => h.elim id fun he => he ▸ hknown⟩
    rw [List.foldl_cons, hkeys, habsences, hmem, hseen.absences, Dict.find_set]
    refine ⟨by simp [or_assoc], ?_⟩
    by_cases hl : ∃ o ∈ l, scope s ++ o.externalID = key
    · rw [if_pos hl, if_pos (hl.imp fun _ h => ⟨.tail _ h.1, h.2⟩)]
    · rw [if_neg hl]
      by_cases ho : scope s ++ o.externalID = key
      · rw [if_pos ho, if_pos ⟨o, .head _, ho⟩]
      · rw [if_neg ho, if_neg]
        simp only [List.mem_cons, exists_eq_or_imp]
        exact fun h => h.elim ho hl

theorem reconcile_counters (order : RangeOrder) (st : State) (key : String) :
    (key ∈ (reconcile policy s now order st).state.externalToAsset.keys ↔
      key ∈ st.externalToAsset.keys ∨ ∃ o ∈ s.assets, scope s ++ o.externalID = key) ∧
    ((reconcile policy s now order st).state.successfulAbsences.find key =
      if ∃ o ∈ s.assets, scope s ++ o.externalID = key then some 0
      else if key ∈ st.externalToAsset.keys ∧ hasPrefix key (scope s) = true then some (st.nextAbsences key)
      else st.successfulAbsences.find key) := by
  obtain ⟨hkeys, hobserved⟩ := observes_counters policy s now s.assets ⟨st, {}⟩ key
  rw [reconcile_eq]
  generalize s.assets.foldl (observe policy s now) ⟨st, {}⟩ = w₁ at *
  obtain ⟨w₂, w₃, hlinked, hremoved, habsent⟩ := settle_loops policy s now order w₁
  generalize settle policy s now order w₁ = w₄ at *
  have hexternals₃ : w₃.state.externalToAsset = w₁.state.externalToAsset := by rw [hremoved.state, hlinked.state]
  have habsences₃ : w₃.state.successfulAbsences = w₁.state.successfulAbsences := by rw [hremoved.state, hlinked.state]
  have hexternals₄ : w₄.state.externalToAsset = w₃.state.externalToAsset := by rw [habsent.state]
  refine ⟨by rw [hexternals₄, hexternals₃, hkeys], ?_⟩
  have hmem : key ∈ s.assets.map (fun o => scope s ++ o.externalID) ↔
      ∃ o ∈ s.assets, scope s ++ o.externalID = key := List.mem_map
  rw [habsent.absences]
  by_cases hseen : ∃ o ∈ s.assets, scope s ++ o.externalID = key
  · rw [if_neg fun h => h.2.2 (hmem.mpr hseen), if_pos hseen, habsences₃, hobserved, if_pos hseen]
  · rw [if_neg hseen] at hobserved ⊢
    have hcounted : key ∈ order.externals.list w₃.state.externalToAsset.keys ∧
          Counted s (s.assets.map fun o => scope s ++ o.externalID) key ↔
        key ∈ st.externalToAsset.keys ∧ hasPrefix key (scope s) = true := by
      rw [order.externals.mem, hexternals₃, hkeys, or_iff_left hseen]
      exact and_congr_right fun _ => and_iff_left fun h => hseen (hmem.mp h)
    have hold : w₃.state.successfulAbsences.find key = st.successfulAbsences.find key := by
      rw [habsences₃, hobserved]
    by_cases hc : key ∈ st.externalToAsset.keys ∧ hasPrefix key (scope s) = true
    · rw [if_pos (hcounted.mpr hc), if_pos hc]
      unfold State.nextAbsences
      rw [hold]
    · rw [if_neg fun h => hc (hcounted.mp h), if_neg hc, hold]

end

def Call.contains (c : Call) (external : String) : Bool := c.snapshot.assets.any fun o => o.externalID = external

/-- How many of the snapshots of the connector come after the last that contains the external ID. -/
def absentSince (calls : List Call) (org connector external : String) : ℕ :=
  ((calls.filter fun c => c.snapshot.organizationID = org ∧ c.snapshot.connectorID = connector).reverse.takeWhile
    fun c => !c.contains external).length

theorem absentSince_snoc (calls : List Call) (c : Call) (org connector external : String) :
    absentSince (calls ++ [c]) org connector external =
      if c.snapshot.organizationID = org ∧ c.snapshot.connectorID = connector then
        if c.contains external then 0 else absentSince calls org connector external + 1
      else absentSince calls org connector external := by
  unfold absentSince
  split_ifs with hmine hin
  · simp [hmine, hin]
  · simp [hmine, hin]
  · simp [List.filter_append, hmine]

theorem remaining_snoc (seen : List String) (calls : List Call) (c : Call) :
    remaining seen (calls ++ [c]) = remaining seen calls ++
      if (c.snapshot.snapshotID ∈ seen ∨ ∃ c' ∈ calls, c'.snapshot.snapshotID = c.snapshot.snapshotID) ∨
        c.status ≠ .succeeded then [] else [c] := by
  induction calls generalizing seen with
  | nil =>
    simp only [List.nil_append, remaining, List.not_mem_nil, false_and, exists_false, or_false]
  | cons c' calls ih =>
    have hseen : (c.snapshot.snapshotID ∈ c'.snapshot.snapshotID :: seen ∨
        ∃ x ∈ calls, x.snapshot.snapshotID = c.snapshot.snapshotID) ↔
        (c.snapshot.snapshotID ∈ seen ∨ ∃ x ∈ c' :: calls, x.snapshot.snapshotID = c.snapshot.snapshotID) := by
      simp only [List.mem_cons, exists_eq_or_imp, eq_comm (a := c.snapshot.snapshotID)]
      tauto
    rw [List.cons_append, remaining, remaining]
    split_ifs with h₁ h₂ h₂
    all_goals
      rw [ih]
      simp only [hseen, h₂, if_true, if_false, List.cons_append]

def NoBars (calls : List Call) : Prop :=
  ∀ c ∈ calls, '|' ∉ c.snapshot.organizationID.toList ∧ '|' ∉ c.snapshot.connectorID.toList

theorem processed_run (calls : List Call) (k : String) :
    ((run calls).processedSnapshots.find k).isSome = true ↔ ∃ c ∈ calls, c.snapshot.snapshotID = k := by
  induction calls using List.reverseRecOn with
  | nil => exact iff_of_false Bool.false_ne_true (by simp)
  | append_singleton calls c ih =>
    rw [run_append, c.processed_after, ih]
    simp only [List.mem_append, List.mem_singleton, or_and_right, exists_or, exists_eq_left]
    rw [or_comm, eq_comm]

theorem run_absences {calls : List Call} (hbars : NoBars calls) {org connector external id : String}
    (horg : '|' ∉ org.toList) (hconnector : '|' ∉ connector.toList)
    (hknown : (run calls).externalToAsset.find (org ++ "|" ++ connector ++ "|" ++ external) = some id) :
    (run calls).successfulAbsences.find (org ++ "|" ++ connector ++ "|" ++ external) =
      some (absentSince (remaining [] calls) org connector external) := by
  induction calls using List.reverseRecOn generalizing id with
  | nil => exact absurd hknown (by simp [run, newState, Dict.find])
  | append_singleton calls c ih =>
    have hbars' : NoBars calls := fun c' hc' => hbars c' (List.mem_append_left _ hc')
    have hc := hbars c (List.mem_append_right _ (.head _))
    rw [run_append] at hknown ⊢
    rw [remaining_snoc]
    have hprocessed := processed_run calls c.snapshot.snapshotID
    by_cases hskip : (∃ c' ∈ calls, c'.snapshot.snapshotID = c.snapshot.snapshotID) ∨ c.status ≠ .succeeded
    · rw [if_pos (by simpa using hskip), List.append_nil]
      by_cases hold : ∃ c' ∈ calls, c'.snapshot.snapshotID = c.snapshot.snapshotID
      · obtain ⟨hash, hhash⟩ := Option.isSome_iff_exists.mp (hprocessed.mpr hold)
        rw [Call.after_of_processed hhash] at hknown ⊢
        exact ih hbars' hknown
      · rw [Call.after_of_unsucceeded (Option.not_isSome_iff_eq_none.mp fun hs => hold (hprocessed.mp hs))
          (hskip.resolve_left hold)] at hknown ⊢
        exact ih hbars' hknown
    · rw [if_neg (by simpa using hskip), absentSince_snoc]
      rw [not_or, not_not] at hskip
      rw [Call.after_of_succeeded (Option.not_isSome_iff_eq_none.mp fun hs => hskip.1 (hprocessed.mp hs))
        hskip.2] at hknown ⊢
      obtain ⟨hkeys, habsences⟩ := reconcile_counters c.policy c.snapshot (orNow c.snapshot.completedAt c.clock) c.order
        (run calls) (org ++ "|" ++ connector ++ "|" ++ external)
      have hmapped := hkeys.mp (Dict.mem_keys.mpr ⟨id, hknown⟩)
      refine habsences.trans ?_
      -- a key of another connector neither is observed nor has the prefix
      have hinj : ∀ rest, scope c.snapshot ++ rest = org ++ "|" ++ connector ++ "|" ++ external →
          (c.snapshot.organizationID = org ∧ c.snapshot.connectorID = connector) ∧ external = rest := by
        intro rest hrest
        obtain ⟨h₁, h₂, h₃⟩ := scope_inj horg hconnector hc.1 hc.2 hrest.symm
        exact ⟨⟨h₁, h₂⟩, h₃⟩
      have hseen : (∃ o ∈ c.snapshot.assets,
          scope c.snapshot ++ o.externalID = org ++ "|" ++ connector ++ "|" ++ external) ↔
          (c.snapshot.organizationID = org ∧ c.snapshot.connectorID = connector) ∧ c.contains external = true := by
        constructor
        · intro hparts
          obtain ⟨o, ho, hkey⟩ := hparts
          obtain ⟨hmine, hexternal⟩ := hinj _ hkey
          exact ⟨hmine, List.any_eq_true.mpr ⟨o, ho, decide_eq_true hexternal.symm⟩⟩
        · intro hparts
          obtain ⟨⟨horg', hconnector'⟩, hin⟩ := hparts
          obtain ⟨o, ho, hexternal⟩ := List.any_eq_true.mp hin
          exact ⟨o, ho, by rw [scope, horg', hconnector', of_decide_eq_true hexternal]⟩
      rw [hseen] at hmapped
      simp only [hseen]
      have hbegins : hasPrefix (org ++ "|" ++ connector ++ "|" ++ external) (scope c.snapshot) = true ↔
          (c.snapshot.organizationID = org ∧ c.snapshot.connectorID = connector) := by
        constructor
        · intro h
          obtain ⟨rest, hrest⟩ := exists_of_hasPrefix h
          exact (hinj rest hrest.symm).1
        · intro hparts
          obtain ⟨horg', hconnector'⟩ := hparts
          rw [scope, horg', hconnector']
          exact hasPrefix_append _ _
      simp only [hbegins]
      by_cases hmine : c.snapshot.organizationID = org ∧ c.snapshot.connectorID = connector
      · rw [if_pos hmine]
        by_cases hin : c.contains external = true
        · rw [if_pos ⟨hmine, hin⟩, if_pos hin]
        · have hold := hmapped.resolve_right fun h => hin h.2
          obtain ⟨id', hid'⟩ := Dict.mem_keys.mp hold
          rw [if_neg fun h => hin h.2, if_pos ⟨hold, hmine⟩, if_neg hin]
          unfold State.nextAbsences
          rw [ih hbars' hid']
          rfl
      · rw [if_neg fun h => hmine h.1, if_neg fun h => hmine h.2, if_neg hmine]
        obtain ⟨id', hid'⟩ := Dict.mem_keys.mp (hmapped.resolve_right fun h => hmine h.1)
        exact ih hbars' hid'

/-- Retries, rejected reuses and snapshots that did not succeed may be left out of
any sequence of calls, whatever the orders and clocks of the remaining ones; the
counter of a known external ID is the number of remaining snapshots of its
connector after the last that contains it. -/
theorem run_remaining {calls calls' : List Call} (hcompleted : ∀ c ∈ calls, c.snapshot.completedAt ≠ 0)
    (hcalls : List.Forall₂ SameCall (remaining [] calls) calls') : SameInventory (run calls) (run calls') ∧
    (NoBars calls → ∀ org connector external id, '|' ∉ org.toList → '|' ∉ connector.toList →
      (run calls).externalToAsset.find (org ++ "|" ++ connector ++ "|" ++ external) = some id →
      (run calls).successfulAbsences.find (org ++ "|" ++ connector ++ "|" ++ external) =
        some (absentSince (remaining [] calls) org connector external)) := by
  refine ⟨?_, fun hbars org connector external id horg hconnector => run_absences hbars horg hconnector⟩
  refine sameInventory_remaining hcompleted hcalls ⟨rfl, rfl, rfl, rfl, rfl, rfl⟩ (fun k => ?_) fun k hk => ?_
  · simp [newState, Dict.find]
  · simp [newState, Dict.find] at hk

/-- The application is seen, delivered again, then twice absent, once from a snapshot that failed. -/
def retriedCalls : List Call :=
  [dockerCall, dockerCall, ⟨snapshotOf "docker-2" "docker" [] [], .failed, noPolicy, .ascending, 0⟩,
    ⟨snapshotOf "docker-3" "docker" [] [], .succeeded, noPolicy, .ascending, 0⟩]

theorem run_remaining_retried : SameInventory (run retriedCalls) (run (remaining [] retriedCalls)) ∧
      (remaining [] retriedCalls).map (fun c => c.snapshot.snapshotID) = ["docker-1", "docker-3"] ∧
      (run retriedCalls).successfulAbsences.find "org|docker|app" =
        some (absentSince (remaining [] retriedCalls) "org" "docker" "app") := by
  have hcompleted : ∀ c ∈ retriedCalls, c.snapshot.completedAt ≠ 0 := by decide
  obtain ⟨hsame, habsences⟩ := run_remaining hcompleted
    (List.forall₂_same.mpr fun c _ => ⟨rfl, rfl, rfl⟩ : List.Forall₂ SameCall _ (remaining [] retriedCalls))
  have hknown : (run retriedCalls).externalToAsset.find "org|docker|app" = some "asset-app" := by decide +kernel
  have hbars : NoBars retriedCalls := by
    unfold NoBars
    decide
  exact ⟨hsame, by decide +kernel, habsences hbars "org" "docker" "app" _ (by decide) (by decide) hknown⟩

end Infragraph.Memory
