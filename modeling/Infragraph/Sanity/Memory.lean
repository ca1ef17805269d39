import Infragraph.Spec.Memory
import Mathlib.Logic.Relation

/-! What a call of the in-memory `Apply` writes. The four loops are traversed
once: every state they pass through is one `Edit` away from the one before, and
an edit names the asset, external ID or relationship it writes. -/

namespace Infragraph.Memory

open Relation

variable {st st' : State} {key external : String} {m : Dict String Change} {c : Change} {policy : Policy}
  {o : Observation} {now clock : Time} {order : RangeOrder}

theorem hasPrefix_append (pre v : String) : hasPrefix (pre ++ v) pre = true := by
  simp [hasPrefix]

theorem exists_of_hasPrefix {v pre : String} (h : hasPrefix v pre = true) : ∃ rest, v = pre ++ rest := by
  obtain ⟨rest, hrest⟩ := List.isPrefixOf_iff_prefix.mp h
  refine ⟨String.ofList rest, ?_⟩
  rw [← String.toList_inj, String.toList_append, String.toList_ofList, hrest]

theorem State.assetOf_of_find {id : String} (h : st.externalToAsset.find key = some id) : st.assetOf key = id := by
  simp [State.assetOf, h]

theorem State.find_of_assetOf (h : st.assetOf key ≠ "") : st.externalToAsset.find key = some (st.assetOf key) := by
  unfold State.assetOf at h ⊢
  cases hf : st.externalToAsset.find key with
  | none => simp [hf] at h
  | some id => rfl

def noted (m : Dict String Change) (key : String) (c : Change) : Dict String Change :=
  if (m.find key).isSome then m else m.set key c

def unnoted (m : Dict String Change) (key : String) : ℕ := if (m.find key).isSome then 0 else 1

theorem noted_of_some (h : m.find key = some c) (c' : Change) : noted m key c' = m := by simp [noted, h]

theorem noted_of_none (h : m.find key = none) (c : Change) : noted m key c = m.set key c := by simp [noted, h]

theorem find_noted (m : Dict String Change) (key key' : String) (c : Change) :
    (noted m key c).find key' = if key = key' then some ((m.find key').getD c) else m.find key' := by
  cases h : m.find key with
  | none =>
    rw [noted_of_none h, Dict.find_set]
    split_ifs with hk
    · rw [← hk, h]
      rfl
    · rfl
  | some c' =>
    rw [noted_of_some h]
    split_ifs with hk
    · rw [← hk, h]
      rfl
    · rfl

theorem noted_keeps {k : String} {c' : Change} (h : m.find k = some c') : (noted m key c).find k = some c' := by
  rw [find_noted, h]
  split_ifs <;> rfl

section

variable (w : Work) (s : SnapshotEnvelope) (id typ : String) (before after : GoValue) (reason : String)

theorem addChange_eq : addChange w s id typ before after reason =
    { state := { w.state with
        changes := noted w.state.changes (changeKey s id typ) (changeOf s id typ before after reason) }
      summary := { w.summary with
        changes := w.summary.changes + unnoted w.state.changes (changeKey s id typ) } } := by
  unfold addChange noted unnoted
  split <;> simp [*]

@[simp] theorem addChange_externalToAsset :
    (addChange w s id typ before after reason).state.externalToAsset = w.state.externalToAsset := by
  rw [addChange_eq]

end

/-- One write of a call of the snapshot. -/
inductive Edit (s : SnapshotEnvelope) (st : State) : State → Prop
  | change (key : String) (c : Change) : Edit s st { st with changes := noted st.changes key c }
  | discover {o : Observation} (a : Asset) : o ∈ s.assets → st.assetOf (scope s ++ o.externalID) = "" →
      a.organizationID = s.organizationID →
      Edit s st
        { st with externalToAsset := st.externalToAsset.set (scope s ++ o.externalID) ("asset-" ++ safe o.externalID)
                  assets := st.assets.set ("asset-" ++ safe o.externalID) a }
  | asset {external id : String} (a : Asset) : st.externalToAsset.find (scope s ++ external) = some id →
      a.organizationID = ((st.assets.find id).getD .zero).organizationID →
      Edit s st { st with assets := st.assets.set id a }
  | absences (external : String) (n : ℕ) :
      Edit s st { st with successfulAbsences := st.successfulAbsences.set (scope s ++ external) n }
  | claim {external id : String} (c : AttributeClaim) :
      st.externalToAsset.find (scope s ++ external) = some id → c.assetID = id →
      c.connectorID = s.connectorID →
      Edit s st { st with claims := st.claims.set (id ++ "|" ++ c.attributeKey)
                            (claimed (st.claimsAt (id ++ "|" ++ c.attributeKey)) c) }
  | relate {source target : String} (rest : String) (r : Relationship) :
      st.externalToAsset.find (scope s ++ source) = some r.fromAssetID →
      st.externalToAsset.find (scope s ++ target) = some r.toAssetID →
      Edit s st { st with relationships := st.relationships.set (scope s ++ rest) r }
  | relationship {rest : String} {old : Relationship} (r : Relationship) :
      st.relationships.find (scope s ++ rest) = some old → r.fromAssetID = old.fromAssetID →
      r.toAssetID = old.toAssetID →
      Edit s st { st with relationships := st.relationships.set (scope s ++ rest) r }

abbrev Edits (s : SnapshotEnvelope) : State → State → Prop := ReflTransGen (Edit s)

variable {s : SnapshotEnvelope}

theorem edits_addChange (w : Work) (id typ : String) (before after : GoValue) (reason : String)
    (h : Edits s st w.state) : Edits s st (addChange w s id typ before after reason).state := by
  rw [addChange_eq]
  exact h.tail (.change _ _)

/-- A loop edits the state if each of its rounds does. -/
theorem edits_foldl {α : Type} {f : Work → α → Work} (inv : Work → Prop) {l : List α}
    (hstep : ∀ w, inv w → ∀ x ∈ l, Edits s w.state (f w x).state ∧ inv (f w x)) {w : Work} (h : inv w) :
    Edits s w.state (l.foldl f w).state ∧ inv (l.foldl f w) := by
  induction l generalizing w with
  | nil => exact ⟨.refl, h⟩
  | cons x l ih =>
    obtain ⟨hx, hinv⟩ := hstep w h x (.head _)
    obtain ⟨hl, hinv⟩ := ih (fun w hw y hy => hstep w hw y (.tail _ hy)) hinv
    exact ⟨hx.trans hl, hinv⟩

@[simp] theorem claimAttribute_externalToAsset (policy : Policy) (o : Observation) (id : String) (w : Work)
    (e : String × Json) : (claimAttribute policy s o id w e).state.externalToAsset = w.state.externalToAsset := by
  unfold claimAttribute
  simp only
  split <;> simp

theorem edits_claimAttribute {id : String} {w : Work} (h : w.state.externalToAsset.find (scope s ++ external) = some id)
    (e : String × Json) : Edits s w.state (claimAttribute policy s o id w e).state := by
  unfold claimAttribute
  simp only
  have hclaim := Edit.claim (claimOf policy s o id e) h rfl rfl
  split
  · apply edits_addChange
    exact (ReflTransGen.single hclaim).tail (.asset _ h rfl)
  · exact .single hclaim

theorem edits_setAbsences (w : Work) (external : String) (n : ℕ) :
    Edits s w.state (w.setAbsences (scope s ++ external) n).state :=
  .single (.absences external n)

theorem edits_claims {id : String} {w : Work} (h : w.state.externalToAsset.find (scope s ++ external) = some id)
    (entries : List (String × Json)) : Edits s w.state (entries.foldl (claimAttribute policy s o id) w).state :=
  (edits_foldl (fun w => w.state.externalToAsset.find (scope s ++ external) = some id)
    (fun w hw e _ => ⟨edits_claimAttribute hw e, by rw [claimAttribute_externalToAsset]; exact hw⟩) h).1

theorem edits_discover (ho : o ∈ s.assets) {w : Work}
    (h : w.state.assetOf (scope s ++ o.externalID) = "") : Edits s w.state (discover s now o w).state :=
  edits_addChange _ _ _ _ _ _ (.single (.discover _ ho h rfl))

def Asset.touched (a : Asset) (now : Time) : Asset :=
  { a with lastSeenAt := now, updatedAt := now, status := .active }

theorem touch_eq (now : Time) (id : String) (w : Work) : touch s now id w =
      let a := (w.state.assets.find id).getD .zero
      let st := { w.state with assets := w.state.assets.set id (a.touched now) }
      if a.status = .missing then
        let w := addChange { w with state := st } s id "ASSET_RETURNED" (.str AssetStatus.missing.text)
          (.str AssetStatus.active.text) "asset returned"
        { w with summary := { w.summary with updated := w.summary.updated + 1 } }
      else { state := st, summary := { w.summary with unchanged := w.summary.unchanged + 1 } } := by
  unfold touch
  simp only
  split
  · rename_i h
    rw [h]
    rfl
  · rfl

theorem edits_touch {id : String} {w : Work} (h : w.state.externalToAsset.find (scope s ++ external) = some id) :
    Edits s w.state (touch s now id w).state := by
  rw [touch_eq]
  simp only
  have hasset := Edit.asset (s := s) (((w.state.assets.find id).getD .zero).touched now) h rfl
  split
  · exact edits_addChange _ _ _ _ _ _ (.single hasset)
  · exact .single hasset

@[simp] theorem discover_externalToAsset (now : Time) (o : Observation) (w : Work) :
    (discover s now o w).state.externalToAsset =
      w.state.externalToAsset.set (scope s ++ o.externalID) ("asset-" ++ safe o.externalID) := by
  simp [discover]

@[simp] theorem touch_externalToAsset (now : Time) (id : String) (w : Work) :
    (touch s now id w).state.externalToAsset = w.state.externalToAsset := by
  rw [touch_eq]
  simp only
  split <;> simp

def assetIDOf (st : State) (s : SnapshotEnvelope) (o : Observation) : String :=
  if st.assetOf (scope s ++ o.externalID) = "" then "asset-" ++ safe o.externalID
  else st.assetOf (scope s ++ o.externalID)

def identify (s : SnapshotEnvelope) (now : Time) (w : Work) (o : Observation) : Work :=
  if w.state.assetOf (scope s ++ o.externalID) = "" then discover s now o w
  else touch s now (w.state.assetOf (scope s ++ o.externalID)) w

theorem observe_eq (policy : Policy) (now : Time) (w : Work) (o : Observation) :
    observe policy s now w o = o.attributes.entries.foldl (claimAttribute policy s o (assetIDOf w.state s o))
      ((identify s now w o).setAbsences (scope s ++ o.externalID) 0) :=
  rfl

theorem find_identify (now : Time) (w : Work) (o : Observation) :
    (identify s now w o).state.externalToAsset.find (scope s ++ o.externalID) = some (assetIDOf w.state s o) := by
  unfold identify assetIDOf
  split_ifs with h
  · rw [discover_externalToAsset, Dict.find_set_self]
  · rw [touch_externalToAsset]
    exact State.find_of_assetOf h

theorem edits_identify (now : Time) (w : Work) (ho : o ∈ s.assets) : Edits s w.state (identify s now w o).state := by
  unfold identify
  split_ifs with h
  · exact edits_discover ho h
  · exact edits_touch (State.find_of_assetOf h)

theorem edits_observe (policy : Policy) (now : Time) (w : Work) (ho : o ∈ s.assets) :
    Edits s w.state (observe policy s now w o).state := by
  have hidentify := (edits_identify now w ho).trans (edits_setAbsences _ o.externalID 0)
  have hfind : ((identify s now w o).setAbsences (scope s ++ o.externalID) 0).state.externalToAsset.find
      (scope s ++ o.externalID) = some (assetIDOf w.state s o) := find_identify now w o
  exact hidentify.trans (edits_claims hfind _)

theorem relationshipKey_eq_some {r : RelationshipObservation} (h : relationshipKey s st r = some key) :
    st.assetOf (scope s ++ r.externalFromID) ≠ "" ∧ st.assetOf (scope s ++ r.externalToID) ≠ "" ∧
      key = scope s ++ (st.assetOf (scope s ++ r.externalFromID) ++ "|" ++
        st.assetOf (scope s ++ r.externalToID) ++ "|" ++ r.type) := by
  unfold relationshipKey at h
  simp only at h
  split_ifs at h with hends
  rw [not_or] at hends
  refine ⟨hends.1, hends.2, ?_⟩
  rw [← Option.some.inj h]
  simp only [String.append_assoc]

theorem edits_relate (now : Time) (w : Work) (r : RelationshipObservation) :
    Edits s w.state (relate s now w r).state := by
  unfold relate
  split
  · exact .refl
  · rename_i key hkey
    obtain ⟨hsource, htarget, rfl⟩ := relationshipKey_eq_some hkey
    split
    · apply edits_addChange
      exact .single (.relate _ _ (State.find_of_assetOf hsource) (State.find_of_assetOf htarget))
    · rename_i old hold
      exact .single (.relationship _ hold rfl rfl)

theorem edits_removeAbsent (now : Time) (seen : List String) (w : Work) (key : String) :
    Edits s w.state (removeAbsent s now seen w key).state := by
  unfold removeAbsent
  split
  · exact .refl
  · rename_i old hold
    split
    · exact .refl
    · rename_i hskip
      obtain ⟨rest, rfl⟩ := exists_of_hasPrefix (not_not.mp (not_or.mp hskip).1)
      apply edits_addChange
      exact .single (.relationship _ hold rfl rfl)

theorem edits_missAsset {id : String} {w : Work} (h : w.state.externalToAsset.find (scope s ++ external) = some id) :
    Edits s w.state (missAsset s now id w).state := by
  unfold missAsset
  simp only
  split
  · apply edits_addChange
    exact .single (.asset _ h rfl)
  · exact .refl

@[simp] theorem missAsset_externalToAsset (now : Time) (id : String) (w : Work) :
    (missAsset s now id w).state.externalToAsset = w.state.externalToAsset := by
  unfold missAsset
  simp only
  split <;> simp

@[simp] theorem countAbsence_externalToAsset (policy : Policy) (now : Time) (seen : List String) (w : Work)
    (key : String) : (countAbsence policy s now seen w key).state.externalToAsset = w.state.externalToAsset := by
  unfold countAbsence
  simp only
  split
  · rfl
  · split
    · rw [missAsset_externalToAsset]
      rfl
    · rfl

theorem edits_countAbsence {seen : List String} {w : Work}
    (h : key ∈ w.state.externalToAsset.keys) : Edits s w.state (countAbsence policy s now seen w key).state := by
  unfold countAbsence
  simp only
  split
  · exact .refl
  · rename_i hskip
    obtain ⟨rest, rfl⟩ := exists_of_hasPrefix (not_not.mp (not_or.mp hskip).1)
    obtain ⟨id, hid⟩ := Dict.mem_keys.mp h
    generalize (w.state.successfulAbsences.find (scope s ++ rest)).getD 0 + 1 = n
    have hfind : (w.setAbsences (scope s ++ rest) n).state.externalToAsset.find (scope s ++ rest) = some id := hid
    split
    · rw [State.assetOf_of_find hfind]
      exact (edits_setAbsences w rest n).trans (edits_missAsset hfind)
    · exact edits_setAbsences w rest n

def settle (policy : Policy) (s : SnapshotEnvelope) (now : Time) (order : RangeOrder) (w : Work) : Work :=
  let seen := s.relationships.filterMap (relationshipKey s w.state)
  let w := s.relationships.foldl (relate s now) w
  let w := (order.relationships.list w.state.relationships.keys).foldl (removeAbsent s now seen) w
  (order.externals.list w.state.externalToAsset.keys).foldl
    (countAbsence policy s now (s.assets.map fun o => scope s ++ o.externalID)) w

theorem reconcile_eq (policy : Policy) (now : Time) (order : RangeOrder) (st : State) :
    reconcile policy s now order st = settle policy s now order (s.assets.foldl (observe policy s now) ⟨st, {}⟩) :=
  rfl

theorem edits_observes (policy : Policy) (now : Time) {l : List Observation} (hl : ∀ o ∈ l, o ∈ s.assets) (w : Work) :
    Edits s w.state (l.foldl (observe policy s now) w).state :=
  (edits_foldl (fun _ => True) (fun w _ o ho => ⟨edits_observe policy now w (hl o ho), trivial⟩) trivial).1

theorem edits_settle (policy : Policy) (now : Time) (order : RangeOrder) (w₁ : Work) :
    Edits s w₁.state (settle policy s now order w₁).state := by
  unfold settle
  simp only
  have h₂ := (edits_foldl (s := s) (w := w₁) (f := relate s now) (l := s.relationships) (fun _ => True)
    (fun w _ r _ => ⟨edits_relate now w r, trivial⟩) trivial).1
  generalize s.relationships.foldl (relate s now) w₁ = w₂ at h₂ ⊢
  generalize s.relationships.filterMap (relationshipKey s w₁.state) = seen
  have h₃ := (edits_foldl (s := s) (w := w₂) (f := removeAbsent s now seen)
    (l := order.relationships.list w₂.state.relationships.keys) (fun _ => True)
    (fun w _ key _ => ⟨edits_removeAbsent now seen w key, trivial⟩) trivial).1
  generalize (order.relationships.list w₂.state.relationships.keys).foldl _ w₂ = w₃ at h₃ ⊢
  have h₄ := edits_foldl (s := s) (l := order.externals.list w₃.state.externalToAsset.keys)
    (f := countAbsence policy s now (s.assets.map fun o => scope s ++ o.externalID))
    (fun w => w.state.externalToAsset = w₃.state.externalToAsset)
    (fun w hw key hkey => ⟨edits_countAbsence (hw ▸ (order.externals.mem _ _).mp hkey),
      (countAbsence_externalToAsset ..).trans hw⟩) rfl
  exact (h₂.trans h₃).trans h₄.1

theorem edits_reconcile (policy : Policy) (now : Time) (order : RangeOrder) (st : State) :
    Edits s st (reconcile policy s now order st).state :=
  (edits_observes policy now (fun _ h => h) ⟨st, {}⟩).trans (edits_settle policy now order _)

/-- A recorded change stays as it is. -/
theorem Edit.keeps_change (h : Edit s st st')
    (hc : st.changes.find key = some c) : st'.changes.find key = some c := by
  cases h with
  | change key' c' => exact noted_keeps hc
  | discover => exact hc
  | asset => exact hc
  | absences => exact hc
  | claim => exact hc
  | relate => exact hc
  | relationship => exact hc

theorem edits_keep_change (h : Edits s st st')
    (hc : st.changes.find key = some c) : st'.changes.find key = some c := by
  induction h with
  | refl => exact hc
  | tail _ hstep ih => exact hstep.keeps_change ih

theorem edits_processed (h : Edits s st st') : st'.processedSnapshots = st.processedSnapshots := by
  induction h with
  | refl => rfl
  | tail _ hstep ih =>
    rw [← ih]
    cases hstep <;> rfl

theorem apply_of_processed {status : SnapshotStatus} {hash : String}
    (h : st.processedSnapshots.find s.snapshotID = some hash) : apply st s status policy order clock =
      if hash = s.contentHash then .ok ({}, st) else .error .snapshotReused := by
  unfold apply
  rw [h]

theorem apply_of_unsucceeded {status : SnapshotStatus} (h : st.processedSnapshots.find s.snapshotID = none)
    (hstatus : status ≠ .succeeded) : apply st s status policy order clock = .ok ({}, st.process s) := by
  unfold apply
  rw [h]
  simp only [if_pos hstatus]

theorem apply_of_succeeded (h : st.processedSnapshots.find s.snapshotID = none) :
    apply st s .succeeded policy order clock =
      .ok ((reconcile policy s (orNow s.completedAt clock) order st).summary,
        (reconcile policy s (orNow s.completedAt clock) order st).state.process s) := by
  unfold apply
  rw [h]
  rfl

def Call.reconciled (c : Call) (st : State) : State :=
  (reconcile c.policy c.snapshot (orNow c.snapshot.completedAt c.clock) c.order st).state

theorem Call.after_of_processed {c : Call} {hash : String}
    (h : st.processedSnapshots.find c.snapshot.snapshotID = some hash) : c.after st = st := by
  unfold Call.after Call.run
  rw [apply_of_processed h]
  split_ifs <;> rfl

theorem Call.after_of_unsucceeded {c : Call} (h : st.processedSnapshots.find c.snapshot.snapshotID = none)
    (hstatus : c.status ≠ .succeeded) : c.after st = st.process c.snapshot := by
  unfold Call.after Call.run
  rw [apply_of_unsucceeded h hstatus]

theorem Call.after_of_succeeded {c : Call} (h : st.processedSnapshots.find c.snapshot.snapshotID = none)
    (hstatus : c.status = .succeeded) : c.after st = (c.reconciled st).process c.snapshot := by
  unfold Call.after Call.run
  rw [hstatus, apply_of_succeeded h]
  rfl

theorem Call.after_cases (c : Call) (st : State) :
    c.after st = st ∨ c.after st = st.process c.snapshot ∨ c.after st = (c.reconciled st).process c.snapshot := by
  cases h : st.processedSnapshots.find c.snapshot.snapshotID with
  | some hash => exact .inl (after_of_processed h)
  | none =>
    by_cases hstatus : c.status = .succeeded
    · exact .inr (.inr (after_of_succeeded h hstatus))
    · exact .inr (.inl (after_of_unsucceeded h hstatus))

theorem Call.edits (c : Call) (st : State) : Edits c.snapshot st (c.reconciled st) := edits_reconcile ..

/-- What every edit and the processed mark preserve, every call preserves. -/
theorem Call.preserves {P : State → Prop} {c : Call} (h : P st) (hprocess : ∀ st, P st → P (st.process c.snapshot))
    (hedit : ∀ st st', Edit c.snapshot st st' → P st → P st') : P (c.after st) := by
  have hedits : ∀ st', Edits c.snapshot st st' → P st' := by
    intro st' hst'
    induction hst' with
    | refl => exact h
    | tail _ hstep ih => exact hedit _ _ hstep ih
  have hreconciled : P (c.reconciled st) := hedits _ (c.edits st)
  rcases c.after_cases st with he | he | he <;> rw [he]
  · exact h
  · exact hprocess st h
  · exact hprocess _ hreconciled

theorem run_append (calls : List Call) (c : Call) : run (calls ++ [c]) = c.after (run calls) := by
  simp [run]

/-- A property of every state reached: it holds of `NewState` and calls preserve it. -/
theorem run_induction {P : State → Prop} (h : P newState) (hstep : ∀ (c : Call) st, P st → P (c.after st))
    (calls : List Call) : P (run calls) := by
  induction calls using List.reverseRecOn with
  | nil => exact h
  | append_singleton calls c ih =>
    rw [run_append]
    exact hstep c _ ih

end Infragraph.Memory
