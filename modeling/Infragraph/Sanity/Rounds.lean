import Infragraph.Sanity.Loops

/-! One round of the asset loop and one of the relationship loop of the in-memory
`Apply`: what they write, field by field. -/

namespace Infragraph.Memory

variable {policy : Policy} {s : SnapshotEnvelope} {now : Time}

def attributeStart (s : SnapshotEnvelope) (now : Time) (w : Work) (o : Observation) : Work :=
  (identify s now w o).setAbsences (scope s ++ o.externalID) 0

theorem observe_claimsMade (w : Work) (o : Observation) : observe policy s now w o =
      claimsMade policy s o (assetIDOf w.state s o) (attributeStart s now w o) o.attributes.entries := by
  rw [observe_eq, claims_eq o.attributes.nodup]
  rfl

def Unmapped (st : State) (s : SnapshotEnvelope) (o : Observation) : Prop :=
  st.assetOf (scope s ++ o.externalID) = ""

instance (st : State) (o : Observation) : Decidable (Unmapped st s o) := inferInstanceAs (Decidable (_ = _))

def discovered (s : SnapshotEnvelope) (now : Time) (o : Observation) : Asset :=
  { id := "asset-" ++ safe o.externalID, organizationID := s.organizationID, canonicalName := name o
    displayName := name o, type := o.assetType, status := .active, firstSeenAt := now, lastSeenAt := now
    createdAt := now, updatedAt := now }

def identified (s : SnapshotEnvelope) (now : Time) (st : State) (o : Observation) : Asset :=
  if Unmapped st s o then discovered s now o else (st.assetAt (assetIDOf st s o)).touched now

structure Identified (s : SnapshotEnvelope) (now : Time) (o : Observation) (w w' : Work) : Prop where
  externals : w'.state.externalToAsset =
    if Unmapped w.state s o then w.state.externalToAsset.set (scope s ++ o.externalID) (assetIDOf w.state s o)
    else w.state.externalToAsset
  assets : w'.state.assets = w.state.assets.set (assetIDOf w.state s o) (identified s now w.state o)
  absences : w'.state.successfulAbsences = w.state.successfulAbsences.set (scope s ++ o.externalID) 0
  state : w'.state = { w.state with
    externalToAsset := w'.state.externalToAsset, assets := w'.state.assets
    successfulAbsences := w'.state.successfulAbsences, changes := w'.state.changes }
  summary : w'.summary = { w.summary with
    created := w.summary.created + if Unmapped w.state s o then 1 else 0
    updated := w.summary.updated +
      if ¬ Unmapped w.state s o ∧ (w.state.assetAt (assetIDOf w.state s o)).status = .missing then 1 else 0
    unchanged := w.summary.unchanged +
      if ¬ Unmapped w.state s o ∧ (w.state.assetAt (assetIDOf w.state s o)).status ≠ .missing then 1 else 0
    changes := w'.summary.changes }

theorem attributeStart_identified (s : SnapshotEnvelope) (now : Time) (w : Work) (o : Observation) :
    Identified s now o w (attributeStart s now w o) := by
  unfold attributeStart identify
  by_cases hnew : w.state.assetOf (scope s ++ o.externalID) = ""
  · have hid : assetIDOf w.state s o = "asset-" ++ safe o.externalID := if_pos hnew
    have hU : Unmapped w.state s o := hnew
    rw [if_pos hnew]
    unfold discover
    simp only [addChange_eq, Work.setAbsences]
    refine ⟨?_, ?_, rfl, rfl, ?_⟩
    · simp [hU, hid]
    · simp only [identified, hU, if_true, hid]
      rfl
    · simp [hU]
  · have hid : assetIDOf w.state s o = w.state.assetOf (scope s ++ o.externalID) := if_neg hnew
    have hU : ¬ Unmapped w.state s o := hnew
    rw [if_neg hnew, touch_eq, ← hid]
    simp only
    split_ifs with hmissing
    · simp only [addChange_eq, Work.setAbsences]
      refine ⟨?_, ?_, rfl, rfl, ?_⟩
      · simp [hU]
      · simp [identified, hU, State.assetAt]
      · simp [hU, State.assetAt, hmissing]
    · simp only [Work.setAbsences]
      refine ⟨?_, ?_, rfl, rfl, ?_⟩
      · simp [hU]
      · simp [identified, hU, State.assetAt]
      · simp [hU, State.assetAt, hmissing]

structure Seen (policy : Policy) (s : SnapshotEnvelope) (now : Time) (o : Observation) (w w' : Work) : Prop where
  externals : w'.state.externalToAsset =
    if Unmapped w.state s o then w.state.externalToAsset.set (scope s ++ o.externalID) (assetIDOf w.state s o)
    else w.state.externalToAsset
  assets : w'.state.assets = w.state.assets.set (assetIDOf w.state s o)
    (if conflicts policy s o (assetIDOf w.state s o) w.state o.attributes.entries = [] then identified s now w.state o
      else (identified s now w.state o).conflicted)
  claims : w'.state.claims = claimsAfter policy s o (assetIDOf w.state s o) w.state w.state.claims o.attributes.entries
  absences : w'.state.successfulAbsences = w.state.successfulAbsences.set (scope s ++ o.externalID) 0
  state : w'.state = { w.state with
    externalToAsset := w'.state.externalToAsset, assets := w'.state.assets, claims := w'.state.claims
    successfulAbsences := w'.state.successfulAbsences, changes := w'.state.changes }
  summary : w'.summary = { w.summary with
    created := w.summary.created + if Unmapped w.state s o then 1 else 0
    updated := w.summary.updated +
      if ¬ Unmapped w.state s o ∧ (w.state.assetAt (assetIDOf w.state s o)).status = .missing then 1 else 0
    unchanged := w.summary.unchanged +
      if ¬ Unmapped w.state s o ∧ (w.state.assetAt (assetIDOf w.state s o)).status ≠ .missing then 1 else 0
    conflicting := w.summary.conflicting +
      (conflicts policy s o (assetIDOf w.state s o) w.state o.attributes.entries).length
    changes := w'.summary.changes }

theorem conflicts_congr {o : Observation} {id : String} {st st' : State} (h : st.claims = st'.claims)
    (entries : List (String × Json)) : conflicts policy s o id st entries = conflicts policy s o id st' entries := by
  apply List.filter_congr
  intro e _
  rw [verdict_congr (claimsAt_of_claims h _)]

theorem observe_seen (policy : Policy) (s : SnapshotEnvelope) (now : Time) (w : Work) (o : Observation) :
    Seen policy s now o w (observe policy s now w o) := by
  have h := attributeStart_identified s now w o
  have hclaims : (attributeStart s now w o).state.claims = w.state.claims := by rw [h.state]
  have hafter : claimsAfter policy s o (assetIDOf w.state s o) (attributeStart s now w o).state
        (attributeStart s now w o).state.claims o.attributes.entries =
      claimsAfter policy s o (assetIDOf w.state s o) w.state w.state.claims o.attributes.entries := by
    rw [claimsAfter_congr (fun e _ => claimsAt_of_claims hclaims _), hclaims]
  rw [observe_claimsMade]
  unfold claimsMade
  rw [conflicts_congr hclaims, hafter]
  cases hc : conflicts policy s o (assetIDOf w.state s o) w.state o.attributes.entries with
  | nil =>
    refine ⟨h.externals, ?_, rfl, h.absences, ?_, ?_⟩
    · rw [if_pos hc]
      exact h.assets
    · rw [h.state]
    · rw [hc]
      simpa using h.summary
  | cons e es =>
    refine ⟨h.externals, ?_, rfl, h.absences, ?_, ?_⟩
    · rw [hc]
      simp [h.assets, Dict.set_set]
    · rw [h.state]
    · rw [h.summary, hc]
      simp

def related (s : SnapshotEnvelope) (now : Time) (st : State) (r : RelationshipObservation) (key : String) :
    Relationship :=
  match st.relationships.find key with
  | none =>
    { id := "relationship-" ++ safe key, organizationID := s.organizationID
      fromAssetID := st.assetOf (scope s ++ r.externalFromID), toAssetID := st.assetOf (scope s ++ r.externalToID)
      type := r.type, status := .active, firstSeenAt := now, lastSeenAt := now, createdAt := now, updatedAt := now }
  | some old => { old with status := .active, lastSeenAt := now, updatedAt := now }

theorem related_active (st : State) (r : RelationshipObservation) (key : String) :
    (related s now st r key).status = .active := by
  unfold related
  split <;> rfl

theorem relate_of_none {w : Work} {r : RelationshipObservation} (h : relationshipKey s w.state r = none) :
    relate s now w r = w := by
  unfold relate
  rw [h]

structure Joined (s : SnapshotEnvelope) (now : Time) (r : RelationshipObservation) (key : String) (w w' : Work) :
    Prop where
  relationships : w'.state.relationships = w.state.relationships.set key (related s now w.state r key)
  state : w'.state = { w.state with relationships := w'.state.relationships, changes := w'.state.changes }
  summary : w'.summary = { w.summary with
    relationshipsCreated := w.summary.relationshipsCreated +
      if w.state.relationships.find key = none then 1 else 0
    changes := w'.summary.changes }

theorem relate_joined {w : Work} {r : RelationshipObservation} {key : String}
    (h : relationshipKey s w.state r = some key) : Joined s now r key w (relate s now w r) := by
  unfold relate
  rw [h]
  simp only
  cases hfind : w.state.relationships.find key with
  | none =>
    simp only [addChange_eq]
    refine ⟨?_, rfl, ?_⟩
    · simp [related, hfind]
    · simp [hfind]
  | some old =>
    refine ⟨?_, rfl, ?_⟩
    · simp [related, hfind]
    · simp [hfind]

theorem relationshipKey_congr {st st' : State} (h : st.externalToAsset = st'.externalToAsset)
    (r : RelationshipObservation) : relationshipKey s st r = relationshipKey s st' r := by
  unfold relationshipKey State.assetOf
  rw [h]

structure Linked (s : SnapshotEnvelope) (seen : List String) (w w' : Work) : Prop where
  others : ∀ key, key ∉ seen → w'.state.relationships.find key = w.state.relationships.find key
  active : ∀ key ∈ seen, ∃ r, w'.state.relationships.find key = some r ∧ r.status = .active
  created : w'.state.relationships.keys.card + w.summary.relationshipsCreated =
    w.state.relationships.keys.card + w'.summary.relationshipsCreated
  state : w'.state = { w.state with relationships := w'.state.relationships, changes := w'.state.changes }
  summary : w'.summary = { w.summary with
    relationshipsCreated := w'.summary.relationshipsCreated, changes := w'.summary.changes }

theorem Linked.refl (w : Work) : Linked s [] w w :=
  ⟨fun _ _ => rfl, fun _ h => absurd h List.not_mem_nil, rfl, rfl, rfl⟩

theorem Joined.linked {w w' : Work} {r : RelationshipObservation} {key : String} (h : Joined s now r key w w') :
    Linked s [key] w w' := by
  refine ⟨?_, ?_, ?_, h.state, ?_⟩
  · intro key' hkey'
    rw [h.relationships, Dict.find_set_of_ne _ _ fun he => hkey' (by simp [he])]
  · intro key' hkey'
    rw [List.mem_singleton.mp hkey', h.relationships]
    exact ⟨_, Dict.find_set_self .., related_active ..⟩
  · rw [h.relationships, h.summary, Dict.keys_set]
    by_cases hfind : w.state.relationships.find key = none
    · rw [if_pos hfind, Finset.card_insert_of_notMem (Dict.find_eq_none.mp hfind)]
      simp only
      omega
    · have hmem : key ∈ w.state.relationships.keys := by
        by_contra hno
        exact hfind (Dict.find_eq_none.mpr hno)
      rw [if_neg hfind, Finset.insert_eq_of_mem hmem]
      rfl
  · rw [h.summary]

theorem Linked.trans {seen seen' : List String} {w w' w'' : Work} (h : Linked s seen w w')
    (h' : Linked s seen' w' w'') : Linked s (seen ++ seen') w w'' := by
  refine ⟨?_, ?_, ?_, ?_, ?_⟩
  · intro key hkey
    rw [List.mem_append, not_or] at hkey
    rw [h'.others key hkey.2, h.others key hkey.1]
  · intro key hkey
    by_cases hin : key ∈ seen'
    · exact h'.active key hin
    · rw [h'.others key hin]
      exact h.active key ((List.mem_append.mp hkey).resolve_right hin)
  · have := h.created
    have := h'.created
    omega
  · rw [h'.state, h.state]
  · rw [h'.summary, h.summary]

theorem relate_linked (s : SnapshotEnvelope) (now : Time) (w : Work) (r : RelationshipObservation) :
    Linked s (relationshipKey s w.state r).toList w (relate s now w r) := by
  cases h : relationshipKey s w.state r with
  | none =>
    rw [relate_of_none h]
    exact .refl w
  | some key => exact (relate_joined h).linked

theorem relates_linked (s : SnapshotEnvelope) (now : Time) (l : List RelationshipObservation) (w : Work) :
    Linked s (l.filterMap (relationshipKey s w.state)) w (l.foldl (relate s now) w) := by
  induction l generalizing w with
  | nil => exact .refl w
  | cons r l ih =>
    have hr := relate_linked s now w r
    have hkeys : l.filterMap (relationshipKey s (relate s now w r).state) = l.filterMap (relationshipKey s w.state) := by
      apply List.filterMap_congr
      intro r' _
      apply relationshipKey_congr
      rw [hr.state]
    have hl := ih (relate s now w r)
    rw [hkeys] at hl
    have hcons : (r :: l).filterMap (relationshipKey s w.state) =
        (relationshipKey s w.state r).toList ++ l.filterMap (relationshipKey s w.state) := by
      cases h : relationshipKey s w.state r <;> simp [h]
    rw [hcons]
    exact hr.trans hl

/-- The loops after the asset loop, one by one. -/
theorem settle_loops (policy : Policy) (s : SnapshotEnvelope) (now : Time) (order : RangeOrder) (w : Work) :
    ∃ w₂ w₃, Linked s (s.relationships.filterMap (relationshipKey s w.state)) w w₂ ∧
      Removed s now (s.relationships.filterMap (relationshipKey s w.state))
        (order.relationships.list w₂.state.relationships.keys) w₂ w₃ ∧
      Absent policy s now (s.assets.map fun o => scope s ++ o.externalID)
        (order.externals.list w₃.state.externalToAsset.keys) w₃ (settle policy s now order w) :=
  ⟨_, _, relates_linked s now s.relationships w, removed_foldl s now _ (order.relationships.nodup _) _,
    absent_foldl policy s now _ (order.externals.nodup _) _⟩

end Infragraph.Memory
