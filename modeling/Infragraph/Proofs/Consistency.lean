import Infragraph.Sanity.Memory
import Infragraph.Lib.Delimited

/-! The maps of the in-memory engine agree with each other in every reachable
state, and claim lists only grow: an older claim changes at most by becoming
inactive. Both are read off the edits a call consists of. -/

namespace Infragraph.Memory

open Relation

theorem bar_not_kept {c : Char} (h : kept c = true) : c ≠ '|' := by
  intro hc
  subst hc
  exact absurd h (by decide)

theorem bar_not_mem_safe (v : String) : '|' ∉ (safe v).toList := by
  unfold safe
  simp only [String.toList_ofList, List.mem_reverse]
  intro h
  have hrunes := (List.dropWhile_sublist _).mem (List.mem_reverse.mp ((List.dropWhile_sublist _).mem h))
  obtain ⟨c, -, hc⟩ := List.mem_map.mp hrunes
  split_ifs at hc with hkept
  · exact bar_not_kept hkept hc
  · exact absurd hc (by decide)

theorem bar_not_mem_assetID (v : String) : '|' ∉ ("asset-" ++ safe v).toList := by
  rw [String.toList_append, List.mem_append, not_or]
  exact ⟨by decide, bar_not_mem_safe v⟩

theorem bar_inj {a a' k k' : String} (ha : '|' ∉ a.toList) (ha' : '|' ∉ a'.toList)
    (h : a ++ "|" ++ k = a' ++ "|" ++ k') : a = a' ∧ k = k' := by
  have hlist := congrArg String.toList h
  simp only [String.toList_append, List.append_assoc] at hlist
  have hbar : a.toList ++ '|' :: k.toList = a'.toList ++ '|' :: k'.toList := hlist
  obtain ⟨h₁, h₂⟩ := Delimited.mark_inj ha ha' hbar
  exact ⟨String.toList_inj.mp h₁, String.toList_inj.mp h₂⟩

structure Consistent (st : State) : Prop where
  /-- every value of `ExternalToAsset` is a key of `Assets` -/
  externals : ∀ key id, st.externalToAsset.find key = some id → id ∈ st.assets.keys
  relationships : ∀ key r, st.relationships.find key = some r →
    r.fromAssetID ∈ st.assets.keys ∧ r.toAssetID ∈ st.assets.keys
  /-- every claim sits under its own asset and attribute key, and its asset exists -/
  claims : ∀ ck, ∀ c ∈ st.claimsAt ck,
    ck = c.assetID ++ "|" ++ c.attributeKey ∧ c.assetID ∈ st.assets.keys
  /-- a list has at most one active claim of a connector -/
  active : ∀ ck, (st.claimsAt ck).Pairwise fun c c' => c.active → c'.active → c.connectorID ≠ c'.connectorID
  /-- asset IDs have no bar -/
  plainExternals : ∀ key id, st.externalToAsset.find key = some id → '|' ∉ id.toList
  plainClaims : ∀ ck, ∀ c ∈ st.claimsAt ck, '|' ∉ c.assetID.toList

theorem consistent_newState : Consistent newState where
  externals _ _ h := by cases h
  relationships _ _ h := by cases h
  claims _ _ h := by cases h
  active _ := List.Pairwise.nil
  plainExternals _ _ h := by cases h
  plainClaims _ _ h := by cases h

theorem claimsAt_set (st : State) (ck ck' : String) (cs : List AttributeClaim) :
    State.claimsAt { st with claims := st.claims.set ck cs } ck' = if ck = ck' then cs else st.claimsAt ck' := by
  unfold State.claimsAt
  rw [Dict.find_set]
  split_ifs <;> rfl

section

variable {connectorID : String} {c : AttributeClaim}

@[simp] theorem deactivate_assetID : (deactivate connectorID c).assetID = c.assetID := by
  unfold deactivate
  split_ifs <;> rfl

@[simp] theorem deactivate_attributeKey : (deactivate connectorID c).attributeKey = c.attributeKey := by
  unfold deactivate
  split_ifs <;> rfl

@[simp] theorem deactivate_connectorID : (deactivate connectorID c).connectorID = c.connectorID := by
  unfold deactivate
  split_ifs <;> rfl

theorem deactivate_active : (deactivate connectorID c).active ↔ c.active ∧ c.connectorID ≠ connectorID := by
  unfold deactivate
  split_ifs with h <;> simp [h]

end

variable {s : SnapshotEnvelope} {st st' : State}

theorem Consistent.setAsset (h : Consistent st) (id : String) (a : Asset) :
    Consistent { st with assets := st.assets.set id a } where
  externals key id' hid := Dict.mem_keys_set.mpr (.inr (h.externals key id' hid))
  relationships key r hr :=
    (h.relationships key r hr).imp (Dict.mem_keys_set.mpr ∘ .inr) (Dict.mem_keys_set.mpr ∘ .inr)
  claims ck c hc := (h.claims ck c hc).imp_right (Dict.mem_keys_set.mpr ∘ .inr)
  active := h.active
  plainExternals := h.plainExternals
  plainClaims := h.plainClaims

theorem Consistent.discover (h : Consistent st) (key external : String) (a : Asset) : Consistent
      { st with externalToAsset := st.externalToAsset.set key ("asset-" ++ safe external)
                assets := st.assets.set ("asset-" ++ safe external) a } := by
  have hasset := h.setAsset ("asset-" ++ safe external) a
  refine ⟨?_, hasset.relationships, hasset.claims, h.active, ?_, h.plainClaims⟩
  · intro key' id hid
    simp only [Dict.find_set] at hid
    split_ifs at hid with hk
    · cases hid
      exact Dict.mem_keys_set.mpr (.inl rfl)
    · exact hasset.externals key' id hid
  · intro key' id hid
    simp only [Dict.find_set] at hid
    split_ifs at hid with hk
    · cases hid
      exact bar_not_mem_assetID external
    · exact h.plainExternals key' id hid

theorem Consistent.setRelationship (h : Consistent st) (key : String) {r : Relationship}
    (hends : r.fromAssetID ∈ st.assets.keys ∧ r.toAssetID ∈ st.assets.keys) :
    Consistent { st with relationships := st.relationships.set key r } := by
  refine ⟨h.externals, ?_, h.claims, h.active, h.plainExternals, h.plainClaims⟩
  intro key' r' hr
  simp only [Dict.find_set] at hr
  split_ifs at hr with hk
  · cases hr
    exact hends
  · exact h.relationships key' r' hr

theorem mem_claimed {cs : List AttributeClaim} {c c' : AttributeClaim} (h : c' ∈ claimed cs c) :
    c' = c ∨ ∃ old ∈ cs, deactivate c.connectorID old = c' := by
  rcases List.mem_append.mp h with h | h
  · exact .inr (List.mem_map.mp h)
  · exact .inl (List.mem_singleton.mp h)

/-- What holds of every claim holds of them with one more. -/
theorem forall_claimed {P : String → AttributeClaim → Prop} {c : AttributeClaim} {key : String}
    (h : ∀ ck, ∀ c ∈ st.claimsAt ck, P ck c) (hnew : P key c)
    (hold : ∀ old, P key old → P key (deactivate c.connectorID old)) (ck : String) :
    ∀ c' ∈ State.claimsAt { st with claims := st.claims.set key (claimed (st.claimsAt key) c) } ck, P ck c' := by
  intro c' hc'
  rw [claimsAt_set] at hc'
  split_ifs at hc' with hck
  · subst hck
    rcases mem_claimed hc' with rfl | ⟨old, hmem, rfl⟩
    · exact hnew
    · exact hold old (h _ old hmem)
  · exact h ck c' hc'

theorem Consistent.claim (h : Consistent st) {c : AttributeClaim} (hasset : c.assetID ∈ st.assets.keys)
    (hplain : '|' ∉ c.assetID.toList) :
    Consistent { st with claims := st.claims.set (c.assetID ++ "|" ++ c.attributeKey)
                           (claimed (st.claimsAt (c.assetID ++ "|" ++ c.attributeKey)) c) } := by
  refine ⟨h.externals, h.relationships, forall_claimed h.claims ⟨rfl, hasset⟩ fun _ hold => by simpa using hold, ?_,
    h.plainExternals, forall_claimed h.plainClaims hplain fun _ hold => by simpa using hold⟩
  intro ck
  rw [claimsAt_set]
  split_ifs with hck
  · -- the kept claims were pairwise fine before, and none of the connector is active any more
    rw [claimed, List.pairwise_append]
    refine ⟨?_, List.pairwise_singleton _ _, ?_⟩
    · rw [List.pairwise_map]
      refine (h.active _).imp ?_
      intro x y hxy hx hy
      simpa using hxy (deactivate_active.mp hx).1 (deactivate_active.mp hy).1
    · intro x hx y hy hactive _
      obtain ⟨old, -, rfl⟩ := List.mem_map.mp hx
      rw [List.mem_singleton.mp hy, deactivate_connectorID]
      exact (deactivate_active.mp hactive).2
  · exact h.active ck

theorem Consistent.edit (h : Consistent st) (he : Edit s st st') : Consistent st' := by
  cases he with
  | change key c => exact ⟨h.externals, h.relationships, h.claims, h.active, h.plainExternals, h.plainClaims⟩
  | discover a ho hnew horg => exact h.discover _ _ a
  | asset a hid horg => exact h.setAsset _ a
  | absences external n => exact ⟨h.externals, h.relationships, h.claims, h.active, h.plainExternals, h.plainClaims⟩
  | claim c hid hasset hconnector =>
    subst hasset
    exact h.claim (h.externals _ _ hid) (h.plainExternals _ _ hid)
  | relate rest r hsource htarget =>
    exact h.setRelationship _ ⟨h.externals _ _ hsource, h.externals _ _ htarget⟩
  | relationship r hold hfrom hto =>
    refine h.setRelationship _ ?_
    rw [hfrom, hto]
    exact h.relationships _ _ hold

theorem Consistent.after (h : Consistent st) (c : Call) : Consistent (c.after st) :=
  c.preserves h
    (fun _ h => ⟨h.externals, h.relationships, h.claims, h.active, h.plainExternals, h.plainClaims⟩)
    (fun _ _ he h => h.edit he)

theorem consistent_run (calls : List Call) : Consistent (run calls) :=
  run_induction consistent_newState (fun c _ h => h.after c) calls

theorem Consistent.active_unique (h : Consistent st) {ck ck' : String} {i j : ℕ} {c c' : AttributeClaim}
    (hi : (st.claimsAt ck)[i]? = some c) (hj : (st.claimsAt ck')[j]? = some c') (hc : c.active) (hc' : c'.active)
    (hasset : c.assetID = c'.assetID) (hkey : c.attributeKey = c'.attributeKey)
    (hconnector : c.connectorID = c'.connectorID) : ck = ck' ∧ i = j := by
  have hck : ck = ck' := by
    rw [(h.claims ck c (List.mem_of_getElem? hi)).1, (h.claims ck' c' (List.mem_of_getElem? hj)).1, hasset, hkey]
  subst hck
  refine ⟨rfl, ?_⟩
  obtain ⟨hilt, hi⟩ := List.getElem?_eq_some_iff.mp hi
  obtain ⟨hjlt, hj⟩ := List.getElem?_eq_some_iff.mp hj
  have hpair := List.pairwise_iff_getElem.mp (h.active ck)
  rcases Nat.lt_trichotomy i j with hij | hij | hij
  · exact absurd hconnector (hi ▸ hj ▸ hpair i j hilt hjlt hij (hi ▸ hc) (hj ▸ hc'))
  · exact hij
  · exact absurd hconnector.symm (hi ▸ hj ▸ hpair j i hjlt hilt hij (hj ▸ hc') (hi ▸ hc))

theorem Consistent.claims_own (h : Consistent st) {ck : String} {c c' : AttributeClaim} (hc : c ∈ st.claimsAt ck)
    (hc' : c' ∈ st.claimsAt ck) : c.assetID = c'.assetID ∧ c.attributeKey = c'.attributeKey :=
  bar_inj (h.plainClaims ck c hc) (h.plainClaims ck c' hc')
    ((h.claims ck c hc).1.symm.trans (h.claims ck c' hc').1)

/-- The claim as it was, or turned from active to inactive. -/
def Retires (c c' : AttributeClaim) : Prop := c' = c ∨ c.active = true ∧ c' = { c with active := false }

theorem Retires.trans {a b c : AttributeClaim} (h : Retires a b) (h' : Retires b c) : Retires a c := by
  rcases h with rfl | ⟨ha, rfl⟩
  · exact h'
  · rcases h' with rfl | ⟨hb, -⟩
    · exact .inr ⟨ha, rfl⟩
    · exact absurd hb Bool.false_ne_true

theorem retires_deactivate (connectorID : String) (c : AttributeClaim) : Retires c (deactivate connectorID c) := by
  unfold deactivate
  split_ifs
  · cases hc : c.active with
    | true => exact .inr ⟨hc, rfl⟩
    | false => exact .inl (by rw [← hc])
  · exact .inl rfl

/-- The old claims, each at its place and at most retired, and new ones after them. -/
def Appends (cs cs' : List AttributeClaim) : Prop :=
  ∃ kept new, cs' = kept ++ new ∧ List.Forall₂ Retires cs kept

theorem forall₂_retires_refl (cs : List AttributeClaim) : List.Forall₂ Retires cs cs :=
  List.forall₂_same.mpr fun _ _ => .inl rfl

theorem forall₂_retires_trans {a b c : List AttributeClaim} (h : List.Forall₂ Retires a b)
    (h' : List.Forall₂ Retires b c) : List.Forall₂ Retires a c := by
  induction h generalizing c with
  | nil => exact h'
  | cons hxy _ ih =>
    cases h' with
    | cons hyz hrest => exact .cons (hxy.trans hyz) (ih hrest)

theorem Appends.refl (cs : List AttributeClaim) : Appends cs cs :=
  ⟨cs, [], (List.append_nil cs).symm, forall₂_retires_refl cs⟩

theorem Appends.trans {a b c : List AttributeClaim} (h : Appends a b) (h' : Appends b c) : Appends a c := by
  obtain ⟨kept, new, rfl, hkept⟩ := h
  obtain ⟨kept', new', rfl, hkept'⟩ := h'
  refine ⟨kept'.take kept.length, kept'.drop kept.length ++ new', ?_, ?_⟩
  · rw [← List.append_assoc, List.take_append_drop]
  · have htake := List.forall₂_take kept.length hkept'
    rw [List.take_left] at htake
    exact forall₂_retires_trans hkept htake

theorem appends_claimed (cs : List AttributeClaim) (c : AttributeClaim) : Appends cs (claimed cs c) := by
  refine ⟨cs.map (deactivate c.connectorID), [c], rfl, ?_⟩
  rw [List.forall₂_map_right_iff, List.forall₂_same]
  exact fun old _ => retires_deactivate c.connectorID old

theorem appends_edit (he : Edit s st st') (ck : String) : Appends (st.claimsAt ck) (st'.claimsAt ck) := by
  cases he with
  | claim c hid hasset hconnector =>
    rw [claimsAt_set]
    split_ifs with hck
    · rw [← hck]
      exact appends_claimed ..
    · exact .refl _
  | change => exact .refl _
  | discover => exact .refl _
  | asset => exact .refl _
  | absences => exact .refl _
  | relate => exact .refl _
  | relationship => exact .refl _

theorem appends_after (c : Call) (st : State) (ck : String) : Appends (st.claimsAt ck) ((c.after st).claimsAt ck) :=
  c.preserves (P := fun st' => Appends (st.claimsAt ck) (st'.claimsAt ck)) (.refl _) (fun _ h => h)
    (fun _ _ he h => h.trans (appends_edit he ck))

/-- In every reachable state the maps are consistent, no list mixes assets or
attributes, at most one claim of an asset, attribute and connector is active, and
the next call only appends claims. -/
theorem reachable_consistent (calls : List Call) : Consistent (run calls) ∧
    (∀ ck, ∀ c ∈ (run calls).claimsAt ck, ∀ c' ∈ (run calls).claimsAt ck,
      c.assetID = c'.assetID ∧ c.attributeKey = c'.attributeKey) ∧
    (∀ ck ck' (i j : ℕ) (c c' : AttributeClaim), ((run calls).claimsAt ck)[i]? = some c →
      ((run calls).claimsAt ck')[j]? = some c' → c.active → c'.active → c.assetID = c'.assetID →
      c.attributeKey = c'.attributeKey →
      c.connectorID = c'.connectorID → ck = ck' ∧ i = j) ∧
    ∀ (c : Call) ck, Appends ((run calls).claimsAt ck) ((c.after (run calls)).claimsAt ck) := by
  have h := consistent_run calls
  refine ⟨h, ?_, ?_, ?_⟩
  · intro ck c hc c' hc'
    exact h.claims_own hc hc'
  · intro ck ck' i j c c' hi hj hc hc' hasset hkey hconnector
    exact h.active_unique hi hj hc hc' hasset hkey hconnector
  · intro c ck
    exact appends_after c _ ck

end Infragraph.Memory
