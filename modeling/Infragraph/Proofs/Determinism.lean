import Infragraph.Lib.Delimited
import Infragraph.Sanity.Apply
import Infragraph.Sanity.GoMap
import Infragraph.Sanity.Rounds

/-! When the in-memory `Apply` depends on the order in which Go iterates maps. The
loops over relationships and external IDs never do. The attribute loop does when
two attributes of an observation conflict and their effective values differ: the
one change that is recorded names the value that came first. -/

namespace Infragraph.Memory

variable {o o' : Observation} {w : Work} {e : String × Json}

structure Reordered (o o' : Observation) : Prop where
  entries : o'.attributes.entries.Perm o.attributes.entries
  isNil : o'.attributes.isNil = o.attributes.isNil
  rest : o' = { o with attributes := o'.attributes }

structure SnapshotReordered (s s' : SnapshotEnvelope) : Prop where
  assets : List.Forall₂ Reordered s.assets s'.assets
  rest : s' = { s with assets := s'.assets }

/-- All executions of a call give the same result. -/
def Deterministic (st : State) (s : SnapshotEnvelope) (status : SnapshotStatus) (policy : Policy) : Prop :=
  ∀ s₁ s₂ order₁ order₂ clock₁ clock₂, SnapshotReordered s s₁ → SnapshotReordered s s₂ →
    apply st s₁ status policy order₁ clock₁ = apply st s₂ status policy order₂ clock₂

/-- Unless the asset already has a conflict of this snapshot, all attributes of the
observation that conflict have one effective value. -/
def OneConflictValue (policy : Policy) (s : SnapshotEnvelope) (w : Work) (o : Observation) : Prop :=
  let id := assetIDOf w.state s o
  w.state.changes.find (changeKey s id "SOURCE_CONFLICT") = none →
    ∀ e ∈ o.attributes.entries, ∀ e' ∈ o.attributes.entries,
      (verdict policy s o id w.state e).conflict → (verdict policy s o id w.state e').conflict →
      (verdict policy s o id w.state e).value.toGo.marshal = (verdict policy s o id w.state e').value.toGo.marshal

theorem Reordered.externalID (h : Reordered o o') : o'.externalID = o.externalID := by rw [h.rest]

theorem name_reordered (h : Reordered o o') : name o' = name o := by
  have hhint : hintText o'.attributes = hintText o.attributes := by
    funext k
    unfold hintText
    rw [GoMap.get_perm h.entries]
  unfold name
  rw [hhint, h.externalID]

variable {policy : Policy} {s : SnapshotEnvelope} {now : Time}

theorem discover_reordered (h : Reordered o o') (w : Work) : discover s now o' w = discover s now o w := by
  have htype : o'.assetType = o.assetType := by rw [h.rest]
  unfold discover
  rw [name_reordered h, h.externalID, htype]

theorem identify_reordered (h : Reordered o o') (w : Work) : identify s now w o' = identify s now w o := by
  unfold identify
  rw [discover_reordered h, h.externalID]

theorem claimOf_reordered (h : Reordered o o') (id : String) : claimOf policy s o' id = claimOf policy s o id := by
  rw [h.rest]
  rfl

theorem changeKey_type_inj {id id' typ typ' : String} (ht : '|' ∉ typ.toList) (ht' : '|' ∉ typ'.toList)
    (h : changeKey s id typ = changeKey s id' typ') : typ = typ' := by
  unfold changeKey at h
  have hlist := congrArg (fun v => (String.toList v).reverse) h
  simp only [String.toList_append, List.reverse_append] at hlist
  have hbar : ("|".toList.reverse : List Char) = ['|'] := rfl
  rw [hbar] at hlist
  have hrev := (Delimited.mark_inj (by simpa using ht) (by simpa using ht') hlist).1
  rw [← String.toList_inj]
  exact List.reverse_injective hrev

theorem conflictKey_ne (s : SnapshotEnvelope) (id id' : String) {typ : String} (ht : '|' ∉ typ.toList)
    (hne : typ ≠ "SOURCE_CONFLICT") :
    changeKey s id typ ≠ changeKey s id' "SOURCE_CONFLICT" :=
  fun h => hne (changeKey_type_inj ht (by decide) h)

/-- Finding the asset neither records a conflict nor makes a claim. -/
theorem identify_conflicts (w : Work) (o : Observation) (id : String) :
    (identify s now w o).state.changes.find (changeKey s id "SOURCE_CONFLICT") =
        w.state.changes.find (changeKey s id "SOURCE_CONFLICT") ∧
      (identify s now w o).state.claims = w.state.claims := by
  unfold identify
  split_ifs
  · unfold discover
    simp only [addChange_eq, find_noted, if_neg (conflictKey_ne s _ id
      (show '|' ∉ "ASSET_DISCOVERED".toList by decide) (by decide)), and_self]
  · rw [touch_eq]
    simp only
    split_ifs
    · simp only [addChange_eq, find_noted, if_neg (conflictKey_ne s _ id
        (show '|' ∉ "ASSET_RETURNED".toList by decide) (by decide)), and_self]
    · exact ⟨rfl, rfl⟩

theorem verdict_start (w : Work) (o : Observation) (id : String) :
    verdict policy s o id (attributeStart s now w o).state = verdict policy s o id w.state := by
  funext e
  apply verdict_congr
  exact claimsAt_of_claims (identify_conflicts w o id).2 _

theorem conflictChange_congr {value value' : Json} (id : String) (h : value.toGo.marshal = value'.toGo.marshal) :
    conflictChange s id value = conflictChange s id value' := by
  unfold conflictChange changeOf
  rw [h]

theorem claimsMade_perm {id : String} {entries entries' : List (String × Json)} (h : entries.Perm entries')
    (hnodup : (entries.map Prod.fst).Nodup) (hone : w.state.changes.find (changeKey s id "SOURCE_CONFLICT") = none →
      ∀ e ∈ entries, ∀ e' ∈ entries, (verdict policy s o id w.state e).conflict →
        (verdict policy s o id w.state e').conflict →
        (verdict policy s o id w.state e).value.toGo.marshal =
          (verdict policy s o id w.state e').value.toGo.marshal) :
    claimsMade policy s o id w entries = claimsMade policy s o id w entries' := by
  have hperm : (conflicts policy s o id w.state entries).Perm (conflicts policy s o id w.state entries') :=
    h.filter _
  unfold claimsMade
  rw [claimsAfter_perm h hnodup]
  cases hc : conflicts policy s o id w.state entries with
  | nil =>
    rw [hc] at hperm
    rw [hperm.nil_eq]
  | cons e es =>
    cases hc' : conflicts policy s o id w.state entries' with
    | nil =>
      rw [hc, hc'] at hperm
      exact absurd hperm.eq_nil (List.cons_ne_nil _ _)
    | cons e' es' =>
      rw [hc, hc'] at hperm
      have he : e ∈ entries ∧ (verdict policy s o id w.state e).conflict = true :=
        List.mem_filter.mp (show e ∈ conflicts policy s o id w.state entries from hc ▸ .head _)
      have he' : e' ∈ entries' ∧ (verdict policy s o id w.state e').conflict = true :=
        List.mem_filter.mp (show e' ∈ conflicts policy s o id w.state entries' from hc' ▸ .head _)
      have hlength : es.length = es'.length := by simpa using hperm.length_eq
      have hnoted : noted w.state.changes (changeKey s id "SOURCE_CONFLICT")
            (conflictChange s id (verdict policy s o id w.state e).value) =
          noted w.state.changes (changeKey s id "SOURCE_CONFLICT")
            (conflictChange s id (verdict policy s o id w.state e').value) := by
        cases hfind : w.state.changes.find (changeKey s id "SOURCE_CONFLICT") with
        | some c => rw [noted_of_some hfind, noted_of_some hfind]
        | none => rw [conflictChange_congr id (hone hfind e he.1 e' (h.mem_iff.mpr he'.1) he.2 he'.2)]
      simp only [hnoted, hlength]

theorem observe_reordered (h : Reordered o o') (hone : OneConflictValue policy s w o) :
    observe policy s now w o' = observe policy s now w o := by
  have hid : assetIDOf w.state s o' = assetIDOf w.state s o := by
    unfold assetIDOf
    rw [h.externalID]
  have hstart : attributeStart s now w o' = attributeStart s now w o := by
    unfold attributeStart
    rw [identify_reordered h, h.externalID]
  have hclaim : claimAttribute policy s o' = claimAttribute policy s o := by
    funext id w e
    unfold claimAttribute
    rw [claimOf_reordered h]
  have hloop : observe policy s now w o' = claimsMade policy s o (assetIDOf w.state s o)
      (attributeStart s now w o) o'.attributes.entries := by
    rw [observe_eq, hclaim, claims_eq o'.attributes.nodup, hid]
    exact congrArg (fun w => claimsMade policy s o _ w _) hstart
  rw [hloop, observe_claimsMade]
  refine (claimsMade_perm h.entries.symm o.attributes.nodup ?_).symm
  rw [verdict_start]
  intro hfind
  exact hone ((identify_conflicts w o _).1.symm.trans hfind)

/-- A fold over the observations, each of which has one conflict value when it is reached. -/
theorem observes_reordered {l l' : List Observation} (h : List.Forall₂ Reordered l l')
    (hone : ∀ pre o post, l = pre ++ o :: post →
      OneConflictValue policy s (pre.foldl (observe policy s now) w) o) :
    l'.foldl (observe policy s now) w = l.foldl (observe policy s now) w := by
  induction h generalizing w with
  | nil => rfl
  | @cons o o' l l' ho _ ih =>
    have hfirst : OneConflictValue policy s w o := hone [] o l rfl
    rw [List.foldl_cons, observe_reordered ho hfirst]
    exact ih fun pre x post hsplit => hone (o :: pre) x post (by rw [hsplit]; rfl)

theorem settle_order (order order' : RangeOrder) (w : Work) :
    settle policy s now order w = settle policy s now order' w := by
  unfold settle
  simp only
  rw [removals_perm (order.relationships.perm order'.relationships _),
    absences_perm (order.externals.perm order'.externals _)]

theorem externals_reordered {l l' : List Observation} (h : List.Forall₂ Reordered l l') :
    l'.map (fun o => scope s ++ o.externalID) = l.map fun o => scope s ++ o.externalID := by
  induction h with
  | nil => rfl
  | cons ho _ ih => simp only [List.map_cons, ih, ho.externalID]

theorem settle_reordered {s' : SnapshotEnvelope} (h : SnapshotReordered s s') (order : RangeOrder) (w : Work) :
    settle policy s' now order w = settle policy s now order w := by
  have hseen : s'.assets.map (fun o => scope s ++ o.externalID) = s.assets.map fun o => scope s ++ o.externalID :=
    externals_reordered h.assets
  rw [h.rest]
  unfold settle
  simp only [← hseen]
  rfl

theorem reconcile_reordered {s' : SnapshotEnvelope} (h : SnapshotReordered s s') (order order' : RangeOrder)
    {st : State} (hone : ∀ pre o post, s.assets = pre ++ o :: post →
      OneConflictValue policy s (pre.foldl (observe policy s now) ⟨st, {}⟩) o) :
    reconcile policy s' now order st = reconcile policy s now order' st := by
  have hobserve : observe policy s' now = observe policy s now := by
    rw [h.rest]
    rfl
  rw [reconcile_eq, reconcile_eq, hobserve, observes_reordered h.assets hone, settle_reordered h,
    settle_order order order']

theorem exists_reordered (he : e ∈ o.attributes.entries) :
    ∃ o' rest, Reordered o o' ∧ o'.attributes.entries = e :: rest := by
  obtain ⟨before, after, hsplit⟩ := List.append_of_mem he
  have hperm : (e :: (before ++ after)).Perm o.attributes.entries := hsplit ▸ List.perm_middle.symm
  have hnodup : ((e :: (before ++ after)).map Prod.fst).Nodup :=
    (hperm.map Prod.fst).nodup_iff.mpr o.attributes.nodup
  have hnil : o.attributes.isNil = true → e :: (before ++ after) = [] := by
    intro h
    rw [o.attributes.nil_entries h] at he
    cases he
  exact ⟨{ o with attributes := ⟨e :: (before ++ after), hnodup, o.attributes.isNil, hnil⟩ }, before ++ after,
    ⟨hperm, rfl, rfl⟩, rfl⟩

theorem reordered_refl (o : Observation) : Reordered o o := ⟨.refl _, rfl, rfl⟩

/-- The change of a conflict names the value of the conflicting attribute that came first. -/
theorem observe_conflict (now : Time) {rest : List (String × Json)}
    (hfind : w.state.changes.find (changeKey s (assetIDOf w.state s o) "SOURCE_CONFLICT") = none)
    (hentries : o.attributes.entries = e :: rest)
    (hconflict : (verdict policy s o (assetIDOf w.state s o) w.state e).conflict = true) :
    (observe policy s now w o).state.changes.find (changeKey s (assetIDOf w.state s o) "SOURCE_CONFLICT") =
      some (conflictChange s (assetIDOf w.state s o) (verdict policy s o (assetIDOf w.state s o) w.state e).value) := by
  have hstart : (identify s now w o).state.changes.find (changeKey s (assetIDOf w.state s o) "SOURCE_CONFLICT") =
      w.state.changes.find (changeKey s (assetIDOf w.state s o) "SOURCE_CONFLICT") :=
    (identify_conflicts w o (assetIDOf w.state s o)).1
  rw [observe_claimsMade]
  generalize assetIDOf w.state s o = id at *
  have hconflicts : conflicts policy s o id (attributeStart s now w o).state o.attributes.entries =
      e :: conflicts policy s o id w.state rest := by
    unfold conflicts
    rw [verdict_start, hentries, List.filter_cons, if_pos hconflict]
  unfold claimsMade
  rw [hconflicts, verdict_start]
  simp only [find_noted, if_true]
  rw [show (attributeStart s now w o).state.changes.find (changeKey s id "SOURCE_CONFLICT") = none from
    hstart.trans hfind]
  rfl

theorem snapshotReordered_replace {pre post : List Observation} (hsplit : s.assets = pre ++ o :: post)
    (h : Reordered o o') : SnapshotReordered s { s with assets := pre ++ o' :: post } := by
  refine ⟨?_, rfl⟩
  rw [hsplit]
  exact List.rel_append (List.forall₂_same.mpr fun x _ => reordered_refl x)
    (.cons h (List.forall₂_same.mpr fun x _ => reordered_refl x))

theorem reconcile_conflict {pre : List Observation} (post : List Observation) {rest : List (String × Json)}
    (h : Reordered o o') (order : RangeOrder) {st : State} (hw : pre.foldl (observe policy s now) ⟨st, {}⟩ = w)
    (hfind : w.state.changes.find (changeKey s (assetIDOf w.state s o) "SOURCE_CONFLICT") = none)
    (hentries : o'.attributes.entries = e :: rest)
    (hconflict : (verdict policy s o (assetIDOf w.state s o) w.state e).conflict = true) :
    (reconcile policy { s with assets := pre ++ o' :: post } now order st).state.changes.find
        (changeKey s (assetIDOf w.state s o) "SOURCE_CONFLICT") =
      some (conflictChange s (assetIDOf w.state s o) (verdict policy s o (assetIDOf w.state s o) w.state e).value) := by
  have hid : assetIDOf w.state s o' = assetIDOf w.state s o := by
    unfold assetIDOf
    rw [h.externalID]
  have hverdict : verdict policy s o' = verdict policy s o := by
    funext id st e
    unfold verdict
    rw [claimOf_reordered h]
  rw [← hid] at hfind hconflict ⊢
  rw [← hverdict] at hconflict ⊢
  have hrecorded := observe_conflict now hfind hentries hconflict
  -- the rest of the call edits the state and leaves the change
  have hafter : Edits { s with assets := pre ++ o' :: post } (observe policy s now w o').state
      (post.foldl (observe policy s now) (observe policy s now w o')).state :=
    edits_observes (s := { s with assets := pre ++ o' :: post }) policy now
      (fun x hx => List.mem_append_right _ (.tail _ hx)) _
  have hfold : (pre ++ o' :: post).foldl (observe policy { s with assets := pre ++ o' :: post } now) ⟨st, {}⟩ =
      post.foldl (observe policy s now) (observe policy s now w o') := by
    rw [← hw, List.foldl_append]
    rfl
  rw [reconcile_eq, hfold]
  exact edits_keep_change (hafter.trans (edits_settle policy now order _)) hrecorded

/-- A call has one result, whatever the iteration orders, exactly when it is not
reconciled, or each observation, when it is reached, has one conflict value. -/
theorem apply_deterministic_iff (st : State) (status : SnapshotStatus) (policy : Policy)
    (hcompleted : s.completedAt ≠ 0) : Deterministic st s status policy ↔
      (st.processedSnapshots.find s.snapshotID = none → status = .succeeded →
        ∀ pre o post, s.assets = pre ++ o :: post →
          OneConflictValue policy s (pre.foldl (observe policy s s.completedAt) ⟨st, {}⟩) o) := by
  have hnow : ∀ clock, orNow s.completedAt clock = s.completedAt := fun clock => if_neg hcompleted
  constructor
  · intro hdet hfresh hstatus pre o post hsplit hfind e he e' he' hconflict hconflict'
    subst hstatus
    obtain ⟨o₁, rest₁, h₁, hentries₁⟩ := exists_reordered he
    obtain ⟨o₂, rest₂, h₂, hentries₂⟩ := exists_reordered he'
    have hrun := hdet _ _ .ascending .ascending 0 0 (snapshotReordered_replace hsplit h₁)
      (snapshotReordered_replace hsplit h₂)
    rw [apply_of_succeeded (s := { s with assets := pre ++ o₁ :: post }) hfresh,
      apply_of_succeeded (s := { s with assets := pre ++ o₂ :: post }) hfresh] at hrun
    have hrecorded₁ := reconcile_conflict post h₁ .ascending rfl hfind hentries₁ hconflict
    have hrecorded₂ := reconcile_conflict post h₂ .ascending rfl hfind hentries₂ hconflict'
    have hchanges := congrArg (fun r => State.changes (Prod.snd r)) (Except.ok.inj hrun)
    simp only [hnow] at hchanges
    have hsame : (reconcile policy { s with assets := pre ++ o₁ :: post } s.completedAt .ascending st).state.changes =
        (reconcile policy { s with assets := pre ++ o₂ :: post } s.completedAt .ascending st).state.changes := hchanges
    rw [hsame] at hrecorded₁
    exact congrArg Change.afterValue (Option.some.inj (hrecorded₁.symm.trans hrecorded₂))
  · intro hone
    suffices hsame : ∀ s' order clock, SnapshotReordered s s' →
        apply st s' status policy order clock = apply st s status policy .ascending 0 by
      intro s₁ s₂ order₁ order₂ clock₁ clock₂ h₁ h₂
      rw [hsame s₁ order₁ clock₁ h₁, hsame s₂ order₂ clock₂ h₂]
    intro s' order clock h
    have hid : s'.snapshotID = s.snapshotID := by rw [h.rest]
    have hhash : s'.contentHash = s.contentHash := by rw [h.rest]
    have htime : s'.completedAt = s.completedAt := by rw [h.rest]
    have hprocess : ∀ st : State, st.process s' = st.process s := by
      intro st
      unfold State.process
      rw [hid, hhash]
    cases hfind : st.processedSnapshots.find s.snapshotID with
    | some hash => rw [apply_of_processed (hid ▸ hfind), apply_of_processed hfind, hhash]
    | none =>
      by_cases hstatus : status = .succeeded
      · subst hstatus
        rw [apply_of_succeeded (hid ▸ hfind), apply_of_succeeded hfind, htime, hnow, hnow,
          reconcile_reordered h order .ascending (hone hfind rfl), hprocess]
      · rw [apply_of_unsucceeded (hid ▸ hfind) hstatus, apply_of_unsucceeded hfind hstatus, hprocess]

def noPolicy : Policy := ⟨GoMap.nil, 1⟩

def seenFirst (attributes : List (String × Json)) (h : (attributes.map Prod.fst).Nodup) (observedAt : Time) :
    Observation :=
  { externalID := "app", assetType := "APPLICATION", observedAt := observedAt, attributes := goMap attributes h
    identityHints := GoMap.nil }

def dockerSeen : Observation := seenFirst [("name", .str "web"), ("environment", .str "staging")] (by decide) 5000

def dockerSnapshot : SnapshotEnvelope := snapshotOf "docker-1" "docker" [dockerSeen] []

def cmdbSeen : Observation := seenFirst [("name", .str "shop"), ("environment", .str "production")] (by decide) 1000

def cmdbState : State :=
  (Call.mk (snapshotOf "cmdb-1" "cmdb" [cmdbSeen] []) .succeeded noPolicy .ascending 0).after newState

def renamedSeen : Observation := seenFirst [("environment", .str "production"), ("name", .str "web")] (by decide) 5000

/-- Of two attributes with earlier claims, only the name conflicts. -/
theorem apply_deterministic_renamed :
    Deterministic cmdbState (snapshotOf "docker-1" "docker" [renamedSeen] []) .succeeded noPolicy := by
  refine (apply_deterministic_iff cmdbState .succeeded noPolicy (by decide)).mpr ?_
  intro _ _ pre o post hsplit
  obtain ⟨rfl, hrest⟩ : pre = [] ∧ [renamedSeen] = o :: post := by
    cases pre with
    | nil => exact ⟨rfl, hsplit⟩
    | cons x pre =>
      have hlength := congrArg List.length hsplit
      simp [snapshotOf] at hlength
  obtain ⟨rfl, rfl⟩ := List.cons.inj hrest
  unfold OneConflictValue
  decide +kernel

def reversedSnapshot : SnapshotEnvelope :=
  snapshotOf "docker-1" "docker" [seenFirst [("environment", .str "staging"), ("name", .str "web")] (by decide) 5000] []

def recordedConflict (s : SnapshotEnvelope) : Option (List Char) :=
  match apply cmdbState s .succeeded noPolicy .ascending 0 with
  | .ok (_, st) => (st.changes.find "docker-1|asset-app|SOURCE_CONFLICT").map Change.afterValue
  | .error _ => none

/-- Two attributes conflict; the recorded value is that of the one iterated first. -/
theorem recorded_conflict_by_order : SnapshotReordered dockerSnapshot reversedSnapshot ∧
      recordedConflict dockerSnapshot = some (marshalString "web") ∧
      recordedConflict reversedSnapshot = some (marshalString "staging") := by
  refine ⟨?_, by decide +kernel, by decide +kernel⟩
  refine ⟨.cons ⟨List.Perm.swap _ _ _, rfl, rfl⟩ .nil, rfl⟩

end Infragraph.Memory
