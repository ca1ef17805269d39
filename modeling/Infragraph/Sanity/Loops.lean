import Infragraph.Sanity.Memory

/-! The loops of the in-memory `Apply` that range over a map. The attribute loop
has a closed form: distinct attributes write distinct claim lists, and of the
changes it adds only the first stays. Rounds of the other two loops commute. -/

namespace Infragraph.Memory

variable {key : String} {st st' : State} {entries : List (String × Json)} {keys : List String}

section

variable (m : Dict String Change)
include m

theorem noted_noted (key : String) (c c' : Change) : noted (noted m key c) key c' = noted m key c := by
  have h : (noted m key c).find key = some ((m.find key).getD c) := by rw [find_noted, if_pos rfl]
  rw [noted_of_some h]

theorem unnoted_noted (key : String) (c : Change) : unnoted (noted m key c) key = 0 := by
  have h : (noted m key c).find key = some ((m.find key).getD c) := by rw [find_noted, if_pos rfl]
  simp [unnoted, h]

theorem unnoted_noted_of_ne {key' : String} (c : Change) (h : key ≠ key') :
    unnoted (noted m key c) key' = unnoted m key' := by
  simp [unnoted, find_noted, h]

theorem noted_comm {key' : String} (c c' : Change) (h : key ≠ key') :
    noted (noted m key c) key' c' = noted (noted m key' c') key c := by
  apply Dict.ext_find
  intro k
  simp only [find_noted]
  by_cases hk : key = k
  · subst hk
    simp [Ne.symm h]
  · by_cases hk' : key' = k <;> simp [hk, hk']

end

theorem changeKey_inj {s : SnapshotEnvelope} {id id' typ : String} (h : changeKey s id typ = changeKey s id' typ) :
    id = id' := by
  unfold changeKey at h
  simpa [String.toList_append] using h

section

variable (policy : Policy) (s : SnapshotEnvelope) (o : Observation) (id : String)

/-- What `Effective` says of an attribute once its claim is added. -/
def verdict (st : State) (e : String × Json) : EffectiveAttribute :=
  effective (claimed (st.claimsAt (id ++ "|" ++ e.1)) (claimOf policy s o id e)) e.1 policy

def conflicts (st : State) (entries : List (String × Json)) : List (String × Json) :=
  entries.filter fun e => (verdict policy s o id st e).conflict

def claimsAfter (st : State) (m : Dict String (List AttributeClaim)) (entries : List (String × Json)) :
    Dict String (List AttributeClaim) :=
  entries.foldl (fun m e => m.set (id ++ "|" ++ e.1)
    (claimed (st.claimsAt (id ++ "|" ++ e.1)) (claimOf policy s o id e))) m

end

def Asset.conflicted (a : Asset) : Asset := { a with status := .conflicting }

section

variable {policy : Policy} {s : SnapshotEnvelope} {o : Observation} {id : String}

def conflictChange (s : SnapshotEnvelope) (id : String) (value : Json) : Change :=
  changeOf s id "SOURCE_CONFLICT" .null value.toGo "source claims conflict"

theorem claimAttribute_eq (w : Work) (e : String × Json) : claimAttribute policy s o id w e =
      if (verdict policy s o id w.state e).conflict then
        { state := { w.state with
            claims := claimsAfter policy s o id w.state w.state.claims [e]
            assets := w.state.assets.set id ((w.state.assets.find id).getD .zero).conflicted
            changes := noted w.state.changes (changeKey s id "SOURCE_CONFLICT")
              (conflictChange s id (verdict policy s o id w.state e).value) }
          summary := { w.summary with
            conflicting := w.summary.conflicting + 1
            changes := w.summary.changes + unnoted w.state.changes (changeKey s id "SOURCE_CONFLICT") } }
      else { w with state := { w.state with claims := claimsAfter policy s o id w.state w.state.claims [e] } } := by
  unfold claimAttribute
  simp only [addChange_eq]
  rfl

def claimsMade (policy : Policy) (s : SnapshotEnvelope) (o : Observation) (id : String) (w : Work)
    (entries : List (String × Json)) : Work :=
  match conflicts policy s o id w.state entries with
  | [] => { w with state := { w.state with claims := claimsAfter policy s o id w.state w.state.claims entries } }
  | e :: es =>
    { state := { w.state with
        claims := claimsAfter policy s o id w.state w.state.claims entries
        assets := w.state.assets.set id ((w.state.assets.find id).getD .zero).conflicted
        changes := noted w.state.changes (changeKey s id "SOURCE_CONFLICT")
          (conflictChange s id (verdict policy s o id w.state e).value) }
      summary := { w.summary with
        conflicting := w.summary.conflicting + (es.length + 1)
        changes := w.summary.changes + unnoted w.state.changes (changeKey s id "SOURCE_CONFLICT") } }

theorem claimsAt_of_claims (h : st.claims = st'.claims) (ck : String) : st.claimsAt ck = st'.claimsAt ck := by
  unfold State.claimsAt
  rw [h]

theorem claimsAt_other {e x : String × Json} (h : st'.claims = claimsAfter policy s o id st st.claims [x])
    (hne : x.1 ≠ e.1) : st'.claimsAt (id ++ "|" ++ e.1) = st.claimsAt (id ++ "|" ++ e.1) := by
  have hkey : id ++ "|" ++ x.1 ≠ id ++ "|" ++ e.1 := by
    intro heq
    apply hne
    simpa [String.toList_append] using heq
  unfold State.claimsAt
  rw [h]
  simp only [claimsAfter, List.foldl_cons, List.foldl_nil]
  rw [Dict.find_set_of_ne _ _ hkey]

theorem claimsAfter_congr (h : ∀ e ∈ entries, st'.claimsAt (id ++ "|" ++ e.1) = st.claimsAt (id ++ "|" ++ e.1))
    (m : Dict String (List AttributeClaim)) :
    claimsAfter policy s o id st' m entries = claimsAfter policy s o id st m entries := by
  unfold claimsAfter
  induction entries generalizing m with
  | nil => rfl
  | cons e entries ih =>
    simp only [List.foldl_cons]
    rw [h e (.head _)]
    exact ih (fun e' he' => h e' (.tail _ he')) _

theorem verdict_congr {e : String × Json} (h : st'.claimsAt (id ++ "|" ++ e.1) = st.claimsAt (id ++ "|" ++ e.1)) :
    verdict policy s o id st' e = verdict policy s o id st e := by
  unfold verdict
  rw [h]

theorem claims_eq (hnodup : (entries.map Prod.fst).Nodup) (w : Work) :
    entries.foldl (claimAttribute policy s o id) w = claimsMade policy s o id w entries := by
  induction entries generalizing w with
  | nil => rfl
  | cons x entries ih =>
    rw [List.map_cons, List.nodup_cons] at hnodup
    have hne : ∀ e ∈ entries, x.1 ≠ e.1 := fun e he h => hnodup.1 (h ▸ List.mem_map_of_mem he)
    rw [List.foldl_cons, ih hnodup.2]
    generalize hw' : claimAttribute policy s o id w x = w'
    have hclaims : w'.state.claims = claimsAfter policy s o id w.state w.state.claims [x] := by
      rw [← hw', claimAttribute_eq]
      split <;> rfl
    have hat : ∀ e ∈ entries, w'.state.claimsAt (id ++ "|" ++ e.1) = w.state.claimsAt (id ++ "|" ++ e.1) :=
      fun e he => claimsAt_other hclaims (hne e he)
    have hverdict : ∀ e ∈ entries, verdict policy s o id w'.state e = verdict policy s o id w.state e :=
      fun e he => verdict_congr (hat e he)
    have hconflicts : conflicts policy s o id w'.state entries = conflicts policy s o id w.state entries :=
      List.filter_congr fun e he => by rw [hverdict e he]
    have hafter : claimsAfter policy s o id w'.state w'.state.claims entries =
        claimsAfter policy s o id w.state w.state.claims (x :: entries) := by
      rw [claimsAfter_congr hat, hclaims]
      rfl
    have hhead : conflicts policy s o id w.state (x :: entries) =
        if (verdict policy s o id w.state x).conflict then x :: conflicts policy s o id w.state entries
        else conflicts policy s o id w.state entries := by
      unfold conflicts
      rw [List.filter_cons]
    unfold claimsMade
    rw [hconflicts, hafter, hhead]
    rw [claimAttribute_eq] at hw'
    by_cases hx : (verdict policy s o id w.state x).conflict = true
    · rw [if_pos hx] at hw' ⊢
      subst hw'
      cases hrest : conflicts policy s o id w.state entries with
      | nil => rfl
      | cons e es =>
        simp only [Dict.find_set_self, Dict.set_set, noted_noted, unnoted_noted, Option.getD_some, List.length_cons]
        congr 2
        omega
    · rw [if_neg hx] at hw' ⊢
      subst hw'
      cases hrest : conflicts policy s o id w.state entries with
      | nil => rfl
      | cons e es =>
        have he : e ∈ entries := by
          have : e ∈ conflicts policy s o id w.state entries := hrest ▸ .head _
          exact (List.mem_filter.mp this).1
        simp only [hverdict e he]

/-- Distinct attributes may come in any order. -/
theorem claimsAfter_perm {entries' : List (String × Json)} (h : entries.Perm entries')
    (hnodup : (entries.map Prod.fst).Nodup) (m : Dict String (List AttributeClaim)) :
    claimsAfter policy s o id st m entries = claimsAfter policy s o id st m entries' := by
  refine h.foldl_eq' ?_ m
  intro x hx y hy z
  by_cases hxy : x.1 = y.1
  · rw [List.inj_on_of_nodup_map hnodup hx hy hxy]
  · apply Dict.set_comm
    intro heq
    apply hxy
    simpa [String.toList_append] using heq

end

variable {s : SnapshotEnvelope} {now : Time} {seen : List String}

def Removable (s : SnapshotEnvelope) (seen : List String) (key : String) (r : Relationship) : Prop :=
  hasPrefix key (scope s) = true ∧ key ∉ seen ∧ r.status = .active

instance (key : String) (r : Relationship) : Decidable (Removable s seen key r) :=
  inferInstanceAs (Decidable (_ ∧ _ ∧ _))

def Relationship.gone (r : Relationship) (now : Time) : Relationship :=
  { r with status := .removed, updatedAt := now }

def removedChange (s : SnapshotEnvelope) (id : String) : Change :=
  changeOf s id "RELATIONSHIP_REMOVED" (.str RelationshipStatus.active.text)
    (.str RelationshipStatus.removed.text) "absent from a successful source snapshot"

def lapsing (s : SnapshotEnvelope) (seen : List String) (st : State) (key : String) : Option Relationship :=
  (st.relationships.find key).filter fun r => decide (Removable s seen key r)

theorem removeAbsent_of_none {w : Work} (h : lapsing s seen w.state key = none) : removeAbsent s now seen w key = w := by
  unfold removeAbsent
  cases hfind : w.state.relationships.find key with
  | none => rfl
  | some r =>
    have hr : ¬ Removable s seen key r := by simpa [lapsing, hfind] using h
    refine if_pos ?_
    unfold Removable at hr
    tauto

theorem removeAbsent_of_some {w : Work} {r : Relationship} (h : lapsing s seen w.state key = some r) :
    removeAbsent s now seen w key =
      { state := { w.state with
          relationships := w.state.relationships.set key (r.gone now)
          changes := noted w.state.changes (changeKey s r.fromAssetID "RELATIONSHIP_REMOVED")
            (removedChange s r.fromAssetID) }
        summary := { w.summary with
          relationshipsRemoved := w.summary.relationshipsRemoved + 1
          changes := w.summary.changes +
            unnoted w.state.changes (changeKey s r.fromAssetID "RELATIONSHIP_REMOVED") } } := by
  obtain ⟨hfind, hr⟩ := Option.filter_eq_some_iff.mp h
  have hr := of_decide_eq_true hr
  unfold removeAbsent
  rw [hfind]
  simp only [addChange_eq]
  rw [if_neg (by simp only [hr.1, hr.2.1, hr.2.2]; simp), hr.2.2]
  rfl

/-- The round of one key leaves the others to the loop. -/
theorem lapsing_removeAbsent {x y : String} (hxy : x ≠ y) (w : Work) :
    lapsing s seen (removeAbsent s now seen w x).state y = lapsing s seen w.state y := by
  cases hx : lapsing s seen w.state x with
  | none => rw [removeAbsent_of_none hx]
  | some r =>
    rw [removeAbsent_of_some hx]
    simp only [lapsing, Dict.find_set_of_ne _ _ hxy]

theorem removeAbsent_comm (w : Work) (x y : String) : removeAbsent s now seen (removeAbsent s now seen w x) y =
      removeAbsent s now seen (removeAbsent s now seen w y) x := by
  by_cases hxy : x = y
  · rw [hxy]
  have hy : lapsing s seen (removeAbsent s now seen w x).state y = _ := lapsing_removeAbsent hxy w
  have hx : lapsing s seen (removeAbsent s now seen w y).state x = _ := lapsing_removeAbsent (Ne.symm hxy) w
  cases hlx : lapsing s seen w.state x with
  | none => rw [removeAbsent_of_none hlx, removeAbsent_of_none (hx.trans hlx)]
  | some rx =>
    cases hly : lapsing s seen w.state y with
    | none => rw [removeAbsent_of_none hly, removeAbsent_of_none (hy.trans hly)]
    | some ry =>
      rw [removeAbsent_of_some (hy.trans hly), removeAbsent_of_some (hx.trans hlx), removeAbsent_of_some hlx,
        removeAbsent_of_some hly]
      simp only [Dict.set_comm _ _ _ hxy]
      by_cases hfrom : rx.fromAssetID = ry.fromAssetID
      · rw [hfrom]
      · have hkey : changeKey s rx.fromAssetID "RELATIONSHIP_REMOVED" ≠
            changeKey s ry.fromAssetID "RELATIONSHIP_REMOVED" := fun h => hfrom (changeKey_inj h)
        rw [noted_comm _ _ _ hkey, unnoted_noted_of_ne _ _ hkey, unnoted_noted_of_ne _ _ (Ne.symm hkey)]
        congr 2
        omega

theorem removals_perm {keys' : List String} (h : keys.Perm keys') (w : Work) :
    keys.foldl (removeAbsent s now seen) w = keys'.foldl (removeAbsent s now seen) w :=
  h.foldl_eq' (fun x _ y _ w => removeAbsent_comm w x y) w

def Asset.Present (a : Asset) : Prop := a.status ≠ .missing ∧ a.status ≠ .retired

instance (a : Asset) : Decidable a.Present := inferInstanceAs (Decidable (_ ∧ _))

def Asset.lost (a : Asset) (now : Time) : Asset := { a with status := .missing, updatedAt := now }

def missingChange (s : SnapshotEnvelope) (id : String) (a : Asset) : Change :=
  changeOf s id "ASSET_MISSING" (.str a.status.text) (.str AssetStatus.missing.text)
    "absent from sufficient successful snapshots"

def State.assetAt (st : State) (id : String) : Asset := (st.assets.find id).getD .zero

theorem missAsset_eq (id : String) (w : Work) : missAsset s now id w =
      if (w.state.assetAt id).Present then
        { state := { w.state with
            assets := w.state.assets.set id ((w.state.assetAt id).lost now)
            changes := noted w.state.changes (changeKey s id "ASSET_MISSING")
              (missingChange s id (w.state.assetAt id)) }
          summary := { w.summary with
            missing := w.summary.missing + 1
            changes := w.summary.changes + unnoted w.state.changes (changeKey s id "ASSET_MISSING") } }
      else w := by
  unfold missAsset
  simp only [addChange_eq]
  rfl

theorem missAsset_setAbsences (id key : String) (n : ℕ) (w : Work) :
    missAsset s now id (w.setAbsences key n) = (missAsset s now id w).setAbsences key n := by
  have hat : (w.setAbsences key n).state.assetAt id = w.state.assetAt id := rfl
  rw [missAsset_eq, missAsset_eq, hat]
  split_ifs <;> rfl

theorem assetAt_set (st : State) (id id' : String) (a : Asset) :
    State.assetAt { st with assets := st.assets.set id a } id' = if id = id' then a else st.assetAt id' := by
  unfold State.assetAt
  rw [Dict.find_set]
  split_ifs <;> rfl

theorem assetAt_missAsset_of_ne {id id' : String} (h : id ≠ id') (w : Work) :
    (missAsset s now id w).state.assetAt id' = w.state.assetAt id' := by
  rw [missAsset_eq]
  split_ifs
  · exact (assetAt_set _ _ _ _).trans (if_neg h)
  · rfl

theorem missAsset_comm (id id' : String) (w : Work) :
    missAsset s now id' (missAsset s now id w) = missAsset s now id (missAsset s now id' w) := by
  by_cases hne : id = id'
  · rw [hne]
  have hkey : changeKey s id "ASSET_MISSING" ≠ changeKey s id' "ASSET_MISSING" := fun h => hne (changeKey_inj h)
  rw [missAsset_eq id', missAsset_eq id (missAsset s now id' w), assetAt_missAsset_of_ne hne,
    assetAt_missAsset_of_ne (Ne.symm hne), missAsset_eq id, missAsset_eq id']
  by_cases hp : (w.state.assetAt id).Present
  · by_cases hp' : (w.state.assetAt id').Present
    · simp only [if_pos hp, if_pos hp', Dict.set_comm _ _ _ hne, noted_comm _ _ _ hkey,
        unnoted_noted_of_ne _ _ hkey, unnoted_noted_of_ne _ _ (Ne.symm hkey)]
      congr 2
      omega
    · simp only [if_pos hp, if_neg hp']
  · simp only [if_neg hp]

variable {policy : Policy}

/-- Whether a snapshot counts an absence of the key. -/
def Counted (s : SnapshotEnvelope) (seen : List String) (key : String) : Prop :=
  hasPrefix key (scope s) = true ∧ key ∉ seen

instance (key : String) : Decidable (Counted s seen key) := inferInstanceAs (Decidable (_ ∧ _))

def State.nextAbsences (st : State) (key : String) : ℕ := (st.successfulAbsences.find key).getD 0 + 1

theorem countAbsence_of_counted (h : Counted s seen key) (w : Work) : countAbsence policy s now seen w key =
      (if policy.threshold ≤ w.state.nextAbsences key then missAsset s now (w.state.assetOf key) w
        else w).setAbsences key (w.state.nextAbsences key) := by
  unfold countAbsence
  rw [if_neg (by simp [h.1, h.2]), apply_ite (Work.setAbsences · key _), ← missAsset_setAbsences]
  rfl

theorem countAbsence_of_not_counted (h : ¬ Counted s seen key) (w : Work) :
    countAbsence policy s now seen w key = w := by
  unfold countAbsence
  rw [if_pos]
  unfold Counted at h
  tauto

theorem setAbsences_comm {x y : String} (h : x ≠ y) (n m : ℕ) (w : Work) :
    (w.setAbsences x n).setAbsences y m = (w.setAbsences y m).setAbsences x n := by
  unfold Work.setAbsences
  simp only [Dict.set_comm _ _ _ h]

theorem nextAbsences_missAsset (id key : String) (w : Work) :
    (missAsset s now id w).state.nextAbsences key = w.state.nextAbsences key := by
  rw [missAsset_eq]
  split_ifs <;> rfl

theorem nextAbsences_setAbsences {x y : String} (h : x ≠ y) (n : ℕ) (w : Work) :
    (w.setAbsences x n).state.nextAbsences y = w.state.nextAbsences y := by
  unfold State.nextAbsences Work.setAbsences
  simp only [Dict.find_set_of_ne _ _ h]

theorem assetOf_missAsset (id key : String) (w : Work) :
    (missAsset s now id w).state.assetOf key = w.state.assetOf key := by
  unfold State.assetOf
  rw [missAsset_externalToAsset]

theorem assetOf_setAbsences (x key : String) (n : ℕ) (w : Work) :
    (w.setAbsences x n).state.assetOf key = w.state.assetOf key := rfl

theorem countAbsence_comm (w : Work) (x y : String) :
    countAbsence policy s now seen (countAbsence policy s now seen w x) y =
      countAbsence policy s now seen (countAbsence policy s now seen w y) x := by
  by_cases hxy : x = y
  · rw [hxy]
  by_cases hx : Counted s seen x
  · by_cases hy : Counted s seen y
    · have hyx := Ne.symm hxy
      rw [countAbsence_of_counted hy, countAbsence_of_counted hx w, countAbsence_of_counted hx,
        countAbsence_of_counted hy w]
      by_cases hnx : policy.threshold ≤ w.state.nextAbsences x <;>
        by_cases hny : policy.threshold ≤ w.state.nextAbsences y <;>
        simp only [hnx, hny, if_true, if_false, nextAbsences_setAbsences hxy, nextAbsences_setAbsences hyx,
          nextAbsences_missAsset, assetOf_setAbsences, assetOf_missAsset, missAsset_setAbsences,
          setAbsences_comm hxy, missAsset_comm (w.state.assetOf x) (w.state.assetOf y)]
    · rw [countAbsence_of_not_counted hy, countAbsence_of_not_counted hy]
  · rw [countAbsence_of_not_counted hx, countAbsence_of_not_counted hx]

theorem absences_perm {keys' : List String} (h : keys.Perm keys') (w : Work) :
    keys.foldl (countAbsence policy s now seen) w = keys'.foldl (countAbsence policy s now seen) w :=
  h.foldl_eq' (fun x _ y _ w => countAbsence_comm w x y) w

structure Removed (s : SnapshotEnvelope) (now : Time) (seen keys : List String) (w w' : Work) : Prop where
  relationships : ∀ key, w'.state.relationships.find key = (w.state.relationships.find key).map fun r =>
    if key ∈ keys ∧ Removable s seen key r then r.gone now else r
  state : w'.state = { w.state with relationships := w'.state.relationships, changes := w'.state.changes }
  removed : w'.summary.relationshipsRemoved = w.summary.relationshipsRemoved +
    (keys.filter fun key => (w.state.relationships.find key).any fun r => decide (Removable s seen key r)).length
  summary : w'.summary = { w.summary with
    relationshipsRemoved := w'.summary.relationshipsRemoved, changes := w'.summary.changes }

theorem removed_foldl (s : SnapshotEnvelope) (now : Time) (seen : List String) (hnodup : keys.Nodup)
    (w : Work) : Removed s now seen keys w (keys.foldl (removeAbsent s now seen) w) := by
  induction keys using List.reverseRecOn with
  | nil => exact ⟨fun key => by simp, rfl, by simp, rfl⟩
  | append_singleton keys x ih =>
    rw [List.nodup_append] at hnodup
    have hx : x ∉ keys := fun hmem => hnodup.2.2 x hmem x (.head _) rfl
    have h := ih hnodup.1
    rw [List.foldl_append, List.foldl_cons, List.foldl_nil]
    generalize keys.foldl (removeAbsent s now seen) w = w₁ at h ⊢
    have hold : w₁.state.relationships.find x = w.state.relationships.find x := by
      rw [h.relationships]
      cases w.state.relationships.find x <;> simp [hx]
    have hlapsing : lapsing s seen w₁.state x = lapsing s seen w.state x := by rw [lapsing, hold, lapsing]
    cases hl : lapsing s seen w.state x with
    | none =>
      rw [removeAbsent_of_none (hlapsing.trans hl)]
      have hnone := Option.filter_eq_none_iff.mp hl
      refine ⟨fun key => ?_, h.state, ?_, h.summary⟩
      · rw [h.relationships]
        refine Option.map_congr fun r hr => ?_
        by_cases hk : key = x
        · simp_all
        · simp [hk]
      · rw [h.removed]
        cases hfind : w.state.relationships.find x <;> simp_all
    | some r =>
      rw [removeAbsent_of_some (hlapsing.trans hl)]
      obtain ⟨hfind, hr⟩ := Option.filter_eq_some_iff.mp hl
      have hr := of_decide_eq_true hr
      refine ⟨fun key => ?_, ?_, ?_, ?_⟩
      · simp only [Dict.find_set]
        by_cases hk : x = key
        · subst hk
          simp [hfind, hr]
        · rw [if_neg hk, h.relationships]
          simp [Ne.symm hk]
      · rw [h.state]
      · simp only [h.removed, List.filter_append, List.length_append, ← Nat.add_assoc]
        simp [hfind, hr]
      · rw [h.summary]

def Due (policy : Policy) (s : SnapshotEnvelope) (seen : List String) (st : State) (key : String) : Prop :=
  Counted s seen key ∧ policy.threshold ≤ st.nextAbsences key

instance (st : State) (key : String) : Decidable (Due policy s seen st key) := inferInstanceAs (Decidable (_ ∧ _))

def lostAssets (policy : Policy) (s : SnapshotEnvelope) (seen : List String) (st : State) (keys : List String) :
    Finset String :=
  ((keys.filter fun key => Due policy s seen st key).map st.assetOf).toFinset.filter fun id => (st.assetAt id).Present

theorem mem_lostAssets {id : String} : id ∈ lostAssets policy s seen st keys ↔
      (∃ key ∈ keys, Due policy s seen st key ∧ st.assetOf key = id) ∧ (st.assetAt id).Present := by
  simp [lostAssets, and_assoc]

theorem lostAssets_snoc (st : State) (keys : List String) (x : String) : lostAssets policy s seen st (keys ++ [x]) =
      if Due policy s seen st x ∧ (st.assetAt (st.assetOf x)).Present
      then insert (st.assetOf x) (lostAssets policy s seen st keys) else lostAssets policy s seen st keys := by
  simp only [lostAssets, List.filter_append, List.map_append, List.toFinset_append, Finset.filter_union]
  by_cases hdue : Due policy s seen st x
  · by_cases hp : (st.assetAt (st.assetOf x)).Present
    · simp [hdue, Finset.filter_singleton, hp]
    · simp [hdue, Finset.filter_singleton, hp]
  · simp [hdue]

structure Absent (policy : Policy) (s : SnapshotEnvelope) (now : Time) (seen keys : List String) (w w' : Work) :
    Prop where
  absences : ∀ key, w'.state.successfulAbsences.find key =
    if key ∈ keys ∧ Counted s seen key then some (w.state.nextAbsences key)
    else w.state.successfulAbsences.find key
  assets : ∀ id, w'.state.assets.find id =
    if id ∈ lostAssets policy s seen w.state keys then some ((w.state.assetAt id).lost now)
    else w.state.assets.find id
  state : w'.state = { w.state with
    assets := w'.state.assets, successfulAbsences := w'.state.successfulAbsences, changes := w'.state.changes }
  missing : w'.summary.missing = w.summary.missing + (lostAssets policy s seen w.state keys).card
  summary : w'.summary = { w.summary with missing := w'.summary.missing, changes := w'.summary.changes }

theorem not_present_lost (a : Asset) (now : Time) : ¬ (a.lost now).Present := fun h => h.1 rfl

section

variable {w w₁ : Work} {x : String}

theorem Absent.assetAt (h : Absent policy s now seen keys w w₁) (id : String) : w₁.state.assetAt id =
    if id ∈ lostAssets policy s seen w.state keys then (w.state.assetAt id).lost now else w.state.assetAt id := by
  unfold State.assetAt
  rw [h.assets]
  split_ifs <;> rfl

/-- The counter is written whether or not the asset is marked. -/
theorem Absent.counter (h : Absent policy s now seen keys w w₁) (hc : Counted s seen x) {w₂ : Work}
    (heq : w₂.state.successfulAbsences = w₁.state.successfulAbsences) (key : String) :
    (w₂.setAbsences x (w.state.nextAbsences x)).state.successfulAbsences.find key =
      if key ∈ keys ++ [x] ∧ Counted s seen key then some (w.state.nextAbsences key)
      else w.state.successfulAbsences.find key := by
  simp only [Work.setAbsences, heq, Dict.find_set]
  by_cases hk : x = key
  · subst hk
    simp [hc]
  · rw [if_neg hk, h.absences]
    simp [Ne.symm hk]

theorem Absent.mark (h : Absent policy s now seen keys w w₁) (hdue : Due policy s seen w.state x)
    (hp : (w.state.assetAt (w.state.assetOf x)).Present)
    (hlost : w.state.assetOf x ∉ lostAssets policy s seen w.state keys) : Absent policy s now seen (keys ++ [x]) w
      ((missAsset s now (w.state.assetOf x) w₁).setAbsences x (w.state.nextAbsences x)) := by
  rw [missAsset_eq, h.assetAt, if_neg hlost, if_pos hp]
  have hset : lostAssets policy s seen w.state (keys ++ [x]) =
      insert (w.state.assetOf x) (lostAssets policy s seen w.state keys) := by
    rw [lostAssets_snoc, if_pos ⟨hdue, hp⟩]
  refine ⟨h.counter hdue.1 rfl, fun id => ?_, ?_, ?_, ?_⟩
  · rw [hset]
    simp only [Work.setAbsences, Dict.find_set, Finset.mem_insert]
    by_cases hid : w.state.assetOf x = id
    · subst hid
      simp
    · rw [if_neg hid, h.assets]
      simp [Ne.symm hid]
  · simp only [Work.setAbsences]
    rw [h.state]
  · rw [hset, Finset.card_insert_of_notMem hlost, ← Nat.add_assoc, ← h.missing]
    rfl
  · simp only [Work.setAbsences]
    rw [h.summary]

/-- The counter is too low, or the asset is not there, or another of its keys came before. -/
theorem Absent.keep (h : Absent policy s now seen keys w w₁) (hc : Counted s seen x)
    (hmark : ¬ (Due policy s seen w.state x ∧ (w.state.assetAt (w.state.assetOf x)).Present ∧
      w.state.assetOf x ∉ lostAssets policy s seen w.state keys)) :
    Absent policy s now seen (keys ++ [x]) w
      ((if policy.threshold ≤ w.state.nextAbsences x then missAsset s now (w.state.assetOf x) w₁
        else w₁).setAbsences x (w.state.nextAbsences x)) := by
  have hset : lostAssets policy s seen w.state (keys ++ [x]) = lostAssets policy s seen w.state keys := by
    rw [lostAssets_snoc]
    split_ifs with hdue
    · exact Finset.insert_eq_of_mem (by tauto)
    · rfl
  have hsame : (if policy.threshold ≤ w.state.nextAbsences x then missAsset s now (w.state.assetOf x) w₁ else w₁) =
      w₁ := by
    rw [missAsset_eq, h.assetAt]
    have := not_present_lost (w.state.assetAt (w.state.assetOf x)) now
    unfold Due at hmark
    split_ifs <;> tauto
  rw [hsame]
  refine ⟨h.counter hc rfl, hset ▸ h.assets, ?_, hset ▸ h.missing, h.summary⟩
  unfold Work.setAbsences
  rw [h.state]

theorem Absent.skip (h : Absent policy s now seen keys w w₁) (hx : x ∉ keys) (hc : ¬ Counted s seen x) :
    Absent policy s now seen (keys ++ [x]) w w₁ := by
  have hset : lostAssets policy s seen w.state (keys ++ [x]) = lostAssets policy s seen w.state keys := by
    rw [lostAssets_snoc, if_neg fun hd => hc hd.1.1]
  refine ⟨fun key => ?_, hset ▸ h.assets, h.state, hset ▸ h.missing, h.summary⟩
  rw [h.absences]
  by_cases hk : key = x
  · subst hk
    simp [hc, hx]
  · simp [hk]

end

theorem absent_foldl (policy : Policy) (s : SnapshotEnvelope) (now : Time) (seen : List String) (hnodup : keys.Nodup)
    (w : Work) : Absent policy s now seen keys w (keys.foldl (countAbsence policy s now seen) w) := by
  induction keys using List.reverseRecOn with
  | nil => exact ⟨fun key => by simp, fun id => by simp [lostAssets], rfl, by simp [lostAssets], rfl⟩
  | append_singleton keys x ih =>
    rw [List.nodup_append] at hnodup
    have hx : x ∉ keys := fun hmem => hnodup.2.2 x hmem x List.mem_cons_self rfl
    have h := ih hnodup.1
    rw [List.foldl_append, List.foldl_cons, List.foldl_nil]
    generalize keys.foldl (countAbsence policy s now seen) w = w₁ at h ⊢
    by_cases hc : Counted s seen x
    · have hnext : w₁.state.nextAbsences x = w.state.nextAbsences x := by
        unfold State.nextAbsences
        rw [h.absences, if_neg fun hmem => hx hmem.1]
      have hasset : w₁.state.assetOf x = w.state.assetOf x := by
        unfold State.assetOf
        rw [h.state]
      rw [countAbsence_of_counted hc, hnext, hasset]
      by_cases hmark : Due policy s seen w.state x ∧ (w.state.assetAt (w.state.assetOf x)).Present ∧
          w.state.assetOf x ∉ lostAssets policy s seen w.state keys
      · rw [if_pos hmark.1.2]
        exact h.mark hmark.1 hmark.2.1 hmark.2.2
      · exact h.keep hc hmark
    · rw [countAbsence_of_not_counted hc]
      exact h.skip hx hc

end Infragraph.Memory
