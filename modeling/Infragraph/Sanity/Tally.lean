import Infragraph.Sanity.Apply

/-! What a call counts and what it writes to `infrastructure_changes`. Every
change row is attempted under its logical identity; a second attempt under the
same one is dropped, and the counter does not notice. -/

namespace Infragraph

open Relational ReadCommitted Prog

variable {order : MapOrder} {sum sum' : Summary} {now : Time} {db db' : Db} {s : SnapshotEnvelope}

section

variable [Hashes]

def countSights (s : SnapshotEnvelope) (sum : Summary) (l : List Sight) : Summary :=
  l.foldl (fun sum x => x.count s sum) sum

theorem progress_foldl (l : List Sight) (st : Progress) : (l.foldl (Progress.after s) st).assets =
        (l.map fun x => (x.observation.externalID, x.asset)).reverse ++ st.assets ∧
      (l.foldl (Progress.after s) st).summary = countSights s st.summary l := by
  induction l generalizing st with
  | nil => exact ⟨rfl, rfl⟩
  | cons x l ih =>
    rw [List.foldl_cons, (ih _).1, (ih _).2]
    exact ⟨by simp [Progress.after], rfl⟩

theorem run_assets_turns {st : Progress} {l : List Observation}
    (h : (l.foldlM (observe order s now) {}).run db = .ok (st, db')) :
    ∃ sights : List Sight, sights.map Sight.observation = l ∧
      st.assets = (sights.map fun x => (x.observation.externalID, x.asset)).reverse ∧
      st.summary = countSights s {} sights ∧ Steps (Turn s now) db sights db' := by
  obtain ⟨sights, hmap, hst, hsteps⟩ := run_foldlM_steps h fun st o d st' d' hrun => run_observe_turn hrun
  have hfold := progress_foldl (s := s) sights {}
  rw [← hst] at hfold
  exact ⟨sights, hmap, by simpa using hfold.1, hfold.2, hsteps⟩

theorem Turn.bindings {x : Sight} (h : Turn s now db x db') : x.asset = (db.bindings s).resolve s x.observation ∧
      db'.bindings s = (db.bindings s).observe s x.observation := by
  have hresolve := h.sighted.resolve h.known
  refine ⟨hresolve.symm, Bindings.ext (funext fun e => ?_) (funext fun e => ?_)⟩
  · obtain ⟨i, hi, hkey, hia, -⟩ := h.identity
    simp only [Bindings.observe, Db.bindings, Db.assetOf, hi, Table.get_put, hkey]
    by_cases he : e = x.observation.externalID
    · rw [if_pos he, if_pos (by rw [he]), Option.map_some, hia]
      exact congrArg some hresolve.symm
    · rw [if_neg he, if_neg fun hk => he (congrArg (·.2.2) hk).symm]
  · rw [h.strong, Bindings.observe, hresolve]

theorem turns_bindings {l : List Sight} (h : Steps (Turn s now) db l db') :
    db'.bindings s = (db.bindings s).after s (l.map Sight.observation) := by
  induction h with
  | nil => rfl
  | snoc _ hturn ih => rw [hturn.bindings.2, ih, List.map_append, List.map_singleton, Bindings.after_snoc]

theorem run_relationships_turns {assets : List (String × String)} {l : List RelationshipObservation}
    (h : (l.foldlM (relate s now assets) sum).run db = .ok (sum', db')) :
    ∃ links : List Link, links.map Link.observation = l ∧
      sum' = links.foldl (fun sum x => x.count sum) sum ∧ Steps (LinkTurn s now assets) db links db' :=
  run_foldlM_steps h fun _ _ _ _ _ hrun => run_relate_turn hrun

theorem run_missing_turns {l : List String} (h : (l.foldlM (missingAsset s) sum).run db = .ok (sum', db')) :
    ∃ losses : List Loss, losses.map Loss.asset = l ∧
      sum' = losses.foldl (fun sum x => x.count sum) sum ∧ Steps (LossTurn s) db losses db' :=
  run_foldlM_steps h fun _ _ _ _ _ hrun => run_missingAsset_turn hrun

end

/-- The row that `UPDATE asset_relationships SET status='REMOVED'` would select. -/
def Db.Removable (db : Db) (org id : String) : Prop :=
  (∃ r, db.relationships.get id = some r ∧ r.organizationID = org ∧ r.status = .active) ∧
    db.relationshipActive id = false

theorem run_removedRelationship_count {id : String} (h : (removedRelationship s sum id).run db = .ok (sum', db')) :
    (db.Removable s.organizationID id ∧
        sum' = { sum with relationshipsRemoved := sum.relationshipsRemoved + 1 }) ∨
      (¬ db.Removable s.organizationID id ∧ sum' = sum) := by
  simp only [removedRelationship, run_bind_ok] at h
  obtain ⟨affected, d₁, h1, h2⟩ := h
  cases h2
  obtain ⟨rfl, -⟩ := run_update_ok.mp h1
  have hpos : 0 < (((db.relationships.changed (fun r => (r.id = id ∧ r.organizationID = s.organizationID ∧
      r.status = .active) && !db.relationshipActive id) fun r => { r with status := .removed }).map
      fun _ => ()).length) ↔ db.Removable s.organizationID id := by
    simp only [List.length_map, List.length_pos_iff_exists_mem, Table.mem_changed]
    constructor
    · intro hparts
      obtain ⟨_, r, hr, hp, _⟩ := hparts
      simp only [Bool.and_eq_true, decide_eq_true_eq, Bool.not_eq_true'] at hp
      exact ⟨⟨r, by rw [← hp.1.1]; exact Table.mem_iff_get.mp hr, hp.1.2⟩, hp.2⟩
    · intro hparts
      obtain ⟨⟨r, hr, horg, hact⟩, hp⟩ := hparts
      have hid : r.id = id := Table.key_of_get hr
      exact ⟨_, r, Table.mem_of_get hr, by simp [hid, horg, hact, hp], rfl⟩
  by_cases hr : db.Removable s.organizationID id
  · exact .inl ⟨hr, if_pos (hpos.mpr hr)⟩
  · exact .inr ⟨hr, if_neg fun hc => hr (hpos.mp hc)⟩

end Infragraph
