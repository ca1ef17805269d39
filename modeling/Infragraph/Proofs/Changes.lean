import Infragraph.Lib.Delimited
import Infragraph.Proofs.Summary

/-! The change rows of a call. A row is attempted under the logical identity
snapshot, asset and type, so two relationships that a snapshot adds to one asset
compete for one row, and a removal attempts none. -/

namespace Infragraph

open Relational ReadCommitted Prog

section

variable {db db' : Db} {c : ApplyCall} {sum : Summary} {s : SnapshotEnvelope} {now : Time}

theorem logical_last {x x' a a' t t' : String} (ht : '|' ∉ t.toList) (ht' : '|' ∉ t'.toList)
    (h : "|".intercalate [x, a, t] = "|".intercalate [x', a', t']) : x ++ "|" ++ a = x' ++ "|" ++ a' ∧ t = t' := by
  have hlist := congrArg String.toList (show x ++ "|" ++ a ++ "|" ++ t = x' ++ "|" ++ a' ++ "|" ++ t' from h)
  simp only [String.toList_append] at hlist
  have hbar : "|".toList = ['|'] := rfl
  rw [hbar, List.append_assoc _ ['|'] t.toList, List.append_assoc _ ['|'] t'.toList] at hlist
  obtain ⟨hx, ht⟩ := Delimited.mark_inj_last ht ht' hlist
  refine ⟨String.toList_injective ?_, String.toList_injective ht⟩
  simpa only [String.toList_append, hbar] using hx

theorem logical_inj {x a a' t t' : String} (ht : '|' ∉ t.toList) (ht' : '|' ∉ t'.toList)
    (h : "|".intercalate [x, a, t] = "|".intercalate [x, a', t']) : a = a' ∧ t = t' := by
  obtain ⟨hxa, rfl⟩ := logical_last ht ht' h
  exact ⟨(String.append_right_inj _).mp hxa, rfl⟩

theorem changeTypes_plain : ∀ t ∈ changeTypes, '|' ∉ t.toList := by decide

theorem steps_logged {χ : Type} {step : Db → χ → Db → Prop} {rows : χ → List ChangeRow}
    (hstep : ∀ d x d', step d x d' → Logged ChangeRow.slot d.changes (rows x) d'.changes) {l : List χ}
    (h : Steps step db l db') : Logged ChangeRow.slot db.changes (l.flatMap rows) db'.changes := by
  induction h with
  | nil => exact .nil
  | snoc _ hx ih =>
    rw [List.flatMap_append, List.flatMap_singleton]
    exact ih.append (hstep _ _ _ hx)

variable [Hashes]

structure ChangeRow.Of (s : SnapshotEnvelope) (r : ChangeRow) : Prop where
  slot : r.slot = (s.organizationID, "|".intercalate [s.snapshotID, r.assetID, r.changeType])
  type : r.changeType ∈ changeTypes

omit [Hashes] in
theorem ChangeRow.Of.slot_inj {r r' : ChangeRow} (h : r.Of s) (h' : r'.Of s) (heq : r.slot = r'.slot) :
    r.assetID = r'.assetID ∧ r.changeType = r'.changeType := by
  rw [h.slot, h'.slot] at heq
  exact logical_inj (changeTypes_plain _ h.type) (changeTypes_plain _ h'.type) (congrArg Prod.snd heq)

theorem changeRow_of {a t : String} (before after : Json) (reason : String) (ht : t ∈ changeTypes) :
    (changeRow s a t before after reason).Of s := ⟨rfl, ht⟩

def attempts (s : SnapshotEnvelope) (now : Time) (sights : List Sight) (links : List Link) (losses : List Loss) :
    List ChangeRow :=
  sights.flatMap (Sight.rows s) ++ links.flatMap (Link.rows s now) ++ losses.flatMap (Loss.rows s)

section

variable {sights : List Sight} {links : List Link} {losses : List Loss} {t : Trace}

theorem Traced.logged (h : Traced c db t sum db') :
    Logged ChangeRow.slot db.changes
      (attempts c.snapshot (orNow c.snapshot.completedAt c.clock) t.sights t.links t.losses) db'.changes := by
  have h1 := steps_logged (fun _ _ _ hx => hx.logged) h.observe
  have h2 := steps_logged (fun _ _ _ hx => hx.logged) h.relate
  have h3 := steps_logged (fun _ _ _ hx => hx.logged) h.drop
  have he₁ : t.e₁.changes = t.d₂.changes := by rw [h.identities.frame]
  have hdb' : db'.changes = t.e₂.changes := by rw [h.frame, run_removed_frame h.removals, h.sources.frame]
  rw [he₁] at h3
  rw [hdb']
  exact (h1.append h2).append h3

theorem linkRows_eq (links : List Link) : links.flatMap (Link.rows s now) =
    (newLinks links).map fun x => addedRow s (x.row s now) := by
  induction links with
  | nil => rfl
  | cons x l ih =>
    rw [List.flatMap_cons, ih]
    unfold Link.rows newLinks
    cases hx : x.existing <;> simp [hx]

theorem lossRows_eq (losses : List Loss) : losses.flatMap (Loss.rows s) =
    (losses.filter Loss.marked).map fun x => missingRow s x.asset := by
  induction losses with
  | nil => rfl
  | cons x l ih =>
    rw [List.flatMap_cons, ih]
    unfold Loss.rows
    cases hx : x.marked <;> simp [hx]

theorem mem_sightRows {x : Sight} {r : ChangeRow} (h : r ∈ x.rows s) :
    (∃ prior, x.kind = .returned prior ∧ r = returnedRow s x.asset prior) ∨
      (x.conflict = true ∧ r = conflictRow s x.asset) ∨
      (x.kind = .created ∧ r = discoveredRow s x.observation x.asset) := by
  unfold Sight.rows at h
  simp only [List.mem_append, or_assoc] at h
  rcases h with h | h | h
  · cases hk : x.kind with
    | returned prior =>
      rw [hk] at h
      exact .inl ⟨prior, rfl, List.mem_singleton.mp h⟩
    | unchanged => simp [hk, Sighting.rows] at h
    | created => simp [hk, Sighting.rows] at h
  · split_ifs at h with hc
    · exact .inr (.inl ⟨hc, List.mem_singleton.mp h⟩)
    · simp at h
  · split_ifs at h with hk
    · exact .inr (.inr ⟨hk, List.mem_singleton.mp h⟩)
    · simp at h

theorem mem_attempts {r : ChangeRow} : r ∈ attempts s now sights links losses ↔
    (∃ x ∈ sights, r ∈ x.rows s) ∨ (∃ x ∈ newLinks links, r = addedRow s (x.row s now)) ∨
      ∃ x ∈ losses, x.marked = true ∧ r = missingRow s x.asset := by
  unfold attempts
  rw [linkRows_eq, lossRows_eq]
  simp only [List.mem_append, List.mem_flatMap, List.mem_map, List.mem_filter, or_assoc, and_assoc, eq_comm]

theorem attempts_of {r : ChangeRow} (h : r ∈ attempts s now sights links losses) : r.Of s := by
  rcases mem_attempts.mp h with ⟨x, -, hr⟩ | ⟨x, -, rfl⟩ | ⟨x, -, -, rfl⟩
  · rcases mem_sightRows hr with ⟨prior, -, rfl⟩ | ⟨-, rfl⟩ | ⟨-, rfl⟩ <;>
      exact changeRow_of _ _ _ (by simp [changeTypes])
  · exact changeRow_of _ _ _ (by simp [changeTypes])
  · exact changeRow_of _ _ _ (by simp [changeTypes])

theorem attempts_filter_added (sights : List Sight) (links : List Link) (losses : List Loss) :
    ((attempts s now sights links losses).filter fun r =>
    r.changeType = "RELATIONSHIP_ADDED") = (newLinks links).map fun x => addedRow s (x.row s now) := by
  unfold attempts
  rw [List.filter_append, List.filter_append, linkRows_eq, lossRows_eq]
  have h1 : (sights.flatMap (Sight.rows s)).filter (fun r => r.changeType = "RELATIONSHIP_ADDED") = [] := by
    rw [List.filter_eq_nil_iff]
    intro r hr
    obtain ⟨x, -, hr⟩ := List.mem_flatMap.mp hr
    rcases mem_sightRows hr with ⟨prior, -, rfl⟩ | ⟨-, rfl⟩ | ⟨-, rfl⟩ <;>
      simp [returnedRow, conflictRow, discoveredRow, changeRow]
  have h3 : ((losses.filter Loss.marked).map fun x => missingRow s x.asset).filter
      (fun r => r.changeType = "RELATIONSHIP_ADDED") = [] := by
    rw [List.filter_eq_nil_iff]
    intro r hr
    obtain ⟨x, -, rfl⟩ := List.mem_map.mp hr
    simp [missingRow, changeRow]
  rw [h1, h3, List.nil_append, List.append_nil, List.filter_eq_self]
  intro r hr
  obtain ⟨x, -, rfl⟩ := List.mem_map.mp hr
  simp [addedRow, changeRow]

end

end

end Infragraph
