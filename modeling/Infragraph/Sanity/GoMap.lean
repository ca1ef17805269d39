import Infragraph.Lib.Lists
import Infragraph.Spec.Envelope
import Mathlib.Data.String.Basic

/-! Go maps by their lookups: what a write does to them, and that two maps with the same
lookups are the same value, whatever the orders of their entries are. -/

namespace Infragraph

namespace GoMap

variable {α : Type}

theorem get_eq_some {m : GoMap α} {k : String} {v : α} : m.get k = some v ↔ (k, v) ∈ m.entries := by
  refine ⟨fun h => List.mem_of_lookup h, fun h => ?_⟩
  cases hg : m.get k with
  | none =>
    rw [get, List.lookup_eq_none_iff] at hg
    exact absurd (hg _ h) (by simp)
  | some w =>
    have heq := List.inj_on_of_nodup_map m.nodup (List.mem_of_lookup hg) h rfl
    exact congrArg some (congrArg Prod.snd heq)

theorem get_perm {m m' : GoMap α} (h : m'.entries.Perm m.entries) (k : String) : m'.get k = m.get k := by
  ext v
  rw [get_eq_some, get_eq_some]
  exact h.mem_iff

theorem get_eq_none {m : GoMap α} {k : String} : m.get k = none ↔ k ∉ m.entries.map Prod.fst := by
  constructor
  · intro h hk
    obtain ⟨e, he, rfl⟩ := List.mem_map.mp hk
    rw [get_eq_some.mpr he] at h
    cases h
  · intro h
    rw [Option.eq_none_iff_forall_ne_some]
    exact fun v hv => h (List.mem_map.mpr ⟨_, get_eq_some.mp hv, rfl⟩)

theorem get_put (m : GoMap α) (k k' : String) (v : α) : (m.put k v).get k' = if k = k' then some v else m.get k' := by
  have hmem : ∀ w, (k', w) ∈ (m.put k v).entries ↔ if k = k' then w = v else (k', w) ∈ m.entries := by
    intro w
    unfold put
    dsimp only
    by_cases hk : k ∈ m.entries.map Prod.fst
    · rw [if_pos hk, List.mem_map]
      split_ifs with heq
      · subst heq
        refine ⟨?_, ?_⟩
        · rintro ⟨e, -, he⟩
          by_cases hkey : e.1 = k
          · rw [if_pos hkey] at he
            exact (congrArg Prod.snd he).symm
          · rw [if_neg hkey] at he
            exact absurd (congrArg Prod.fst he) hkey
        · rintro rfl
          obtain ⟨e, he, hkey⟩ := List.mem_map.mp hk
          exact ⟨e, he, if_pos hkey⟩
      · refine ⟨?_, fun hw => ⟨(k', w), hw, if_neg (Ne.symm heq)⟩⟩
        rintro ⟨e, he, hew⟩
        by_cases hkey : e.1 = k
        · rw [if_pos hkey] at hew
          exact absurd (congrArg Prod.fst hew) heq
        · rw [if_neg hkey] at hew
          rwa [← hew]
    · rw [if_neg hk, List.mem_append, List.mem_singleton, Prod.mk.injEq]
      split_ifs with heq
      · subst heq
        refine ⟨?_, fun hw => .inr ⟨rfl, hw⟩⟩
        rintro (hw | hw)
        · exact absurd (List.mem_map_of_mem hw) hk
        · exact hw.2
      · simp [Ne.symm heq]
  refine Option.ext fun w => ?_
  rw [get_eq_some, hmem]
  split_ifs
  · rw [Option.some.injEq, eq_comm]
  · rw [get_eq_some]

theorem perm_of_get {m m' : GoMap α} (h : ∀ k, m.get k = m'.get k) : m.entries.Perm m'.entries := by
  refine (List.perm_ext_iff_of_nodup m.nodup.of_map m'.nodup.of_map).mpr fun e => ?_
  rw [← get_eq_some (m := m), h, get_eq_some]

end GoMap

namespace Json

theorem canons_eq (vs : List Json) : canons vs = vs.map canon := by
  induction vs with
  | nil => rfl
  | cons v vs ih => rw [canons, ih, List.map_cons]

theorem canonFields_eq (es : List (String × Json)) : canonFields es = es.map fun e => (e.1, e.2.canon) := by
  induction es with
  | nil => rfl
  | cons e es ih =>
    rw [canonFields, ih, List.map_cons]

instance : Std.Total fieldLe := ⟨fun a b => le_total a.1 b.1⟩

instance : IsTrans (String × Json) fieldLe := ⟨fun _ _ _ => le_trans⟩

/-- The order of the entries of an object does not matter. -/
theorem canonFields_perm {es es' : List (String × Json)} (h : es.Perm es') (hnodup : (es.map Prod.fst).Nodup) :
    (canonFields es).insertionSort fieldLe = (canonFields es').insertionSort fieldLe := by
  have hsorted := fun l : List (String × Json) => List.perm_insertionSort fieldLe l
  have hfields : (canonFields es).Perm (canonFields es') := by
    rw [canonFields_eq, canonFields_eq]
    exact h.map _
  have hkeys : ((canonFields es).map Prod.fst).Nodup := by
    rw [canonFields_eq, List.map_map]
    exact hnodup
  refine (((hsorted _).trans hfields).trans (hsorted _).symm).eq_of_pairwise (fun a b ha hb hab hba => ?_)
    (List.pairwise_insertionSort _ _) (List.pairwise_insertionSort _ _)
  refine List.inj_on_of_nodup_map hkeys ((hsorted _).mem_iff.mp ha) ?_ (le_antisymm hab hba)
  exact hfields.mem_iff.mpr ((hsorted _).mem_iff.mp hb)

end Json

theorem GoMap.sameValues_of_get {m m' : GoMap Json} (hnil : m.isNil = m'.isNil) (h : ∀ k, m.get k = m'.get k) :
    m.SameValues m' := by
  refine ⟨hnil, ?_⟩
  rw [Json.Same, Json.canon, Json.canon, Json.canonFields_perm (GoMap.perm_of_get h) m.nodup]

end Infragraph
