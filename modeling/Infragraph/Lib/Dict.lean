import Mathlib.Data.Finmap
import Mathlib.Data.String.Basic
import Mathlib.Tactic

/-! Finite maps from keys to values of one type. Two maps with the same lookups
are equal; a loop over a map takes its keys in some order. -/

abbrev Dict (κ α : Type) := Finmap fun _ : κ => α

namespace Dict

variable {κ α : Type} [DecidableEq κ]

def find (m : Dict κ α) (k : κ) : Option α := Finmap.lookup k m

def set (m : Dict κ α) (k : κ) (v : α) : Dict κ α := Finmap.insert k v m

def erase (m : Dict κ α) (k : κ) : Dict κ α := Finmap.erase k m

@[simp] theorem find_empty (k : κ) : find (∅ : Dict κ α) k = none := rfl

theorem find_set (m : Dict κ α) (k k' : κ) (v : α) : (m.set k v).find k' = if k = k' then some v else m.find k' := by
  split_ifs with h
  · subst h
    exact Finmap.lookup_insert m
  · exact Finmap.lookup_insert_of_ne m (Ne.symm h)

@[simp] theorem find_set_self (m : Dict κ α) (k : κ) (v : α) : (m.set k v).find k = some v := by
  rw [find_set, if_pos rfl]

theorem find_set_of_ne (m : Dict κ α) {k k' : κ} (v : α) (h : k ≠ k') : (m.set k v).find k' = m.find k' := by
  rw [find_set, if_neg h]

theorem find_erase (m : Dict κ α) (k k' : κ) : (m.erase k).find k' = if k = k' then none else m.find k' := by
  split_ifs with h
  · subst h
    exact Finmap.lookup_erase k m
  · exact Finmap.lookup_erase_ne (Ne.symm h)

theorem ext_find {m m' : Dict κ α} (h : ∀ k, m.find k = m'.find k) : m = m' := Finmap.ext_lookup h

theorem set_set (m : Dict κ α) (k : κ) (v v' : α) : (m.set k v).set k v' = m.set k v' := Finmap.insert_insert m

theorem set_comm (m : Dict κ α) {k k' : κ} (v v' : α) (h : k ≠ k') :
    (m.set k v).set k' v' = (m.set k' v').set k v := Finmap.insert_insert_of_ne m h

theorem mem_keys {m : Dict κ α} {k : κ} : k ∈ m.keys ↔ ∃ v, m.find k = some v := by
  rw [Finmap.mem_keys, Finmap.mem_iff]
  rfl

theorem keys_of_find {β : Type} {m : Dict κ α} {m' : Dict κ β} (h : ∀ k, (m'.find k).isSome = (m.find k).isSome) :
    m'.keys = m.keys := by
  ext k
  rw [mem_keys, mem_keys, ← Option.isSome_iff_exists, ← Option.isSome_iff_exists, h]

theorem find_eq_none {m : Dict κ α} {k : κ} : m.find k = none ↔ k ∉ m.keys := by
  rw [mem_keys, not_exists, Option.eq_none_iff_forall_ne_some]

theorem keys_set (m : Dict κ α) (k : κ) (v : α) : (m.set k v).keys = insert k m.keys := by
  ext k'
  rw [Finset.mem_insert, mem_keys, mem_keys, find_set]
  by_cases h : k = k'
  · simp [h]
  · simp [h, Ne.symm h]

theorem mem_keys_set {m : Dict κ α} {k k' : κ} {v : α} : k' ∈ (m.set k v).keys ↔ k' = k ∨ k' ∈ m.keys := by
  rw [keys_set, Finset.mem_insert]

theorem keys_set_of_mem {m : Dict κ α} {k : κ} (h : k ∈ m.keys) (v : α) : (m.set k v).keys = m.keys := by
  rw [keys_set, Finset.insert_eq_of_mem h]

end Dict

/-- An order of iteration: every finite set of keys as a list. -/
structure Iteration (κ : Type) where
  list : Finset κ → List κ
  nodup : ∀ ks, (list ks).Nodup
  mem : ∀ ks k, k ∈ list ks ↔ k ∈ ks

namespace Iteration

variable {κ : Type}

theorem perm (i j : Iteration κ) (ks : Finset κ) : (i.list ks).Perm (j.list ks) :=
  (List.perm_ext_iff_of_nodup (i.nodup ks) (j.nodup ks)).mpr fun k => by rw [i.mem, j.mem]

variable [LinearOrder κ]

def ascending : Iteration κ where
  list ks := Quot.liftOn ks.val (fun l => l.insertionSort (· ≤ ·)) fun l l' h =>
    ((List.perm_insertionSort (· ≤ ·) l).trans (h.trans (List.perm_insertionSort (· ≤ ·) l').symm)).eq_of_pairwise
      (fun _ _ _ _ => le_antisymm) (List.pairwise_insertionSort _ l) (List.pairwise_insertionSort _ l')
  nodup ks := by
    obtain ⟨⟨l⟩, h⟩ := ks
    exact (List.perm_insertionSort (· ≤ ·) l).nodup_iff.mpr h
  mem ks k := by
    obtain ⟨⟨l⟩, h⟩ := ks
    exact (List.perm_insertionSort (· ≤ ·) l).mem_iff

end Iteration
