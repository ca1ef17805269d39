import Mathlib.Data.Finset.Card
import Mathlib.Tactic

/-! A register of what is seen round by round: it knows what was ever seen, and for
how many rounds each has been absent. What stays away for `n` rounds is lost, and
what is seen again returns. -/

structure Register (κ : Type) where
  known : Finset κ
  absences : κ → ℕ

namespace Register

/-- A list of the images of a set, one for each. -/
theorem card_of_list {κ α : Type} [DecidableEq α] {f : κ → α} {l : List α} {seen : Finset κ} (hnodup : l.Nodup)
    (hmem : ∀ a, a ∈ l ↔ ∃ k ∈ seen, f k = a) (hinj : ∀ k ∈ seen, ∀ k' ∈ seen, f k = f k' → k = k') :
    l.length = seen.card := by
  have himage : l.toFinset = seen.image f := by
    ext a
    rw [List.mem_toFinset, hmem, Finset.mem_image]
  rw [← List.toFinset_card_of_nodup hnodup, himage, Finset.card_image_of_injOn fun k hk k' hk' => hinj k hk k' hk']

variable {κ : Type} [DecidableEq κ]

def empty : Register κ := ⟨∅, fun _ => 0⟩

def sight (r : Register κ) (seen : Finset κ) : Register κ where
  known := r.known ∪ seen
  absences k := if k ∈ seen then 0 else r.absences k

def tick (r : Register κ) (seen : Finset κ) : Register κ where
  known := r.known ∪ seen
  absences k := if k ∈ seen then 0 else r.absences k + 1

/-- What a register says of `k`, if it is known: whether it has been absent for `n` rounds. -/
def state {σ : Type} (r : Register κ) (n : ℕ) (present gone : σ) (k : κ) : Option σ :=
  if k ∈ r.known then some (if n ≤ r.absences k then gone else present) else none

variable (r : Register κ) (n : ℕ) (seen : Finset κ)

def discovered : Finset κ := seen \ r.known

def returned : Finset κ := {k ∈ seen | k ∈ r.known ∧ n ≤ r.absences k}

def steady : Finset κ := {k ∈ seen | k ∈ r.known ∧ r.absences k < n}

def lost : Finset κ := {k ∈ r.known | k ∉ seen ∧ r.absences k < n ∧ n ≤ r.absences k + 1}

@[simp] theorem sight_empty : r.sight ∅ = r := by
  simp [sight]

variable {r n seen}

theorem sight_insert {k : κ} : (r.sight seen).sight {k} = r.sight (insert k seen) := by
  simp only [sight, mk.injEq]
  constructor
  · ext x
    simp only [Finset.mem_union, Finset.mem_insert, Finset.mem_singleton]
    tauto
  · funext x
    simp only [Finset.mem_insert, Finset.mem_singleton]
    split_ifs <;> tauto

theorem card_filter_insert {p : κ → Prop} [DecidablePred p] {k : κ} (hk : k ∉ seen) :
    ({x ∈ insert k seen | p x} : Finset κ).card = ({x ∈ seen | p x} : Finset κ).card + if p k then 1 else 0 := by
  rw [Finset.filter_insert]
  split_ifs with hp
  · exact Finset.card_insert_of_notMem fun hmem => hk (Finset.mem_filter.mp hmem).1
  · rfl

theorem discovered_eq_filter : r.discovered seen = {k ∈ seen | k ∉ r.known} :=
  Finset.sdiff_eq_filter seen r.known

section

variable {k : κ} (hk : k ∉ seen)
include hk

theorem card_discovered_insert :
    (r.discovered (insert k seen)).card = (r.discovered seen).card + if k ∈ r.known then 0 else 1 := by
  rw [discovered_eq_filter, discovered_eq_filter, card_filter_insert hk]
  simp only [ite_not]

theorem card_returned_insert : (r.returned n (insert k seen)).card =
    (r.returned n seen).card + if k ∈ r.known ∧ n ≤ r.absences k then 1 else 0 := card_filter_insert hk

theorem card_steady_insert : (r.steady n (insert k seen)).card =
    (r.steady n seen).card + if k ∈ r.known ∧ r.absences k < n then 1 else 0 := card_filter_insert hk

end

/-- Everything seen is discovered, returns or was there. -/
theorem card_seen (r : Register κ) (n : ℕ) (seen : Finset κ) :
    (r.discovered seen).card + (r.returned n seen).card + (r.steady n seen).card = seen.card := by
  have hknown : (r.returned n seen).card + (r.steady n seen).card = ({k ∈ seen | k ∈ r.known} : Finset κ).card := by
    have hsplit := Finset.card_filter_add_card_filter_not (s := {k ∈ seen | k ∈ r.known}) (fun k => n ≤ r.absences k)
    simp only [Finset.filter_filter, not_le] at hsplit
    exact hsplit
  have hall := Finset.card_filter_add_card_filter_not (s := seen) (fun k => k ∈ r.known)
  rw [discovered_eq_filter]
  omega

theorem absences_tick_eq_zero (h : r.known ⊆ seen) : ∀ k ∈ (r.tick seen).known, (r.tick seen).absences k = 0 := by
  intro k hk
  refine if_pos ?_
  rcases Finset.mem_union.mp hk with hk | hk
  · exact h hk
  · exact hk

/-- Where nothing known had been absent, the thresholds 1 and `n` tell the same after a
round iff they are the same or all the known was seen. -/
theorem state_one_eq_iff {σ : Type} {present gone : σ} (hdiff : present ≠ gone) (hn : 1 ≤ n)
    (hr : n = 1 ∨ ∀ k ∈ r.known, r.absences k = 0) :
    (∀ k, (r.tick seen).state 1 present gone k = (r.tick seen).state n present gone k) ↔ n = 1 ∨ r.known ⊆ seen := by
  by_cases hone : n = 1
  · simp [hone]
  have hzero := hr.resolve_left hone
  simp only [hone, false_or]
  refine ⟨fun h k hk => ?_, fun h k => ?_⟩
  · by_contra hseen
    have hstate := h k
    simp only [state, tick, Finset.mem_union, hk, true_or, hseen, if_true, if_false, hzero k hk] at hstate
    rw [if_pos (by omega), if_neg (by omega)] at hstate
    exact hdiff (Option.some.inj hstate).symm
  · unfold state
    by_cases hk : k ∈ (r.tick seen).known
    · rw [absences_tick_eq_zero h k hk, if_neg (show ¬ 1 ≤ 0 by omega), if_neg (show ¬ n ≤ 0 by omega)]
    · rw [if_neg hk, if_neg hk]

end Register
