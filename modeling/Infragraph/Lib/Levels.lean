import Mathlib.Data.Set.Card
import Mathlib.Tactic

/-! Breadth-first search by levels. `ball k` is what is at most `k` steps from the
start, `sphere k` what is exactly `k` steps away; a search that holds both as
lists goes from one level to the next by the new targets of its frontier. -/

namespace Levels

variable {V : Type*} {step : V → V → Prop} {start : V} {k n : ℕ} {v w : V}

def ball (step : V → V → Prop) (start : V) : ℕ → Set V
  | 0 => {start}
  | k + 1 => ball step start k ∪ {w | ∃ v ∈ ball step start k, step v w}

def sphere (step : V → V → Prop) (start : V) : ℕ → Set V
  | 0 => {start}
  | k + 1 => ball step start (k + 1) \ ball step start k

theorem ball_subset_succ : ball step start k ⊆ ball step start (k + 1) := Set.subset_union_left

theorem ball_mono (h : k ≤ n) : ball step start k ⊆ ball step start n := by
  induction n, h using Nat.le_induction with
  | base => exact subset_rfl
  | succ n _ ih => exact ih.trans ball_subset_succ

theorem step_mem_ball (hv : v ∈ ball step start k) (h : step v w) : w ∈ ball step start (k + 1) :=
  .inr ⟨v, hv, h⟩

theorem sphere_subset_ball : sphere step start k ⊆ ball step start k := by
  cases k with
  | zero => exact subset_rfl
  | succ k => exact Set.sdiff_subset

theorem mem_sphere_or (hv : v ∈ ball step start (k + 1)) : v ∈ ball step start k ∨ v ∈ sphere step start (k + 1) := by
  by_cases h : v ∈ ball step start k
  · exact .inl h
  · exact .inr ⟨hv, h⟩

/-- Only the sphere has targets outside the ball. -/
theorem ball_succ : ball step start (k + 1) =
    ball step start k ∪ {w | ∃ v ∈ sphere step start k, step v w} := by
  apply Set.Subset.antisymm
  · intro w hw
    cases hw with
    | inl hw => exact .inl hw
    | inr hw =>
      obtain ⟨v, hv, hstep⟩ := hw
      cases k with
      | zero => exact .inr ⟨v, hv, hstep⟩
      | succ k =>
        cases mem_sphere_or hv with
        | inl hv => exact .inl (step_mem_ball hv hstep)
        | inr hv => exact .inr ⟨v, hv, hstep⟩
  · intro w hw
    cases hw with
    | inl hw => exact .inl hw
    | inr hw =>
      obtain ⟨v, hv, hstep⟩ := hw
      exact step_mem_ball (sphere_subset_ball hv) hstep

section

variable (h : sphere step start k = ∅)
include h

theorem ball_succ_of_empty : ball step start (k + 1) = ball step start k := by
  rw [ball_succ, h]
  simp

theorem sphere_succ_of_empty : sphere step start (k + 1) = ∅ := by
  show ball step start (k + 1) \ ball step start k = ∅
  rw [ball_succ_of_empty h, Set.sdiff_self]

/-- A search that finds nothing new has found everything. -/
theorem sphere_empty_mono (hkn : k ≤ n) : sphere step start n = ∅ := by
  induction n, hkn using Nat.le_induction with
  | base => exact h
  | succ n _ ih => exact sphere_succ_of_empty ih

theorem ball_eq_of_empty (hkn : k ≤ n) : ball step start n = ball step start k := by
  induction n, hkn using Nat.le_induction with
  | base => rfl
  | succ n hkn ih => rw [ball_succ_of_empty (sphere_empty_mono h hkn), ih]

end

/-- A search that ended at `n`, or before it with nothing new, has found the ball of `n`. -/
theorem ball_eq_of_end (hkn : k ≤ n) (hend : k = n ∨ sphere step start k = ∅) :
    ball step start n = ball step start k := by
  cases hend with
  | inl heq => rw [heq]
  | inr hempty => exact ball_eq_of_empty hempty hkn

theorem ball_pred_of_empty (h : sphere step start (k + 1) = ∅) : ball step start (k + 1) = ball step start k :=
  Set.Subset.antisymm (Set.sdiff_eq_empty.mp h) ball_subset_succ

theorem mem_ball_iff : v ∈ ball step start k ↔ ∃ j < k + 1, v ∈ sphere step start j := by
  constructor
  · intro hv
    induction k with
    | zero => exact ⟨0, Nat.one_pos, hv⟩
    | succ k ih =>
      cases mem_sphere_or hv with
      | inl hv =>
        obtain ⟨j, hj, hv⟩ := ih hv
        exact ⟨j, by omega, hv⟩
      | inr hv => exact ⟨k + 1, by omega, hv⟩
  · rintro ⟨j, hj, hv⟩
    exact ball_mono (by omega) (sphere_subset_ball hv)

theorem not_mem_sphere_of_lt {j : ℕ} (hjk : j < k) (hv : v ∈ sphere step start j) : v ∉ sphere step start k := by
  cases k with
  | zero => omega
  | succ k =>
    intro h
    exact h.2 (ball_mono (by omega) (sphere_subset_ball hv))

theorem encard_ball_mono (h : k ≤ n) : (ball step start k).encard ≤ (ball step start n).encard :=
  Set.encard_le_encard (ball_mono h)

noncomputable def distance (step : V → V → Prop) (start v : V) : ℕ∞ :=
  sInf {d | ∃ k : ℕ, v ∈ ball step start k ∧ d = k}

theorem distance_le_iff : distance step start v ≤ k ↔ v ∈ ball step start k := by
  constructor
  · intro hle
    have hsome : {d : ℕ∞ | ∃ k : ℕ, v ∈ ball step start k ∧ d = k}.Nonempty := by
      by_contra hnone
      rw [distance, Set.not_nonempty_iff_eq_empty.mp hnone] at hle
      exact absurd hle (by simp)
    obtain ⟨j, hj, heq⟩ := csInf_mem hsome
    have hjk : (j : ℕ∞) ≤ k := heq ▸ hle
    exact ball_mono (by exact_mod_cast hjk) hj
  · intro hv
    exact sInf_le ⟨k, hv, rfl⟩

theorem distance_lt_iff : distance step start v < k ↔ ∃ j < k, v ∈ sphere step start j := by
  cases k with
  | zero => simp
  | succ k =>
    rw [Nat.cast_succ, Order.lt_add_one_iff_of_not_isMax (by simp), distance_le_iff, mem_ball_iff]

theorem distance_lt_of_end (hkn : k ≤ n) (hend : k = n ∨ sphere step start k = ∅) :
    distance step start v < n ↔ distance step start v < k := by
  rw [distance_lt_iff, distance_lt_iff]
  constructor
  · rintro ⟨j, hj, hv⟩
    refine ⟨j, ?_, hv⟩
    by_contra hkj
    cases hend with
    | inl heq => omega
    | inr hempty =>
      rw [sphere_empty_mono hempty (not_lt.mp hkj)] at hv
      exact hv
  · rintro ⟨j, hj, hv⟩
    exact ⟨j, by omega, hv⟩

theorem distance_of_mem_sphere (hv : v ∈ sphere step start k) : distance step start v = k := by
  apply le_antisymm (distance_le_iff.mpr (sphere_subset_ball hv))
  by_contra hlt
  obtain ⟨j, hj, hmem⟩ := distance_lt_iff.mp (not_le.mp hlt)
  exact not_mem_sphere_of_lt hj hmem hv

/-- The lists hold what is at most, and exactly, `k` steps away. -/
structure Level (step : V → V → Prop) (start : V) (k : ℕ) (visited frontier : List V) : Prop where
  nodup : visited.Nodup
  mem_visited : ∀ v, v ∈ visited ↔ v ∈ ball step start k
  mem_frontier : ∀ v, v ∈ frontier ↔ v ∈ sphere step start k

variable {visited frontier fresh : List V}

theorem Level.init : Level step start 0 [start] [start] where
  nodup := List.nodup_singleton start
  mem_visited _ := List.mem_singleton
  mem_frontier _ := List.mem_singleton

section

variable (h : Level step start k visited frontier)
include h

/-- The new targets of the frontier are the next level. -/
theorem Level.next (hnodup : fresh.Nodup) (hnext : ∀ w, w ∈ fresh ↔ w ∉ visited ∧ ∃ v ∈ frontier, step v w) :
    Level step start (k + 1) (visited ++ fresh) fresh := by
  have hball : ∀ w, w ∈ visited ++ fresh ↔ w ∈ ball step start (k + 1) := by
    intro w
    rw [ball_succ, List.mem_append, hnext, Set.mem_union, h.mem_visited]
    simp only [Set.mem_ofPred_eq, h.mem_frontier]
    tauto
  refine ⟨?_, hball, ?_⟩
  · rw [List.nodup_append]
    refine ⟨h.nodup, hnodup, ?_⟩
    intro v hv w hw hvw
    subst hvw
    exact ((hnext v).mp hw).1 hv
  · intro w
    show _ ↔ w ∈ ball step start (k + 1) \ ball step start k
    rw [Set.mem_sdiff, ← hball, List.mem_append, ← h.mem_visited]
    constructor
    · intro hw
      exact ⟨.inr hw, ((hnext w).mp hw).1⟩
    · intro hw
      exact hw.1.resolve_left hw.2

theorem Level.frontier_eq_nil : frontier = [] ↔ sphere step start k = ∅ := by
  rw [List.eq_nil_iff_forall_not_mem, Set.eq_empty_iff_forall_notMem]
  simp only [h.mem_frontier]

theorem Level.encard : (ball step start k).encard = visited.length := by
  classical
  have hset : ball step start k = (visited.toFinset : Set V) := by
    simp [h.mem_visited]
  rw [hset, Set.encard_coe_eq_coe_finsetCard, List.toFinset_card_of_nodup h.nodup]

end

/-- The lists hold a level, the nearer ones first. -/
structure Layered (step : V → V → Prop) (start : V) (k : ℕ) (visited frontier : List V) : Prop extends
    Level step start k visited frontier where
  first : visited.head? = some start
  sorted : visited.Pairwise fun v w => distance step start v ≤ distance step start w
  sublist : frontier.Sublist visited

theorem Layered.init : Layered step start 0 [start] [start] where
  toLevel := Level.init
  first := rfl
  sorted := List.pairwise_singleton _ _
  sublist := List.Sublist.refl _

/-- What a search appends at the next level keeps the order. -/
theorem Layered.next (h : Layered step start k visited frontier)
    (hlevel : Level step start (k + 1) (visited ++ fresh) fresh) :
    Layered step start (k + 1) (visited ++ fresh) fresh := by
  have hfresh : ∀ w ∈ fresh, distance step start w = (k + 1 : ℕ) :=
    fun w hw => distance_of_mem_sphere ((hlevel.mem_frontier w).mp hw)
  refine ⟨hlevel, ?_, List.pairwise_append.mpr ⟨h.sorted, ?_, ?_⟩, List.sublist_append_right _ _⟩
  · rw [List.head?_append, h.first]
    rfl
  · apply List.pairwise_of_forall_mem_list
    intro v hv w hw
    rw [hfresh v hv, hfresh w hw]
  · intro v hv w hw
    rw [hfresh w hw, distance_le_iff]
    exact ball_subset_succ ((h.mem_visited v).mp hv)

/-- A ball has at least as many members as any of its lists without repetition. -/
theorem length_le_encard {l : List V} (hnodup : l.Nodup) (hl : ∀ v ∈ l, v ∈ ball step start k) :
    (l.length : ℕ∞) ≤ (ball step start k).encard := by
  classical
  rw [← List.toFinset_card_of_nodup hnodup, ← Set.encard_coe_eq_coe_finsetCard]
  apply Set.encard_le_encard
  intro v hv
  exact hl v (by simpa using hv)

end Levels
