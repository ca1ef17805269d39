import Mathlib.Tactic

/-! A counter of calls in windows of a fixed length. A window begins with the first call
after the one before it has ended, so an interval of that length meets at most two
windows. -/

namespace FixedWindow

structure Window where
  start : ℤ
  count : ℕ
deriving DecidableEq

def Window.advance (period : ℤ) (w : Window) (now : ℤ) : Window :=
  if period < now - w.start then ⟨now, 1⟩ else ⟨w.start, w.count + 1⟩

/-- The times of the calls that are among the first `limit` of their window. -/
def allowed (limit : ℕ) (period : ℤ) (w : Window) : List ℤ → List ℤ
  | [] => []
  | now :: times =>
    if (w.advance period now).count ≤ limit then now :: allowed limit period (w.advance period now) times
    else allowed limit period (w.advance period now) times

def within (limit : ℕ) (period a : ℤ) (w : Window) (times : List ℤ) : ℕ :=
  ((allowed limit period w times).filter fun t => a ≤ t ∧ t ≤ a + period).length

variable {limit : ℕ} {period a : ℤ} {w : Window} {times : List ℤ} {now : ℤ}

theorem within_cons : within limit period a w (now :: times) =
    (if (w.advance period now).count ≤ limit ∧ a ≤ now ∧ now ≤ a + period then 1 else 0) +
      within limit period a (w.advance period now) times := by
  unfold within
  rw [allowed]
  by_cases hcount : (w.advance period now).count ≤ limit
  · by_cases hin : a ≤ now ∧ now ≤ a + period
    · simp [hcount, hin, Nat.add_comm]
    · simp [hcount, hin]
  · simp [hcount]

theorem allowed_subset : ∀ t ∈ allowed limit period w times, t ∈ times := by
  induction times generalizing w with
  | nil => simp [allowed]
  | cons now times ih =>
    intro t ht
    rw [allowed] at ht
    split_ifs at ht
    · rcases List.mem_cons.mp ht with rfl | ht
      · exact .head _
      · exact .tail _ (ih t ht)
    · exact .tail _ (ih t ht)

theorem within_of_after (h : ∀ t ∈ times, a + period < t) : within limit period a w times = 0 := by
  refine List.length_eq_zero_iff.mpr (List.filter_eq_nil_iff.mpr fun t ht => ?_)
  have := h t (allowed_subset t ht)
  simp only [decide_eq_true_eq, not_and, not_le]
  omega

section

variable (hsorted : times.Pairwise (· ≤ ·))
include hsorted

/-- A window that began in the interval lasts until its end. -/
theorem within_of_started (hstart : a ≤ w.start) : within limit period a w times ≤ limit - w.count := by
  induction times generalizing w with
  | nil => simp [within, allowed]
  | cons now times ih =>
    obtain ⟨hfirst, hrest⟩ := List.pairwise_cons.mp hsorted
    by_cases hnew : period < now - w.start
    · rw [within_of_after]
      · omega
      · intro t ht
        rcases List.mem_cons.mp ht with rfl | ht
        · omega
        · have := hfirst t ht
          omega
    · have hadvance : w.advance period now = ⟨w.start, w.count + 1⟩ := if_neg hnew
      rw [within_cons, hadvance]
      have hle : within limit period a ⟨w.start, w.count + 1⟩ times ≤ limit - (w.count + 1) := ih hrest hstart
      dsimp only
      split_ifs <;> omega

/-- From the beginning of the interval on, there is the rest of a window and one more. -/
theorem within_of_after_start (hafter : ∀ t ∈ times, a ≤ t) :
    within limit period a w times ≤ limit - w.count + limit := by
  induction times generalizing w with
  | nil => simp [within, allowed]
  | cons now times ih =>
    obtain ⟨hfirst, hrest⟩ := List.pairwise_cons.mp hsorted
    obtain ⟨hnow, htimes⟩ := List.forall_mem_cons.mp hafter
    by_cases hnew : period < now - w.start
    · have hadvance : w.advance period now = ⟨now, 1⟩ := if_pos hnew
      rw [within_cons, hadvance]
      have hle : within limit period a ⟨now, 1⟩ times ≤ limit - 1 := within_of_started hrest hnow
      dsimp only
      split_ifs <;> omega
    · have hadvance : w.advance period now = ⟨w.start, w.count + 1⟩ := if_neg hnew
      rw [within_cons, hadvance]
      have hle : within limit period a ⟨w.start, w.count + 1⟩ times ≤ limit - (w.count + 1) + limit :=
        ih hrest htimes
      dsimp only
      split_ifs <;> omega

/-- Any interval of the length of a window has at most the calls of two. -/
theorem within_le : within limit period a w times ≤ 2 * limit := by
  induction times generalizing w with
  | nil => simp [within, allowed]
  | cons now times ih =>
    obtain ⟨hfirst, hrest⟩ := List.pairwise_cons.mp hsorted
    by_cases hnow : a ≤ now
    · have hafter : ∀ t ∈ now :: times, a ≤ t := by
        intro t ht
        rcases List.mem_cons.mp ht with rfl | ht
        · exact hnow
        · exact hnow.trans (hfirst t ht)
      have hle : within limit period a w (now :: times) ≤ limit - w.count + limit :=
        within_of_after_start hsorted hafter
      omega
    · rw [within_cons, if_neg (fun h => hnow h.2.1), Nat.zero_add]
      exact ih hrest

end

end FixedWindow
