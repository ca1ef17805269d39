import Infragraph.Lib.Prog

/-! The trace of a loop: what each iteration did, with the state before and
after it. Facts about the whole loop are inductions over the trace, so the
program is taken apart once. -/

namespace ReadCommitted

/-- Where an element of a list with a last element stands. -/
theorem split_concat {α : Type} {l pre post : List α} {x y : α} (h : l ++ [y] = pre ++ x :: post) :
    (pre = l ∧ x = y ∧ post = []) ∨ ∃ post', post = post' ++ [y] ∧ l = pre ++ x :: post' := by
  rcases List.eq_nil_or_concat post with rfl | ⟨post', z, rfl⟩
  · obtain ⟨hl, hx⟩ := List.append_inj' h rfl
    exact .inl ⟨hl.symm, (List.singleton_inj.mp hx).symm, rfl⟩
  · rw [List.concat_eq_append, ← List.cons_append, ← List.append_assoc] at h
    obtain ⟨hl, hy⟩ := List.append_inj' h rfl
    rw [List.concat_eq_append, List.singleton_inj.mp hy]
    exact .inr ⟨post', rfl, hl⟩

inductive Steps {D χ : Type} (step : D → χ → D → Prop) (d : D) : List χ → D → Prop
  | nil : Steps step d [] d
  | snoc {l d₁ x d₂} : Steps step d l d₁ → step d₁ x d₂ → Steps step d (l ++ [x]) d₂

namespace Steps

variable {D χ : Type} {step : D → χ → D → Prop} {d d' d'' : D} {l l' : List χ}

theorem single {x : χ} (h : step d x d') : Steps step d [x] d' := Steps.nil.snoc h

theorem split {pre post : List χ} {x : χ} (h : Steps step d (pre ++ x :: post) d') :
    ∃ d₁ d₂, Steps step d pre d₁ ∧ step d₁ x d₂ ∧ Steps step d₂ post d' := by
  generalize hl : pre ++ x :: post = l at h
  induction h generalizing post with
  | nil => simp at hl
  | @snoc l d₁ y d₂ hs hy ih =>
    rcases split_concat hl.symm with ⟨rfl, rfl, rfl⟩ | ⟨post, rfl, hpre⟩
    · exact ⟨d₁, d₂, hs, hy, .nil⟩
    · obtain ⟨e₁, e₂, h1, h2, h3⟩ := ih hpre.symm
      exact ⟨e₁, e₂, h1, h2, h3.snoc hy⟩

theorem at_mem {x : χ} (h : Steps step d l d') (hx : x ∈ l) :
    ∃ pre d₁ d₂ post, Steps step d pre d₁ ∧ step d₁ x d₂ ∧ Steps step d₂ post d' := by
  obtain ⟨pre, post, rfl⟩ := List.append_of_mem hx
  obtain ⟨d₁, d₂, hparts⟩ := h.split
  exact ⟨pre, d₁, d₂, post, hparts⟩

/-- What every step of the trace keeps, the trace keeps. -/
theorem invariant {I : D → Prop} (h : Steps step d l d') (h0 : I d)
    (hstep : ∀ d₁ x d₂, x ∈ l → I d₁ → step d₁ x d₂ → I d₂) : I d' := by
  induction h with
  | nil => exact h0
  | snoc _ hx ih =>
    exact hstep _ _ _ (by simp) (ih fun d₁ y d₂ hy => hstep d₁ y d₂ (List.mem_append_left _ hy)) hx

end Steps

namespace Prog

variable {D W L ε α γ χ : Type} [Store D W]

/-- A loop leaves a trace when each iteration leaves a step. -/
theorem run_foldlM_steps {l : List γ} {f : α → γ → Prog D W L ε α} {a a' : α} {db db' : D} {step : D → χ → D → Prop}
    {item : χ → γ} {update : α → χ → α} (h : (l.foldlM f a).run db = .ok (a', db'))
    (hstep : ∀ b x d b' d', (f b x).run d = .ok (b', d') → ∃ y, item y = x ∧ b' = update b y ∧ step d y d') :
    ∃ ys : List χ, ys.map item = l ∧ a' = ys.foldl update a ∧ Steps step db ys db' := by
  refine run_foldlM (fun pre b d => ∃ ys : List χ, ys.map item = pre ∧ b = ys.foldl update a ∧
    Steps step db ys d) h ⟨[], rfl, rfl, .nil⟩ ?_
  intro pre x post b d b' d' _ hparts hrun
  obtain ⟨ys, hmap, hb, hs⟩ := hparts
  obtain ⟨y, rfl, hb', hy⟩ := hstep b x d b' d' hrun
  exact ⟨ys ++ [y], by simp [hmap], by simp [hb', hb], hs.snoc hy⟩

end Prog

end ReadCommitted
