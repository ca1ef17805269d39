import Mathlib.Tactic

/-! Lists by what is looked up, selected or numbered in them, and loops over them that can fail. -/

namespace List

variable {α β κ ε : Type}

theorem mem_of_lookup [DecidableEq κ] {k : κ} {a : α} {l : List (κ × α)} (h : l.lookup k = some a) : (k, a) ∈ l := by
  obtain ⟨l₁, l₂, rfl, -⟩ := List.lookup_eq_some_iff.mp h
  simp

theorem lookup_filter_map [DecidableEq κ] {f : κ → α} {p : κ × α → Bool} (ks : List κ) (k : κ) :
    ((ks.map fun k => (k, f k)).filter p).lookup k = if k ∈ ks ∧ p (k, f k) then some (f k) else none := by
  induction ks with
  | nil => simp
  | cons k' ks ih =>
    rw [List.map_cons]
    by_cases hp : p (k', f k') = true
    · rw [List.filter_cons_of_pos hp, List.lookup_cons]
      by_cases hk : k = k'
      · subst hk
        simp [hp]
      · have hbeq : (k == k') = false := by simpa using hk
        simp [hk, hbeq, ih]
    · rw [List.filter_cons_of_neg hp, ih]
      by_cases hk : k = k'
      · subst hk
        simp [hp]
      · simp [hk]

/-- Of a list without repetition one element is selected. -/
theorem filter_eq_singleton {p : α → Bool} {l : List α} {x : α} (hl : l.Nodup) (hx : x ∈ l)
    (hp : ∀ y ∈ l, p y = true ↔ y = x) : l.filter p = [x] := by
  apply List.perm_singleton.mp
  rw [List.perm_ext_iff_of_nodup (hl.filter p) (List.nodup_singleton x)]
  intro y
  rw [List.mem_filter, List.mem_singleton]
  constructor
  · rintro ⟨hy, hpy⟩
    exact (hp y hy).mp hpy
  · rintro rfl
    exact ⟨hx, (hp y hx).mpr rfl⟩

theorem forall₂_mapIdx {R : α → α → Prop} {S : β → β → Prop} {f g : ℕ → α → β} {l l' : List α} (h : List.Forall₂ R l l')
    (hfg : ∀ i a a', R a a' → S (f i a) (g i a')) : List.Forall₂ S (l.mapIdx f) (l'.mapIdx g) := by
  induction h generalizing f g with
  | nil => exact .nil
  | cons ha _ ih =>
    rw [List.mapIdx_cons, List.mapIdx_cons]
    exact .cons (hfg 0 _ _ ha) (ih fun i => hfg (i + 1))

/-- What every step of a loop keeps. -/
theorem foldlM_ok {f : α → β → Except ε α} {I : α → Prop} {l : List β} {a a' : α} (h : l.foldlM f a = .ok a') (h0 : I a)
    (hstep : ∀ b ∈ l, ∀ a a', I a → f a b = .ok a' → I a') : I a' := by
  induction l generalizing a with
  | nil =>
    cases h
    exact h0
  | cons b l ih =>
    rw [List.foldlM_cons] at h
    cases hf : f a b with
    | error e =>
      rw [hf] at h
      cases h
    | ok a₁ =>
      rw [hf] at h
      exact ih h (hstep b (.head _) a a₁ h0 hf) fun b' hb' => hstep b' (.tail _ hb')

end List

theorem Except.ok_bind {α β ε : Type} (a : α) (f : α → Except ε β) : (Except.ok a >>= f) = f a := rfl
