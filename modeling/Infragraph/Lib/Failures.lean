import Infragraph.Lib.Sql

/-! Where a run stops: a sequence of programs stops at its first error, a loop in its
first failing iteration, and a statement for a row that is there or missing. -/

namespace ReadCommitted

open Relational

variable {D W L ε α β γ ρ : Type} [Store D W]
variable {db : D} {e : ε} {call : Call} {row : ρ → W} {out : ρ → β} {p : Prog D W L ε α} {f : α → Prog D W L ε β}

namespace Prog

theorem run_bind_eq_error : (p >>= f).run db = .error e ↔
      p.run db = .error e ∨ ∃ a db₁, p.run db = .ok (a, db₁) ∧ (f a).run db₁ = .error e := by
  cases hp : p.run db with
  | error e' => simp [run_bind_error hp]
  | ok out => simp [run_bind_of_ok hp, Prod.ext_iff]

theorem run_bind_ret_eq_error {g : α → β} : (p >>= fun a => ret (g a)).run db = .error e ↔ p.run db = .error e := by
  rw [run_bind_eq_error]
  exact or_iff_left nofun

theorem run_failIf_eq_error {c : Prop} [Decidable c] {e' : ε} :
    (failIf c e : Prog D W L ε Unit).run db = .error e' ↔ c ∧ e' = e := by
  unfold failIf
  by_cases h : c
  · simp [h, eq_comm]
  · simp [h]

theorem run_failIf_bind_eq_error {c : Prop} [Decidable c] {e' : ε} {p : Unit → Prog D W L ε β} :
    (failIf c e' >>= p).run db = .error e ↔ c ∧ e = e' ∨ ¬ c ∧ (p ()).run db = .error e := by
  by_cases h : c
  · rw [failIf_pos h]
    simp [h, eq_comm]
  · rw [failIf_neg h]
    simp [h]

theorem run_select_bind_eq_error {g : D → α} : (exec (Stmt.select call g) >>= f).run db = .error e ↔
    (f (g db)).run db = .error e := Iff.rfl

/-- A loop that stops has run to an element whose iteration stops. -/
theorem run_foldlM_error {l : List γ} {f : α → γ → Prog D W L ε α} {a : α} (h : (l.foldlM f a).run db = .error e) :
    ∃ pre x post b d, l = pre ++ x :: post ∧ (pre.foldlM f a).run db = .ok (b, d) ∧ (f b x).run d = .error e := by
  induction l generalizing a db with
  | nil => cases h
  | cons x l ih =>
    rw [List.foldlM_cons, run_bind_eq_error] at h
    rcases h with hx | ⟨b, d, hx, hrest⟩
    · exact ⟨[], x, l, a, db, rfl, rfl, hx⟩
    · obtain ⟨pre, y, post, c, d', rfl, hpre, hy⟩ := ih hrest
      refine ⟨x :: pre, y, post, c, d', rfl, ?_, hy⟩
      rw [List.foldlM_cons, run_bind_ok]
      exact ⟨b, d, hx, hpre⟩

theorem run_foldlM_ne_error {l : List γ} {f : α → γ → Prog D W L ε α} {a : α}
    (h : ∀ b x d e, (f b x).run d ≠ .error e) : (l.foldlM f a).run db ≠ .error e := by
  intro hrun
  obtain ⟨_, _, _, _, _, -, -, hstep⟩ := run_foldlM_error hrun
  exact h _ _ _ _ hstep

end Prog

variable {key : ρ → γ} [DecidableEq γ]

theorem run_update_ne_error {table : D → Table key} {lock : ρ → L} {p : D → ρ → Bool} {f : ρ → ρ} :
    (Prog.exec (Stmt.update call table row lock p f out : Stmt D W L ε (List β))).run db ≠ .error e := by
  intro h
  cases h

theorem run_update_bind_error {table : D → Table key} {lock : ρ → L} {p : D → ρ → Bool} {f : ρ → ρ}
    {k : List β → Prog D W L ε α}
    (h : (Prog.exec (Stmt.update call table row lock p f out) >>= k).run db = .error e) :
    ∃ bs db₁, (Prog.exec (Stmt.update call table row lock p f out : Stmt D W L ε (List β))).run db = .ok (bs, db₁) ∧
      (k bs).run db₁ = .error e :=
  (Prog.run_bind_eq_error.mp h).resolve_left run_update_ne_error

omit [DecidableEq γ] in
theorem run_insert_eq_error {locks : List L} {refused : D → Option ε} {r : ρ} :
    (Prog.exec (Stmt.insert call row locks refused r : Stmt D W L ε Unit)).run db = .error e ↔
      refused db = some e := by
  simp only [Prog.exec, Prog.run, Stmt.insert]
  cases refused db with
  | none => simp
  | some e' => simp

omit [DecidableEq γ] in
theorem run_upsert_eq_error {locks : List L} {find : D → Option ρ} {refused : D → Option ε} {r : ρ} {merge : ρ → ρ} :
    (Prog.exec (Stmt.upsert call row locks find refused r merge out : Stmt D W L ε β)).run db = .error e ↔
      find db = none ∧ refused db = some e := by
  simp only [Prog.exec, Prog.run, Stmt.upsert]
  cases find db with
  | some old => simp
  | none =>
    cases refused db with
    | none => simp
    | some e' => simp

omit [DecidableEq γ] in
theorem run_selectForUpdate_eq_error {find : D → Option ρ} {lock : ρ → L} {none_ : ε} :
    (Prog.exec (Stmt.selectForUpdate call find lock none_ out : Stmt D W L ε β)).run db = .error e ↔
      find db = none ∧ e = none_ := by
  simp only [Prog.exec, Prog.run, Stmt.selectForUpdate]
  cases find db with
  | none => simp [eq_comm]
  | some r => simp

end ReadCommitted
