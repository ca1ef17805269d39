import Infragraph.Lib.Prog

/-! Programs that depend on the part of the database that a party owns. A statement
is confined, under an invariant, when it reads the owned part alone, writes nothing
else and keeps the invariant; a program of confined statements then runs the same way
with the rest as without it. -/

namespace ReadCommitted

variable {D W L ε ε' α β γ : Type} [Store D W]

def Stmt.Confined (own : D → D) (I : D → Prop) (s : Stmt D W L ε β) : Prop :=
  ∀ d, I d → s.eval d d = s.eval (own d) (own d) ∧
    ∀ r ws, s.eval d d = .ok (r, ws) → own (writeAll d ws) = writeAll (own d) ws ∧ I (writeAll d ws)

namespace Prog

/-- The program ends on every database with the invariant as it ends on the owned part
alone, with a result that satisfies `Q`, and keeps the invariant. -/
def Confined (own : D → D) (I : D → Prop) (p : Prog D W L ε α) (Q : α → Prop) : Prop :=
  ∀ d, I d →
    match p.run (own d) with
    | .ok (a, o) => Q a ∧ ∃ d', p.run d = .ok (a, d') ∧ own d' = o ∧ I d'
    | .error e => p.run d = .error e

variable {own : D → D} {I : D → Prop} {Q : α → Prop}

theorem Confined.ret {a : α} (h : Q a) : (Prog.ret a : Prog D W L ε α).Confined own I Q :=
  fun d hd => ⟨h, d, rfl, rfl, hd⟩

theorem Confined.throw {e : ε} : (Prog.throw e : Prog D W L ε α).Confined own I Q := fun _ _ => rfl

theorem Confined.stmt {s : Stmt D W L ε β} {k : β → Prog D W L ε α} (hs : s.Confined own I)
    (hk : ∀ d r ws, I d → s.eval d d = .ok (r, ws) → (k r).Confined own I Q) : (Prog.stmt s k).Confined own I Q := by
  intro d hd
  obtain ⟨hlocal, hadmits⟩ := hs d hd
  simp only [run, ← hlocal]
  cases he : s.eval d d with
  | error e => rfl
  | ok out =>
    obtain ⟨hown, hkept⟩ := hadmits out.1 out.2 he
    have := hk d out.1 out.2 hd he (writeAll d out.2) hkept
    rw [hown] at this
    exact this

theorem Confined.exec {s : Stmt D W L ε α} (hs : s.Confined own I)
    (hQ : ∀ d r ws, I d → s.eval d d = .ok (r, ws) → Q r) : (Prog.exec s).Confined own I Q :=
  Confined.stmt hs fun d r ws hd he => Confined.ret (hQ d r ws hd he)

theorem Confined.bind {p : Prog D W L ε α} {f : α → Prog D W L ε β} {Q' : β → Prop} (hp : p.Confined own I Q)
    (hf : ∀ a, Q a → (f a).Confined own I Q') : (p >>= f).Confined own I Q' := by
  intro d hd
  have hrun := hp d hd
  cases ho : p.run (own d) with
  | error e =>
    rw [ho] at hrun
    rw [run_bind_error ho]
    exact run_bind_error hrun
  | ok out =>
    rw [ho] at hrun
    obtain ⟨hq, d', hd', hown, hkept⟩ := hrun
    rw [run_bind_of_ok ho, run_bind_of_ok hd', ← hown]
    exact hf out.1 hq d' hkept

theorem Confined.failIf {c : Prop} [Decidable c] {e : ε} :
    (Prog.failIf c e : Prog D W L ε Unit).Confined own I fun _ => ¬ c := by
  unfold Prog.failIf
  split_ifs with h
  · exact Confined.throw
  · exact Confined.ret h

theorem Confined.mapError {g : ε → ε'} {p : Prog D W L ε α} (h : p.Confined own I Q) :
    (p.mapError g).Confined own I Q := by
  intro d hd
  have hrun := h d hd
  rw [run_mapError, run_mapError]
  cases ho : p.run (own d) with
  | error e =>
    rw [ho] at hrun
    rw [hrun]
    rfl
  | ok out =>
    rw [ho] at hrun
    obtain ⟨hq, d', hd', hown, hkept⟩ := hrun
    rw [hd']
    exact ⟨hq, d', rfl, hown, hkept⟩

/-- Two databases that look the same to the owner end the same for them. -/
theorem Confined.same {I' : D → Prop} {p : Prog D W L ε α} (h : p.Confined own I Q) (h' : p.Confined own I' Q) {d d' : D}
    (hd : I d) (hd' : I' d') (hown : own d = own d') : (∃ e, p.run d = .error e ∧ p.run d' = .error e) ∨
      ∃ a x x', p.run d = .ok (a, x) ∧ p.run d' = .ok (a, x') ∧ own x = own x' := by
  have hrun := h d hd
  have hrun' := h' d' hd'
  rw [← hown] at hrun'
  cases ho : p.run (own d) with
  | error e =>
    rw [ho] at hrun hrun'
    exact .inl ⟨e, hrun, hrun'⟩
  | ok out =>
    rw [ho] at hrun hrun'
    obtain ⟨-, x, hx, hxo, -⟩ := hrun
    obtain ⟨-, x', hx', hxo', -⟩ := hrun'
    exact .inr ⟨out.1, x, x', hx, hx', hxo.trans hxo'.symm⟩

end Prog

end ReadCommitted
