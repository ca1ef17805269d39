import Mathlib.Tactic

/-! Programs of database statements. A statement is evaluated on two databases:
the snapshot it read when it started and the latest state when it completes,
each with the transaction's own writes applied. Running a program alone makes
the two equal; interleaving programs is `Infragraph.Lib.ReadCommitted`. -/

namespace ReadCommitted

/-- A database that a write changes. -/
class Store (D W : Type) where
  write : D → W → D

variable {D W L ε ε' α β γ : Type}

def writeAll [Store D W] (db : D) (ws : List W) : D := ws.foldl Store.write db

@[simp] theorem writeAll_nil [Store D W] (db : D) : writeAll db ([] : List W) = db := rfl

theorem writeAll_cons [Store D W] (db : D) (w : W) (ws : List W) :
    writeAll db (w :: ws) = writeAll (Store.write db w) ws := rfl

theorem writeAll_append [Store D W] (db : D) (ws ws' : List W) :
    writeAll db (ws ++ ws') = writeAll (writeAll db ws) ws' := List.foldl_append

/-- The statement text and its arguments, as a statement log shows them. -/
structure Call where
  sql : String
  args : List String
deriving DecidableEq

/-- A statement: the rows and keys it must own to complete, and its result with
the rows it writes. The first database is the statement's snapshot, the second
the latest state. -/
structure Stmt (D W L ε β : Type) where
  call : Call
  locks : D → D → List L
  eval : D → D → Except ε (β × List W)

/-- A statement that reads its snapshot and neither writes nor waits. -/
def Stmt.select (call : Call) (f : D → β) : Stmt D W L ε β where
  call := call
  locks _ _ := []
  eval snap _ := .ok (f snap, [])

inductive Prog (D W L ε α : Type) : Type 1 where
  | ret (a : α)
  | throw (e : ε)
  | stmt {β : Type} (s : Stmt D W L ε β) (k : β → Prog D W L ε α)

namespace Prog

def bind : Prog D W L ε α → (α → Prog D W L ε β) → Prog D W L ε β
  | ret a, f => f a
  | throw e, _ => throw e
  | stmt s k, f => stmt s fun r => (k r).bind f

instance : Monad (Prog D W L ε) where
  pure := ret
  bind := bind

def exec (s : Stmt D W L ε α) : Prog D W L ε α := stmt s ret

def failIf (c : Prop) [Decidable c] (e : ε) : Prog D W L ε Unit :=
  if c then throw e else ret ()

theorem failIf_pos {c : Prop} [Decidable c] {e : ε} (h : c) : (failIf c e : Prog D W L ε Unit) = throw e := if_pos h

theorem failIf_neg {c : Prop} [Decidable c] {e : ε} (h : ¬ c) : (failIf c e : Prog D W L ε Unit) = ret () := if_neg h

@[simp] theorem pure_eq (a : α) : (Pure.pure a : Prog D W L ε α) = ret a := rfl

@[simp] theorem ret_bind (a : α) (f : α → Prog D W L ε β) : (ret a >>= f) = f a := rfl

@[simp] theorem throw_bind (e : ε) (f : α → Prog D W L ε β) : (throw e >>= f) = throw e := rfl

theorem stmt_bind (s : Stmt D W L ε γ) (k : γ → Prog D W L ε α) (f : α → Prog D W L ε β) :
    (stmt s k >>= f) = stmt s fun r => k r >>= f := rfl

theorem bind_ret (p : Prog D W L ε α) : (p >>= ret) = p := by
  induction p with
  | ret a => rfl
  | throw e => rfl
  | stmt s k ih => exact congrArg (stmt s) (funext ih)

theorem bind_assoc (p : Prog D W L ε α) (f : α → Prog D W L ε β) (g : β → Prog D W L ε γ) :
    (p >>= f >>= g) = p >>= fun a => f a >>= g := by
  induction p with
  | ret a => rfl
  | throw e => rfl
  | stmt s k ih => exact congrArg (stmt s) (funext ih)

instance : LawfulMonad (Prog D W L ε) :=
  LawfulMonad.mk' _ (fun p => bind_ret p) (fun _ _ => rfl) bind_assoc

def mapError (g : ε → ε') : Prog D W L ε α → Prog D W L ε' α
  | ret a => ret a
  | throw e => throw (g e)
  | stmt s k => stmt ⟨s.call, s.locks, fun d d' => (s.eval d d').mapError g⟩ fun r => (k r).mapError g

/-- The program on a server that answers some calls with an error, whatever it stores. -/
def refusing (refuse : Call → Option ε) : Prog D W L ε α → Prog D W L ε α
  | ret a => ret a
  | throw e => throw e
  | stmt s k =>
    match refuse s.call with
    | some e => throw e
    | none => stmt s fun r => (k r).refusing refuse

/-- Every row the program writes satisfies `P`. -/
def Writes (P : W → Prop) : Prog D W L ε α → Prop
  | ret _ => True
  | throw _ => True
  | stmt s k => (∀ d d' r ws, s.eval d d' = .ok (r, ws) → ∀ w ∈ ws, P w) ∧ ∀ r, (k r).Writes P

theorem Writes.exec {P : W → Prop} {s : Stmt D W L ε α}
    (h : ∀ d d' r ws, s.eval d d' = .ok (r, ws) → ∀ w ∈ ws, P w) : (Prog.exec s).Writes P :=
  ⟨h, fun _ => trivial⟩

theorem Writes.bind {P : W → Prop} {p : Prog D W L ε α} {f : α → Prog D W L ε β} (hp : p.Writes P)
    (hf : ∀ a, (f a).Writes P) : (p >>= f).Writes P := by
  induction p with
  | ret a => exact hf a
  | throw e => trivial
  | stmt s k ih => exact ⟨hp.1, fun r => ih r (hp.2 r)⟩

theorem Writes.failIf {P : W → Prop} {c : Prop} [Decidable c] {e : ε} :
    (Prog.failIf c e : Prog D W L ε Unit).Writes P := by
  unfold Prog.failIf
  split_ifs <;> trivial

theorem Writes.foldlM {P : W → Prop} {l : List γ} {f : α → γ → Prog D W L ε α} (h : ∀ a x, (f a x).Writes P)
    (a : α) : (l.foldlM f a).Writes P := by
  induction l generalizing a with
  | nil => trivial
  | cons x xs ih =>
    exact (h a x).bind ih

/-- As long as every statement returns what `R` allows, the program issues statements
that satisfy `P` and returns what satisfies `Q`. -/
def Along (R : ∀ {β : Type}, Stmt D W L ε β → β → Prop) (P : ∀ {β : Type}, Stmt D W L ε β → Prop) (Q : α → Prop) :
    Prog D W L ε α → Prop
  | ret a => Q a
  | throw _ => True
  | stmt s k => P s ∧ ∀ r, R s r → (k r).Along R P Q

section Along

variable {R : ∀ {β : Type}, Stmt D W L ε β → β → Prop} {P : ∀ {β : Type}, Stmt D W L ε β → Prop} {Q : α → Prop}

theorem Along.exec {s : Stmt D W L ε α} (h : P s) (hQ : ∀ r, R s r → Q r) : (Prog.exec s).Along R P Q := ⟨h, hQ⟩

theorem Along.bind {p : Prog D W L ε α} {f : α → Prog D W L ε β} {Q' : β → Prop} (hp : p.Along R P Q)
    (hf : ∀ a, Q a → (f a).Along R P Q') : (p >>= f).Along R P Q' := by
  induction p with
  | ret a => exact hf a hp
  | throw e => trivial
  | stmt s k ih => exact ⟨hp.1, fun r hr => ih r (hp.2 r hr)⟩

theorem Along.step {s : Stmt D W L ε α} {f : α → Prog D W L ε β} {Q' : β → Prop} (h : P s)
    (hf : ∀ r, R s r → (f r).Along R P Q') : (Prog.exec s >>= f).Along R P Q' := ⟨h, hf⟩

theorem Along.failIf {c : Prop} [Decidable c] {e : ε} {f : Unit → Prog D W L ε α} (h : ¬ c → (f ()).Along R P Q) :
    (Prog.failIf c e >>= f).Along R P Q := by
  unfold Prog.failIf
  split_ifs with hc
  · trivial
  · exact h hc

theorem Along.foldlM {l : List γ} {f : α → γ → Prog D W L ε α} (h : ∀ a, ∀ x ∈ l, Q a → (f a x).Along R P Q) {a : α}
    (ha : Q a) : (l.foldlM f a).Along R P Q := by
  induction l generalizing a with
  | nil => exact ha
  | cons x xs ih =>
    apply (h a x (.head _) ha).bind
    exact fun b => ih fun c y hy => h c y (List.mem_cons_of_mem x hy)

theorem Along.writes {p : Prog D W L ε α} {A : W → Prop} (h : p.Along (fun _ _ => True) P Q)
    (hP : ∀ {β : Type} {s : Stmt D W L ε β}, P s → (Prog.exec s).Writes A) : p.Writes A := by
  induction p with
  | ret a => trivial
  | throw e => trivial
  | stmt s k ih => exact ⟨(hP h.1).1, fun r => ih r (h.2 r trivial)⟩

end Along

section

variable {refuse : Call → Option ε}

/-- A program none of whose calls is refused. -/
theorem Along.refusing_eq {p : Prog D W L ε α} {Q : α → Prop}
    (h : p.Along (fun _ _ => True) (fun s => refuse s.call = none) Q) : p.refusing refuse = p := by
  induction p with
  | ret a => rfl
  | throw e => rfl
  | stmt s k ih =>
    unfold refusing
    rw [h.1]
    exact congrArg (stmt s) (funext fun r => ih r (h.2 r trivial))

theorem refusing_bind (p : Prog D W L ε α) (f : α → Prog D W L ε β) :
    (p >>= f).refusing refuse = p.refusing refuse >>= fun a => (f a).refusing refuse := by
  induction p with
  | ret a => rfl
  | throw e => rfl
  | stmt s k ih =>
    rw [stmt_bind]
    simp only [refusing]
    cases refuse s.call with
    | some e => rfl
    | none => exact congrArg (stmt s) (funext ih)

theorem refusing_exec_bind {s : Stmt D W L ε α} {f : α → Prog D W L ε β} {e : ε} (h : refuse s.call = some e) :
    (Prog.exec s >>= f).refusing refuse = throw e := by
  rw [Prog.exec, stmt_bind, refusing, h]

end

variable [Store D W]

/-- The program run alone from a database: every statement sees the writes of
those before it. -/
def run : Prog D W L ε α → D → Except ε (α × D)
  | ret a, db => .ok (a, db)
  | throw e, _ => .error e
  | stmt s k, db =>
    match s.eval db db with
    | .ok (r, ws) => (k r).run (writeAll db ws)
    | .error e => .error e

@[simp] theorem run_ret (a : α) (db : D) : (ret a : Prog D W L ε α).run db = .ok (a, db) := rfl

@[simp] theorem run_throw (e : ε) (db : D) : (throw e : Prog D W L ε α).run db = .error e := rfl

theorem run_bind (p : Prog D W L ε α) (f : α → Prog D W L ε β) (db : D) :
    (p >>= f).run db = p.run db >>= fun out => (f out.1).run out.2 := by
  induction p generalizing db with
  | ret a => rfl
  | throw e => rfl
  | stmt s k ih =>
    simp only [stmt_bind, run]
    cases s.eval db db with
    | error e => rfl
    | ok out => exact ih _ _

variable {p : Prog D W L ε α} {f : α → Prog D W L ε β} {db db' : D} {a : α} {b : β} {e : ε} {c : Prop} [Decidable c]

theorem run_stmt_ok {s : Stmt D W L ε γ} {k : γ → Prog D W L ε α} : (stmt s k).run db = .ok (a, db') ↔
      ∃ r ws, s.eval db db = .ok (r, ws) ∧ (k r).run (writeAll db ws) = .ok (a, db') := by
  simp only [run]
  cases h : s.eval db db with
  | ok out => obtain ⟨r, ws⟩ := out; simp
  | error e => simp

theorem run_exec_ok {s : Stmt D W L ε α} :
    (exec s).run db = .ok (a, db') ↔ ∃ ws, s.eval db db = .ok (a, ws) ∧ db' = writeAll db ws := by
  rw [exec, run_stmt_ok]
  constructor
  · rintro ⟨r, ws, he, hr⟩
    cases hr
    exact ⟨ws, he, rfl⟩
  · rintro ⟨ws, he, rfl⟩
    exact ⟨a, ws, he, rfl⟩

theorem run_bind_of_ok {out : α × D} (h : p.run db = .ok out) : (p >>= f).run db = (f out.1).run out.2 := by
  rw [run_bind, h]
  rfl

theorem run_bind_error (h : p.run db = .error e) : (p >>= f).run db = .error e := by
  rw [run_bind, h]
  rfl

theorem run_bind_ok :
    (p >>= f).run db = .ok (b, db') ↔ ∃ a db₁, p.run db = .ok (a, db₁) ∧ (f a).run db₁ = .ok (b, db') := by
  cases h : p.run db with
  | error e => simp [run_bind_error h]
  | ok out => simp [run_bind_of_ok h, Prod.ext_iff]

theorem run_mapError (g : ε → ε') (p : Prog D W L ε α) (db : D) : (p.mapError g).run db = (p.run db).mapError g := by
  induction p generalizing db with
  | ret a => rfl
  | throw e => rfl
  | stmt s k ih =>
    simp only [mapError, run]
    cases he : s.eval db db with
    | error e => rfl
    | ok r => exact ih _ _

theorem run_refusing_ok {refuse : Call → Option ε} (h : (p.refusing refuse).run db = .ok (a, db')) :
    p.run db = .ok (a, db') := by
  induction p generalizing db with
  | ret a => exact h
  | throw e => exact h
  | stmt s k ih =>
    simp only [refusing] at h
    cases hs : refuse s.call with
    | some e =>
      rw [hs] at h
      cases h
    | none =>
      rw [hs] at h
      obtain ⟨r, ws, he, hk⟩ := run_stmt_ok.mp h
      exact run_stmt_ok.mpr ⟨r, ws, he, ih r hk⟩

theorem run_failIf_ok {u : Unit} : (failIf c e : Prog D W L ε Unit).run db = .ok (u, db') ↔ ¬ c ∧ db' = db := by
  unfold failIf
  by_cases h : c
  · simp [h]
  · simp [h, eq_comm]

theorem run_failIf_bind_ok {f : Unit → Prog D W L ε β} {out : β × D} :
    (failIf c e >>= f).run db = .ok out ↔ ¬ c ∧ (f ()).run db = .ok out := by
  by_cases h : c
  · rw [failIf_pos h]
    simp [h]
  · rw [failIf_neg h]
    simp [h]

theorem run_select_ok {call : Call} {f : D → α} :
    (exec (Stmt.select call f) : Prog D W L ε α).run db = .ok (a, db') ↔ a = f db ∧ db' = db := by
  rw [run_exec_ok]
  constructor
  · rintro ⟨ws, he, rfl⟩
    cases he
    exact ⟨rfl, rfl⟩
  · rintro ⟨rfl, rfl⟩
    exact ⟨[], rfl, rfl⟩

/-- Every error the program ends with satisfies `P`. -/
def Raises (P : ε → Prop) (p : Prog D W L ε α) : Prop := ∀ db e, p.run db = .error e → P e

section Raises

variable {P : ε → Prop}

theorem Raises.ret (a : α) : (Prog.ret a : Prog D W L ε α).Raises P := by
  intro db e h
  cases h

theorem Raises.throw (h : P e) : (Prog.throw e : Prog D W L ε α).Raises P := by
  intro db e' h'
  cases h'
  exact h

theorem Raises.failIf (h : c → P e) : (Prog.failIf c e : Prog D W L ε Unit).Raises P := by
  unfold Prog.failIf
  split_ifs with hc
  · exact Raises.throw (h hc)
  · exact Raises.ret ()

theorem Raises.bind (hp : p.Raises P) (hf : ∀ a, (f a).Raises P) : (p >>= f).Raises P := by
  intro db e h
  cases hr : p.run db with
  | error e' =>
    rw [run_bind_error hr] at h
    cases h
    exact hp db _ hr
  | ok out =>
    rw [run_bind_of_ok hr] at h
    exact hf out.1 out.2 e h

theorem Raises.mapError {P : ε' → Prop} {g : ε → ε'} (h : ∀ e, P (g e)) (p : Prog D W L ε α) :
    (p.mapError g).Raises P := by
  intro db e he
  rw [run_mapError] at he
  cases hr : p.run db with
  | error e' =>
    rw [hr] at he
    cases he
    exact h e'
  | ok out =>
    rw [hr] at he
    cases he

end Raises

/-- What every statement preserves, the program preserves. -/
theorem Along.run {P : ∀ {β : Type}, Stmt D W L ε β → Prop} {Q : α → Prop} {R : D → D → Prop} (hrefl : ∀ d, R d d)
    (htrans : ∀ {d₁ d₂ d₃}, R d₁ d₂ → R d₂ d₃ → R d₁ d₃)
    (hP : ∀ {β : Type} {s : Stmt D W L ε β} {d d' r}, P s → (Prog.exec s).run d = .ok (r, d') → R d d')
    (h : p.Along (fun _ _ => True) P Q) (hr : p.run db = .ok (a, db')) : R db db' := by
  induction p generalizing db with
  | ret a =>
    cases hr
    exact hrefl _
  | throw e => cases hr
  | stmt s k ih =>
    obtain ⟨r, ws, he, hk⟩ := run_stmt_ok.mp hr
    apply htrans (hP h.1 (run_exec_ok.mpr ⟨ws, he, rfl⟩))
    exact ih r (h.2 r trivial) hk

/-- Loop rule: an invariant on the processed prefix, kept by every iteration,
holds after the loop. -/
theorem run_foldlM {l : List γ} {f : α → γ → Prog D W L ε α} {a a' : α} (I : List γ → α → D → Prop)
    (h : (l.foldlM f a).run db = .ok (a', db')) (h0 : I [] a db)
    (hstep : ∀ pre x post b d b' d', l = pre ++ x :: post → I pre b d →
      (f b x).run d = .ok (b', d') → I (pre ++ [x]) b' d') : I l a' db' := by
  suffices H : ∀ (post pre : List γ) (b : α) (d : D), l = pre ++ post → I pre b d →
      (post.foldlM f b).run d = .ok (a', db') → I l a' db' from H l [] a db rfl h0 h
  intro post
  induction post with
  | nil =>
    intro pre b d hl hI hr
    cases hr
    simpa [hl] using hI
  | cons x xs ih =>
    intro pre b d hl hI hr
    rw [List.foldlM_cons, run_bind_ok] at hr
    obtain ⟨b', d', hx, hxs⟩ := hr
    exact ih (pre ++ [x]) b' d' (by simp [hl]) (hstep pre x xs b d b' d' hl hI hx) hxs

/-- A loop over an element whose iteration is refused. -/
theorem run_refusing_foldlM {refuse : Call → Option ε} {l : List γ} {f : α → γ → Prog D W L ε α} {x : γ} (hx : x ∈ l)
    (hf : ∀ b, (f b x).refusing refuse = throw e) (a : α) (db : D) :
    ∃ e', ((l.foldlM f a).refusing refuse).run db = .error e' := by
  induction l generalizing a db with
  | nil => cases hx
  | cons y l ih =>
    rw [List.foldlM_cons, refusing_bind]
    rcases List.mem_cons.mp hx with rfl | hx
    · rw [hf]
      exact ⟨e, rfl⟩
    · cases hrun : ((f a y).refusing refuse).run db with
      | error e' => exact ⟨e', run_bind_error hrun⟩
      | ok out =>
        rw [run_bind_of_ok hrun]
        exact ih hx out.1 out.2

end Prog

end ReadCommitted
