import Infragraph.Lib.Prog

/-! Interleaved transactions under READ COMMITTED. A statement starts by taking
a snapshot of the committed database and completes when no other session holds
a row or key it must own; what it locks is held to the end of the transaction,
what it writes is seen by its own session only, and a commit publishes all of
it at once. `Safe` is the logic for such programs: assertions that survive the
commits of other sessions, checked statement by statement. -/

namespace ReadCommitted

variable {D W L ε α β γ ρ : Type}

/-- What a session has done so far. `reads` records, for the schedule, the
committed database each completed statement started from. -/
structure Local (D W L : Type) where
  writes : List W := []
  held : List L := []
  reads : List (Call × D) := []

/-- A session works for one request. -/
structure Session (D W L ε α ρ : Type) : Type 1 where
  req : ρ
  prog : Prog D W L ε α
  snap : Option D
  loc : Local D W L

/-- The committed database, the open sessions, the requests begun so far and
the committed requests with their results, in commit order. -/
structure State (D W L ε α ρ : Type) : Type 1 where
  db : D
  sessions : ℕ → Option (Session D W L ε α ρ)
  begun : List ρ
  log : List (ρ × α)

def State.init (db : D) : State D W L ε α ρ := ⟨db, fun _ => none, [], []⟩

def State.Quiet (s : State D W L ε α ρ) : Prop := ∀ t, s.sessions t = none

/-- Which statement completions may happen: of a call, after these reads, from
this snapshot, in this committed database. -/
abbrev Schedule (D : Type) := Call → List (Call × D) → D → D → Prop

def Schedule.any : Schedule D := fun _ _ _ _ => True

/-- The code of each request, which request may begin after which, and which
completions the schedule allows. -/
structure System (D W L ε α ρ : Type) : Type 1 where
  code : ρ → Prog D W L ε α
  admits : List ρ → ρ → Prop := fun _ _ => True
  schedule : ρ → Schedule D := fun _ => .any

variable [Store D W]

def Local.view (l : Local D W L) (db : D) : D := writeAll db l.writes

def Local.done (l : Local D W L) (s : Stmt D W L ε β) (snap db : D) (ws : List W) : Local D W L where
  writes := l.writes ++ ws
  held := l.held ++ s.locks (l.view snap) (l.view db)
  reads := l.reads ++ [(s.call, snap)]

theorem Local.view_done (l : Local D W L) (s : Stmt D W L ε β) (snap db d : D) (ws : List W) :
    (l.done s snap db ws).view d = writeAll (l.view d) ws := writeAll_append _ _ _

inductive Event (ε α ρ : Type) where
  | begin (t : ℕ) (r : ρ)
  | start (t : ℕ)
  | finish (t : ℕ)
  | fail (t : ℕ) (e : ε)
  | abort (t : ℕ)
  | commit (t : ℕ) (a : α)

variable (S : System D W L ε α ρ)

/-- One step. `abort` is a deadlock victim, a lost connection or a commit that
did not happen: the session is gone and nothing was written. -/
inductive Step : State D W L ε α ρ → Event ε α ρ → State D W L ε α ρ → Prop
  | begin {s t r} : s.sessions t = none → S.admits s.begun r →
      Step s (.begin t r)
        { s with sessions := Function.update s.sessions t (some ⟨r, S.code r, none, {}⟩)
                 begun := s.begun ++ [r] }
  | start {s t q l} {β : Type} {st : Stmt D W L ε β} {k} :
      s.sessions t = some ⟨q, .stmt st k, none, l⟩ →
      Step s (.start t)
        { s with sessions := Function.update s.sessions t (some ⟨q, .stmt st k, some s.db, l⟩) }
  | finish {s t q l d} {β : Type} {st : Stmt D W L ε β} {k r ws} :
      s.sessions t = some ⟨q, .stmt st k, some d, l⟩ →
      S.schedule q st.call l.reads d s.db →
      (∀ t' x, t' ≠ t → s.sessions t' = some x →
        ∀ lk ∈ st.locks (l.view d) (l.view s.db), lk ∉ x.loc.held) →
      st.eval (l.view d) (l.view s.db) = .ok (r, ws) →
      Step s (.finish t)
        { s with sessions := Function.update s.sessions t (some ⟨q, k r, none, l.done st d s.db ws⟩) }
  | refuse {s t q l d} {β : Type} {st : Stmt D W L ε β} {k e} :
      s.sessions t = some ⟨q, .stmt st k, some d, l⟩ →
      st.eval (l.view d) (l.view s.db) = .error e →
      Step s (.fail t e) { s with sessions := Function.update s.sessions t none }
  | throw {s t q l e} : s.sessions t = some ⟨q, .throw e, none, l⟩ →
      Step s (.fail t e) { s with sessions := Function.update s.sessions t none }
  | abort {s t x} : s.sessions t = some x →
      Step s (.abort t) { s with sessions := Function.update s.sessions t none }
  | commit {s t q l a} : s.sessions t = some ⟨q, .ret a, none, l⟩ →
      Step s (.commit t a)
        { s with db := l.view s.db
                 sessions := Function.update s.sessions t none
                 log := s.log ++ [(q, a)] }

/-- The states reached from a committed database with no session open. -/
inductive Reach (db : D) : State D W L ε α ρ → Prop
  | init : Reach db (State.init db)
  | step {s e s'} : Reach db s → Step S s e s' → Reach db s'

variable {s s' : State D W L ε α ρ} {t : ℕ}

/-- The database and the log change at a commit only. -/
theorem Step.commit_or_same {e : Event ε α ρ} (h : Step S s e s') :
    (∃ t a, e = .commit t a) ∨ (∀ t a, e ≠ .commit t a) ∧ s'.db = s.db ∧ s'.log = s.log := by
  cases h with
  | commit _ => exact .inl ⟨_, _, rfl⟩
  | _ => exact .inr ⟨by simp, rfl, rfl⟩

theorem update_eq_some {σ : Type*} {f : ℕ → Option σ} {o : Option σ} {u : ℕ} {x : σ}
    (h : Function.update f t o u = some x) : u = t ∧ o = some x ∨ u ≠ t ∧ f u = some x := by
  by_cases hut : u = t
  · subst hut
    rw [Function.update_self] at h
    exact .inl ⟨rfl, h⟩
  · rw [Function.update_of_ne hut] at h
    exact .inr ⟨hut, h⟩

theorem Step.session_req {e : Event ε α ρ} (h : Step S s e s') {x' : Session D W L ε α ρ}
    (hx' : s'.sessions t = some x') : (∃ x, s.sessions t = some x ∧ x.req = x'.req) ∨ e = .begin t x'.req := by
  cases h with
  | begin hs _ =>
    rcases update_eq_some hx' with ⟨rfl, ho⟩ | ⟨-, hold⟩
    · cases ho
      exact .inr rfl
    · exact .inl ⟨x', hold, rfl⟩
  | start hs | finish hs _ _ _ =>
    rcases update_eq_some hx' with ⟨rfl, ho⟩ | ⟨-, hold⟩
    · cases ho
      exact .inl ⟨_, hs, rfl⟩
    · exact .inl ⟨x', hold, rfl⟩
  | refuse hs _ | throw hs | abort hs | commit hs =>
    rcases update_eq_some hx' with ⟨-, ho⟩ | ⟨-, hold⟩
    · cases ho
    · exact .inl ⟨x', hold, rfl⟩

/-- Two sessions never hold the same row or key. -/
def Exclusive (s : State D W L ε α ρ) : Prop :=
  ∀ t t' x x', t ≠ t' → s.sessions t = some x → s.sessions t' = some x' →
    ∀ lk ∈ x.loc.held, lk ∉ x'.loc.held

omit [Store D W] in
theorem Exclusive.update (h : Exclusive s) {o : Option (Session D W L ε α ρ)}
    (hn : ∀ x, o = some x → ∀ t' x', t' ≠ t → s.sessions t' = some x' →
      ∀ lk ∈ x.loc.held, lk ∉ x'.loc.held) {db : D} {begun : List ρ} {log : List (ρ × α)} :
    Exclusive ⟨db, Function.update s.sessions t o, begun, log⟩ := by
  intro u u' x x' hne hu hu' lk hlk hlk'
  rcases update_eq_some hu with ⟨rfl, ho⟩ | ⟨hut, hold⟩ <;> rcases update_eq_some hu' with ⟨rfl, ho'⟩ | ⟨hut', hold'⟩
  · exact hne rfl
  · exact hn x ho u' x' hut' hold' lk hlk hlk'
  · exact hn x' ho' u x hut hold lk hlk' hlk
  · exact h u u' x x' hne hold hold' lk hlk hlk'

theorem Step.exclusive {e : Event ε α ρ} (h : Step S s e s') (hx : Exclusive s) : Exclusive s' := by
  cases h with
  | begin _ _ => exact hx.update (by rintro x ⟨⟩; simp)
  | start hs =>
    refine hx.update ?_
    rintro x ⟨⟩ t' x' hne hs' lk hlk
    exact hx _ t' _ x' hne.symm hs hs' lk hlk
  | finish hs _ hfree _ =>
    refine hx.update ?_
    rintro x ⟨⟩ t' x' hne hs' lk hlk
    rcases List.mem_append.mp hlk with hlk | hlk
    · exact hx _ t' _ x' hne.symm hs hs' lk hlk
    · exact hfree t' x' hne hs' lk hlk
  | refuse _ _ | throw _ | abort _ | commit _ => exact hx.update (by rintro x ⟨⟩)

/-- The database and the log after some requests, one after the other. -/
def System.serial : List ρ → D → Option (D × List (ρ × α))
  | [], db => some (db, [])
  | q :: qs, db =>
    match (S.code q).run db with
    | .ok (a, db') => (serial qs db').map fun out => (out.1, (q, a) :: out.2)
    | .error _ => none

section

variable {S}

/-- Where a session is left to run with no other open, the rest of its program
does what it does when run alone: every statement starts from the database it
completes in. `P` is what the steps of sessions keep. -/
theorem steps_alone {P : State D W L ε α ρ → Prop}
    (hP : ∀ s e s', P s → Step S s e s' → (∀ t r, e ≠ .begin t r) → P s') {q : ρ} {p : Prog D W L ε α}
    (hsched : ∀ c rs d, (∀ x ∈ rs, x.2 = d) → S.schedule q c rs d d) {l : Local D W L} (h : P s)
    (hs : s.sessions t = some ⟨q, p, none, l⟩) (halone : ∀ u, u ≠ t → s.sessions u = none)
    (hl : ∀ x ∈ l.reads, x.2 = s.db) {a : α} {d' : D} (hrun : p.run (l.view s.db) = .ok (a, d')) :
    ∃ s' l', P s' ∧ s'.sessions t = some ⟨q, .ret a, none, l'⟩ ∧ (∀ u, u ≠ t → s'.sessions u = none) ∧
      l'.view s'.db = d' ∧ s'.db = s.db ∧ s'.begun = s.begun ∧ s'.log = s.log := by
  induction p generalizing s l with
  | ret b =>
    cases hrun
    exact ⟨s, l, h, hs, halone, rfl, rfl, rfl, rfl⟩
  | throw e => cases hrun
  | stmt st k ih =>
    obtain ⟨r, ws, he, hk⟩ := Prog.run_stmt_ok.mp hrun
    have h₁ := hP _ _ _ h (.start hs) (by simp)
    have hfree : ∀ (o : Option (Session D W L ε α ρ)) u x, u ≠ t → Function.update s.sessions t o u = some x →
        ∀ lk ∈ st.locks (l.view s.db) (l.view s.db), lk ∉ x.loc.held := by
      intro o u x hut hx
      rw [Function.update_of_ne hut, halone u hut] at hx
      cases hx
    have h₂ := hP _ _ _ h₁ (.finish (Function.update_self _ _ _) (hsched _ _ _ hl) (hfree _) he) (by simp)
    rw [← Local.view_done l st s.db s.db] at hk
    have hl' : ∀ x ∈ (l.done st s.db s.db ws).reads, x.2 = s.db := by
      intro x hx
      rcases List.mem_append.mp hx with hx | hx
      · exact hl x hx
      · rw [List.mem_singleton.mp hx]
    obtain ⟨s', l', hs'⟩ := ih r h₂ (Function.update_self _ _ _) (fun u hut =>
      (Function.update_of_ne hut _ _).trans ((Function.update_of_ne hut _ _).trans (halone u hut))) hl' hk
    exact ⟨s', l', hs'⟩

/-- A request that begins when no other is in progress and runs to its end. -/
theorem Reach.alone {db₀ : D} {q : ρ} (hsched : ∀ c rs d, (∀ x ∈ rs, x.2 = d) → S.schedule q c rs d d)
    (h : Reach S db₀ s) (hquiet : s.Quiet) (hadm : S.admits s.begun q) {a : α} {d' : D}
    (hrun : (S.code q).run s.db = .ok (a, d')) :
    ∃ s', Reach S db₀ s' ∧ s'.db = d' ∧ s'.Quiet ∧ s'.log = s.log ++ [(q, a)] := by
  have h₁ := h.step (.begin (hquiet 0) hadm)
  obtain ⟨s₂, l, h₂, hs₂, halone, hview, hdb, -, hlog⟩ :=
    steps_alone (fun s e s' hr hs _ => Reach.step hr hs) hsched h₁ (Function.update_self _ _ _)
      (fun u hu => (Function.update_of_ne hu _ _).trans (hquiet u)) (by simp) hrun
  refine ⟨_, h₂.step (.commit hs₂), hview, fun u => ?_, by rw [hlog]⟩
  show Function.update s₂.sessions 0 none u = none
  by_cases hu : u = 0
  · rw [hu, Function.update_self]
  · rw [Function.update_of_ne hu]
    exact halone u hu

/-- Requests handled one after the other are an interleaving. -/
theorem Reach.serial (hadm : ∀ begun q, S.admits begun q)
    (hsched : ∀ q c rs d, (∀ x ∈ rs, x.2 = d) → S.schedule q c rs d d) {db₀ : D} (h : Reach S db₀ s) (hquiet : s.Quiet)
    {qs : List ρ} {out : D × List (ρ × α)} (hrun : S.serial qs s.db = some out) :
    ∃ s', Reach S db₀ s' ∧ s'.db = out.1 ∧ s'.Quiet ∧ s'.log = s.log ++ out.2 := by
  induction qs generalizing s out with
  | nil =>
    cases hrun
    exact ⟨s, h, rfl, hquiet, by simp⟩
  | cons q qs ih =>
    simp only [System.serial] at hrun
    split at hrun
    · rename_i a db' hq
      obtain ⟨out', hout', rfl⟩ := Option.map_eq_some_iff.mp hrun
      obtain ⟨s₁, h₁, hdb, hquiet₁, hlog⟩ := h.alone (hsched q) hquiet (hadm _ _) hq
      rw [← hdb] at hout'
      obtain ⟨s₂, h₂, hdb₂, hquiet₂, hlog₂⟩ := ih h₁ hquiet₁ hout'
      exact ⟨s₂, h₂, hdb₂, hquiet₂, by rw [hlog₂, hlog, List.append_assoc]; rfl⟩
    · cases hrun

end

/-- What a session may count on while it holds `held`: the database invariant,
and how the commits of other sessions relate two databases. -/
structure Rely (D L : Type) where
  inv : D → Prop
  rel : List L → D → D → Prop
  refl : ∀ held d, rel held d d
  trans : ∀ {held d₁ d₂ d₃}, rel held d₁ d₂ → rel held d₂ d₃ → rel held d₁ d₃

variable (C : Schedule D) (Y : Rely D L)

/-- The program, continued from a committed database, ends in `Q` or fails in `E`
whatever the other sessions commit in between. -/
def Safe (E : ε → D → Local D W L → Prop) (Q : α → D → Local D W L → Prop) : Prog D W L ε α → D → Local D W L → Prop
  | .ret a, d, l => ∀ d', Y.inv d' → Y.rel l.held d d' → Q a d' l
  | .throw e, d, l => ∀ d', Y.inv d' → Y.rel l.held d d' → E e d' l
  | .stmt s k, d, l => ∀ d₁ d₂, Y.inv d₁ → Y.rel l.held d d₁ → Y.inv d₂ → Y.rel l.held d₁ d₂ →
      (∀ e, s.eval (l.view d₁) (l.view d₂) = .error e → E e d₂ l) ∧
      (C s.call l.reads d₁ d₂ → ∀ r ws, s.eval (l.view d₁) (l.view d₂) = .ok (r, ws) →
        Safe E Q (k r) d₂ (l.done s d₁ d₂ ws))

variable {C Y} {E : ε → D → Local D W L → Prop} {Q Q' : α → D → Local D W L → Prop} {p : Prog D W L ε α} {d d' : D}
  {l : Local D W L}

theorem Safe.rely (h : Safe C Y E Q p d l) (hr : Y.rel l.held d d') : Safe C Y E Q p d' l := by
  cases p with
  | ret a => exact fun d'' hi hr' => h d'' hi (Y.trans hr hr')
  | throw e => exact fun d'' hi hr' => h d'' hi (Y.trans hr hr')
  | stmt s k => exact fun d₁ d₂ hi₁ hr₁ => h d₁ d₂ hi₁ (Y.trans hr hr₁)

/-- An open session: between the start and the completion of a statement its
snapshot is fixed and only the latest state still moves. -/
def Session.SafeAt (C : Schedule D) (Y : Rely D L) (E : ε → D → Local D W L → Prop) (Q : α → D → Local D W L → Prop)
    (x : Session D W L ε α ρ) (db : D) : Prop :=
  match x.prog, x.snap with
  | p, none => Safe C Y E Q p db x.loc
  | .stmt s k, some d => ∀ d', Y.inv d' → Y.rel x.loc.held db d' →
      (∀ e, s.eval (x.loc.view d) (x.loc.view d') = .error e → E e d' x.loc) ∧
      (C s.call x.loc.reads d d' → ∀ r ws, s.eval (x.loc.view d) (x.loc.view d') = .ok (r, ws) →
        Safe C Y E Q (k r) d' (x.loc.done s d d' ws))
  | _, some _ => True

theorem Session.SafeAt.rely {x : Session D W L ε α ρ} (h : x.SafeAt C Y E Q d)
    (hr : Y.rel x.loc.held d d') : x.SafeAt C Y E Q d' := by
  obtain ⟨q, p, snap, l⟩ := x
  cases snap with
  | none => exact Safe.rely h hr
  | some d₀ =>
    cases p with
    | ret a => trivial
    | throw e => trivial
    | stmt s k => exact fun d'' hi hr' => h d'' hi (Y.trans hr hr')

/-- A finished program may commit: it keeps the invariant, and what it publishes
is what sessions with other locks count on. -/
def Publishes (Y : Rely D L) (Q : α → D → Local D W L → Prop) : Prop :=
  ∀ a d l, Y.inv d → Q a d l →
    Y.inv (l.view d) ∧ ∀ held, (∀ lk ∈ l.held, lk ∉ held) → Y.rel held d (l.view d)

/-- What the sessions of a system are proved to do: every request ends in its
postcondition, and what it ends in may be published. -/
structure Verified (S : System D W L ε α ρ) (Y : Rely D L) (E : ρ → ε → D → Local D W L → Prop)
    (Q : ρ → α → D → Local D W L → Prop) : Prop where
  publishes : ∀ r, Publishes Y (Q r)
  code : ∀ r d, Y.inv d → Safe (S.schedule r) Y (E r) (Q r) (S.code r) d {}

structure SafeState (S : System D W L ε α ρ) (Y : Rely D L) (E : ρ → ε → D → Local D W L → Prop)
    (Q : ρ → α → D → Local D W L → Prop) (s : State D W L ε α ρ) : Prop where
  inv : Y.inv s.db
  excl : Exclusive s
  safe : ∀ t x, s.sessions t = some x → x.SafeAt (S.schedule x.req) Y (E x.req) (Q x.req) s.db

section

variable {S} {E : ρ → ε → D → Local D W L → Prop} {Q : ρ → α → D → Local D W L → Prop}

theorem SafeState.update (h : SafeState S Y E Q s) {o : Option (Session D W L ε α ρ)} {begun : List ρ}
    (hx : Exclusive ⟨s.db, Function.update s.sessions t o, begun, s.log⟩)
    (ho : ∀ x, o = some x → x.SafeAt (S.schedule x.req) Y (E x.req) (Q x.req) s.db) :
    SafeState S Y E Q ⟨s.db, Function.update s.sessions t o, begun, s.log⟩ := by
  refine ⟨h.inv, hx, fun u x hu => ?_⟩
  rcases update_eq_some hu with ⟨rfl, hnew⟩ | ⟨-, hold⟩
  · exact ho x hnew
  · exact h.safe u x hold

theorem SafeState.step {e : Event ε α ρ} (hv : Verified S Y E Q) (h : SafeState S Y E Q s)
    (hs : Step S s e s') : SafeState S Y E Q s' := by
  have hx := hs.exclusive S h.excl
  cases hs with
  | begin _ _ => exact h.update hx (by rintro x ⟨⟩; exact hv.code _ _ h.inv)
  | start hs =>
    refine h.update hx ?_
    rintro x ⟨⟩
    have hsafe := h.safe _ _ hs
    exact fun d' hi hr => hsafe s.db d' h.inv (Y.refl _ _) hi hr
  | finish hs hsched _ he =>
    refine h.update hx ?_
    rintro x ⟨⟩
    exact (h.safe _ _ hs s.db h.inv (Y.refl _ _)).2 hsched _ _ he
  | refuse _ _ | throw _ | abort _ => exact h.update hx (by rintro x ⟨⟩)
  | @commit t q l a hs =>
    have hq : Q q a s.db l := h.safe _ _ hs s.db h.inv (Y.refl _ _)
    obtain ⟨hinv, hrel⟩ := hv.publishes q a s.db l h.inv hq
    refine ⟨hinv, hx, fun u x hu => ?_⟩
    rcases update_eq_some hu with ⟨-, hu⟩ | ⟨hut, hu⟩
    · cases hu
    · exact (h.safe u x hu).rely (hrel _ fun lk hlk => h.excl t u _ x hut.symm hs hu lk hlk)

/-- The invariant rule: every reachable state of a verified system is safe. -/
theorem Reach.safe {db : D} (hv : Verified S Y E Q) (h0 : Y.inv db) (h : Reach S db s) : SafeState S Y E Q s := by
  induction h with
  | init => exact ⟨h0, by rintro t t' x x' - ⟨⟩, by rintro t x ⟨⟩⟩
  | step _ hs ih => exact ih.step hv hs

/-- At its commit a session is in the postcondition of its request. -/
theorem SafeState.commit {a : α} (h : SafeState S Y E Q s) (hs : Step S s (.commit t a) s') :
    ∃ x, s.sessions t = some x ∧ Q x.req a s.db x.loc ∧ s'.db = x.loc.view s.db ∧
      s'.log = s.log ++ [(x.req, a)] := by
  cases hs with
  | commit hs => exact ⟨_, hs, h.safe _ _ hs s.db h.inv (Y.refl _ _), rfl, rfl⟩

theorem SafeState.fail {e : ε} (h : SafeState S Y E Q s) (hs : Step S s (.fail t e) s') :
    ∃ x, s.sessions t = some x ∧ E x.req e s.db x.loc := by
  cases hs with
  | refuse hs he => exact ⟨_, hs, (h.safe _ _ hs s.db h.inv (Y.refl _ _)).1 _ he⟩
  | throw hs => exact ⟨_, hs, h.safe _ _ hs s.db h.inv (Y.refl _ _)⟩

end

/-- Other sessions cannot falsify `P`. -/
def Stable (Y : Rely D L) (P : D → Local D W L → Prop) : Prop :=
  ∀ d d' l, Y.inv d → Y.inv d' → Y.rel l.held d d' → P d l → P d' l

def Triple (C : Schedule D) (Y : Rely D L) (E : ε → D → Local D W L → Prop) (P : D → Local D W L → Prop)
    (p : Prog D W L ε α) (Q : α → D → Local D W L → Prop) : Prop :=
  ∀ d l, Y.inv d → P d l → Safe C Y E Q p d l

variable {P P' : D → Local D W L → Prop}

theorem Triple.ret {a : α} (hP : Stable Y P) (h : ∀ d l, Y.inv d → P d l → Q a d l) :
    Triple C Y E P (.ret a : Prog D W L ε α) Q :=
  fun d l hi hp d' hi' hr => h d' l hi' (hP d d' l hi hi' hr hp)

theorem Triple.throw {e : ε} (hP : Stable Y P) (h : ∀ d l, Y.inv d → P d l → E e d l) :
    Triple C Y E P (.throw e : Prog D W L ε α) Q :=
  fun d l hi hp d' hi' hr => h d' l hi' (hP d d' l hi hi' hr hp)

/-- A statement: the precondition is stable, so it holds of the snapshot and of
the latest state when the statement completes. -/
theorem Triple.exec {s : Stmt D W L ε α} (hP : Stable Y P) (hQ : ∀ a, Stable Y (Q a))
    (hE : ∀ d₁ d₂ l e, Y.inv d₂ → P d₂ l → s.eval (l.view d₁) (l.view d₂) = .error e → E e d₂ l)
    (h : ∀ d₁ d₂ l a ws, Y.inv d₁ → Y.inv d₂ → Y.rel l.held d₁ d₂ → C s.call l.reads d₁ d₂ →
      P d₁ l → P d₂ l → s.eval (l.view d₁) (l.view d₂) = .ok (a, ws) → Q a d₂ (l.done s d₁ d₂ ws)) :
    Triple C Y E P (Prog.exec s) Q := by
  intro d l hi hp d₁ d₂ hi₁ hr₁ hi₂ hr₂
  have hp₁ := hP d d₁ l hi hi₁ hr₁ hp
  have hp₂ := hP d₁ d₂ l hi₁ hi₂ hr₂ hp₁
  refine ⟨fun e he => hE d₁ d₂ l e hi₂ hp₂ he, fun hC a ws he d' hi' hr' => ?_⟩
  exact hQ a d₂ d' _ hi₂ hi' hr' (h d₁ d₂ l a ws hi₁ hi₂ hr₂ hC hp₁ hp₂ he)

/-- A plain `SELECT` reads the database its statement started from. -/
theorem Triple.select {call : Call} {f : D → α} (hP : Stable Y P) (hQ : ∀ a, Stable Y (Q a))
    (h : ∀ d₁ d₂ l, Y.inv d₁ → Y.inv d₂ → Y.rel l.held d₁ d₂ → C call l.reads d₁ d₂ → P d₁ l → P d₂ l →
      Q (f (l.view d₁)) d₂ ⟨l.writes, l.held, l.reads ++ [(call, d₁)]⟩) :
    Triple C Y E P (Prog.exec (Stmt.select call f)) Q := by
  refine Triple.exec hP hQ (by rintro d₁ d₂ l e - - ⟨⟩) ?_
  rintro d₁ d₂ l a ws hi₁ hi₂ hr hC hp₁ hp₂ ⟨⟩
  have hdone := h d₁ d₂ l hi₁ hi₂ hr hC hp₁ hp₂
  simpa only [Local.done, Stmt.select, List.append_nil] using hdone

theorem Safe.bind {Q' : β → D → Local D W L → Prop} {f : α → Prog D W L ε β} (hi : Y.inv d) (hp : Safe C Y E Q p d l)
    (hf : ∀ a, Triple C Y E (Q a) (f a) Q') : Safe C Y E Q' (p >>= f) d l := by
  induction p generalizing d l with
  | ret a => exact hf a d l hi (hp d hi (Y.refl _ _))
  | throw e => exact hp
  | stmt s k ih =>
    intro d₁ d₂ hi₁ hr₁ hi₂ hr₂
    obtain ⟨herr, hok⟩ := hp d₁ d₂ hi₁ hr₁ hi₂ hr₂
    exact ⟨herr, fun hC r ws he => ih r hi₂ (hok hC r ws he)⟩

theorem Triple.bind {Q' : β → D → Local D W L → Prop} {f : α → Prog D W L ε β} (hp : Triple C Y E P p Q)
    (hf : ∀ a, Triple C Y E (Q a) (f a) Q') : Triple C Y E P (p >>= f) Q' :=
  fun d l hi h => (hp d l hi h).bind hi hf

theorem Triple.pre (h : Triple C Y E P p Q) (hP : ∀ d l, Y.inv d → P' d l → P d l) : Triple C Y E P' p Q :=
  fun d l hi hp => h d l hi (hP d l hi hp)

theorem Safe.mono {E' : ε → D → Local D W L → Prop} (h : Safe C Y E Q p d l)
    (hQ : ∀ a d l, Y.inv d → Q a d l → Q' a d l) (hE : ∀ e d l, E e d l → E' e d l) : Safe C Y E' Q' p d l := by
  induction p generalizing d l with
  | ret a => exact fun d' hi hr => hQ a d' l hi (h d' hi hr)
  | throw e => exact fun d' hi hr => hE e d' l (h d' hi hr)
  | stmt s k ih =>
    intro d₁ d₂ hi₁ hr₁ hi₂ hr₂
    obtain ⟨herr, hok⟩ := h d₁ d₂ hi₁ hr₁ hi₂ hr₂
    exact ⟨fun e he => hE e d₂ l (herr e he), fun hC r ws he => ih r (hok hC r ws he)⟩

theorem Triple.post (h : Triple C Y E P p Q) (hQ : ∀ a d l, Y.inv d → Q a d l → Q' a d l) : Triple C Y E P p Q' :=
  fun d l hi hp => (h d l hi hp).mono hQ fun _ _ _ he => he

theorem Triple.failIf {c : Prop} [Decidable c] {e : ε} (hP : Stable Y P) (hE : ∀ d l, c → Y.inv d → P d l → E e d l) :
    Triple C Y E P (Prog.failIf c e : Prog D W L ε Unit) fun _ d l => ¬ c ∧ P d l := by
  unfold Prog.failIf
  split_ifs with h
  · exact Triple.throw hP fun d l => hE d l h
  · exact Triple.ret hP fun _ _ _ hp => ⟨h, hp⟩

theorem Triple.mapError {ε' : Type} {g : ε' → ε} {p : Prog D W L ε' α}
    (h : Triple C Y (fun e => E (g e)) P p Q) : Triple C Y E P (p.mapError g) Q := by
  intro d l hi hp
  have hsafe := h d l hi hp
  clear h hp
  induction p generalizing d l with
  | ret a => exact hsafe
  | throw e => exact hsafe
  | stmt s k ih =>
    intro d₁ d₂ hi₁ hr₁ hi₂ hr₂
    obtain ⟨herr, hok⟩ := hsafe d₁ d₂ hi₁ hr₁ hi₂ hr₂
    dsimp only [Prog.mapError]
    cases he : s.eval (l.view d₁) (l.view d₂) with
    | error e =>
      refine ⟨?_, by rintro - r ws ⟨⟩⟩
      rintro e' ⟨⟩
      exact herr e he
    | ok out =>
      refine ⟨by rintro e' ⟨⟩, ?_⟩
      rintro hC r ws ⟨⟩
      exact ih r d₂ _ hi₂ (hok hC r ws he)

/-- Frame rule: a program keeps an assertion that its writes do not concern. -/
theorem Triple.frame {mine : W → Prop} (hw : p.Writes mine) (hP : Stable Y P)
    (hext : ∀ d l l' ws, P d l → l'.writes = l.writes ++ ws → (∀ w ∈ ws, mine w) →
      l.held ⊆ l'.held → P d l')
    (hE : ∀ e d l, Y.inv d → P d l → E e d l) : Triple C Y E P p fun _ => P := by
  intro d l hi hp
  induction p generalizing d l with
  | ret a => exact fun d' hi' hr => hP d d' l hi hi' hr hp
  | throw e => exact fun d' hi' hr => hE e d' l hi' (hP d d' l hi hi' hr hp)
  | stmt s k ih =>
    intro d₁ d₂ hi₁ hr₁ hi₂ hr₂
    have hp₂ := hP d₁ d₂ l hi₁ hi₂ hr₂ (hP d d₁ l hi hi₁ hr₁ hp)
    refine ⟨fun e _ => hE e d₂ l hi₂ hp₂, fun _ r ws he => ?_⟩
    refine ih r (hw.2 r) d₂ _ hi₂ ?_
    exact hext d₂ l _ ws hp₂ rfl (hw.1 _ _ _ _ he) (List.subset_append_left _ _)

/-- Loop rule, with an invariant on the processed prefix. -/
theorem Triple.foldlM {l : List γ} {f : α → γ → Prog D W L ε α} (I : List γ → α → D → Local D W L → Prop)
    (hI : ∀ pre a, Stable Y (I pre a))
    (hstep : ∀ pre x post b, l = pre ++ x :: post → Triple C Y E (I pre b) (f b x) (I (pre ++ [x]))) (a : α) :
    Triple C Y E (I [] a) (l.foldlM f a) (I l) := by
  suffices H : ∀ (post pre : List γ) (b : α), l = pre ++ post →
      Triple C Y E (I pre b) (post.foldlM f b) (I l) from H l [] a rfl
  intro post
  induction post with
  | nil =>
    intro pre b hl
    refine Triple.ret (hI pre b) fun d l' _ hp => ?_
    simpa [hl] using hp
  | cons x xs ih =>
    intro pre b hl
    exact (hstep pre x xs b hl).bind fun b' => ih (pre ++ [x]) b' (by simp [hl])

end ReadCommitted
