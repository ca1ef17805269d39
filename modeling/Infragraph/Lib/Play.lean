import Infragraph.Lib.ReadCommitted

/-! Interleavings that can be run. A list of moves of the sessions below a bound
is played from a state; what it ends in is a reachable state. -/

namespace ReadCommitted

variable {D W L ε α ρ : Type} [Store D W]
variable {s s' : State D W L ε α ρ} {t : ℕ} {db : D}

/-- `read` only starts a statement, `work` completes the started one or a whole
one, and does nothing once the code has returned. -/
inductive Move (ρ : Type) where
  | begin (t : ℕ) (r : ρ)
  | read (t : ℕ)
  | work (t : ℕ)
  | commit (t : ℕ)

variable [DecidableEq L] (S : System D W L ε α ρ) [∀ begun r, Decidable (S.admits begun r)]
  [∀ q c rs d d', Decidable (S.schedule q c rs d d')] (n : ℕ)

/-- No other session below the bound holds one of the locks. -/
def State.free (s : State D W L ε α ρ) (t : ℕ) (locks : List L) : Bool :=
  (List.range n).all fun u => u = t || match s.sessions u with
    | none => true
    | some x => locks.all fun lk => lk ∉ x.loc.held

/-- Complete a statement that was started from `d`. -/
def State.complete {β : Type} (s : State D W L ε α ρ) (t : ℕ) (q : ρ) (l : Local D W L) (d : D) (st : Stmt D W L ε β)
    (k : β → Prog D W L ε α) : Option (State D W L ε α ρ) :=
  if S.schedule q st.call l.reads d s.db ∧ s.free n t (st.locks (l.view d) (l.view s.db)) then
    match st.eval (l.view d) (l.view s.db) with
    | .ok (r, ws) =>
      some { s with sessions := Function.update s.sessions t (some ⟨q, k r, none, l.done st d s.db ws⟩) }
    | .error _ => none
  else none

def State.move (s : State D W L ε α ρ) : Move ρ → Option (State D W L ε α ρ)
  | .begin t r =>
    match s.sessions t with
    | none =>
      if t < n ∧ S.admits s.begun r then
        some { s with sessions := Function.update s.sessions t (some ⟨r, S.code r, none, {}⟩)
                      begun := s.begun ++ [r] }
      else none
    | some _ => none
  | .read t =>
    match s.sessions t with
    | some ⟨q, .stmt st k, none, l⟩ =>
      some { s with sessions := Function.update s.sessions t (some ⟨q, .stmt st k, some s.db, l⟩) }
    | _ => none
  | .work t =>
    match s.sessions t with
    | some ⟨q, .stmt st k, none, l⟩ =>
      State.complete S n
        { s with sessions := Function.update s.sessions t (some ⟨q, .stmt st k, some s.db, l⟩) }
        t q l s.db st k
    | some ⟨q, .stmt st k, some d, l⟩ => s.complete S n t q l d st k
    | some ⟨_, .ret _, none, _⟩ => some s
    | _ => none
  | .commit t =>
    match s.sessions t with
    | some ⟨q, .ret a, none, l⟩ =>
      some { s with db := l.view s.db
                    sessions := Function.update s.sessions t none
                    log := s.log ++ [(q, a)] }
    | _ => none

def System.play : List (Move ρ) → State D W L ε α ρ → Option (State D W L ε α ρ)
  | [], s => some s
  | m :: ms, s => (s.move S n m).bind (play ms)

def State.idle (s : State D W L ε α ρ) : Bool := (List.range n).all fun t => (s.sessions t).isNone

variable {S n}

def State.Below (n : ℕ) (s : State D W L ε α ρ) : Prop := ∀ t, n ≤ t → s.sessions t = none

omit [Store D W] [DecidableEq L] in
theorem State.Below.lt (h : s.Below n) {x : Session D W L ε α ρ} (hx : s.sessions t = some x) : t < n := by
  by_contra hn
  rw [h t (by omega)] at hx
  cases hx

omit [Store D W] [DecidableEq L] in
theorem State.Below.update (h : s.Below n) (ht : t < n) {o : Option (Session D W L ε α ρ)} {begun : List ρ}
    {log : List (ρ × α)} : State.Below n ⟨db, Function.update s.sessions t o, begun, log⟩ := by
  intro u hu
  dsimp only
  rw [Function.update_of_ne (by omega)]
  exact h u hu

omit [Store D W] [DecidableEq L] in
theorem State.Below.quiet (h : s.Below n) (hidle : s.idle n = true) : s.Quiet := by
  intro t
  by_cases ht : t < n
  · exact Option.isNone_iff_eq_none.mp (List.all_eq_true.mp hidle t (List.mem_range.mpr ht))
  · exact h t (by omega)

omit [Store D W] in
theorem State.free_iff (h : s.Below n) {locks : List L} (hf : s.free n t locks = true) (u : ℕ) (x : Session D W L ε α ρ)
    (hu : u ≠ t) (hx : s.sessions u = some x) : ∀ lk ∈ locks, lk ∉ x.loc.held := by
  have hall := List.all_eq_true.mp hf u (List.mem_range.mpr (h.lt hx))
  rw [hx] at hall
  simpa [hu] using hall

omit [∀ begun r, Decidable (S.admits begun r)] in
theorem State.complete_step {β : Type} (h : s.Below n) {q : ρ} {l : Local D W L} {d : D} {st : Stmt D W L ε β}
    {k : β → Prog D W L ε α} (hs : s.sessions t = some ⟨q, .stmt st k, some d, l⟩)
    (hc : s.complete S n t q l d st k = some s') : Step S s (.finish t) s' ∧ s'.Below n := by
  unfold State.complete at hc
  split_ifs at hc with hok
  split at hc
  · rename_i r ws he
    cases hc
    exact ⟨.finish hs hok.1 (State.free_iff h hok.2) he, h.update (h.lt hs)⟩
  · cases hc

theorem Reach.move {m : Move ρ} (hr : Reach S db s) (h : s.Below n)
    (hm : s.move S n m = some s') : Reach S db s' ∧ s'.Below n := by
  cases m with
  | begin t r =>
    simp only [State.move] at hm
    split at hm
    · rename_i hs
      split_ifs at hm with hok
      cases hm
      exact ⟨hr.step (.begin hs hok.2), h.update hok.1⟩
    · cases hm
  | read t =>
    simp only [State.move] at hm
    split at hm
    · rename_i hs
      cases hm
      exact ⟨hr.step (.start hs), h.update (h.lt hs)⟩
    · cases hm
  | work t =>
    simp only [State.move] at hm
    split at hm
    · rename_i hs
      obtain ⟨hstep, hbelow⟩ := State.complete_step (h.update (h.lt hs)) (Function.update_self _ _ _) hm
      exact ⟨(hr.step (.start hs)).step hstep, hbelow⟩
    · rename_i hs
      obtain ⟨hstep, hbelow⟩ := State.complete_step h hs hm
      exact ⟨hr.step hstep, hbelow⟩
    · cases hm
      exact ⟨hr, h⟩
    · cases hm
  | commit t =>
    simp only [State.move] at hm
    split at hm
    · rename_i hs
      cases hm
      exact ⟨hr.step (.commit hs), h.update (h.lt hs)⟩
    · cases hm

theorem Reach.play {ms : List (Move ρ)} (hr : Reach S db s) (h : s.Below n)
    (hm : S.play n ms s = some s') : Reach S db s' ∧ s'.Below n := by
  induction ms generalizing s with
  | nil =>
    cases hm
    exact ⟨hr, h⟩
  | cons m ms ih =>
    obtain ⟨s₁, hm₁, hms⟩ := Option.bind_eq_some_iff.mp hm
    obtain ⟨hr₁, h₁⟩ := hr.move h hm₁
    exact ih hr₁ h₁ hms

variable (S n) in
/-- What a check finds after a play holds of a reachable state with no session open. -/
theorem Reach.played (db : D) (ms : List (Move ρ)) (check : State D W L ε α ρ → Bool)
    (h : (S.play n ms (State.init db)).any (fun s => s.idle n && check s) = true) :
    ∃ s, Reach S db s ∧ s.Quiet ∧ check s = true := by
  obtain ⟨s, hs, hok⟩ := (Option.any_eq_true _ _).mp h
  rw [Bool.and_eq_true] at hok
  obtain ⟨hr, hb⟩ := Reach.play Reach.init (fun _ _ => rfl) hs
  exact ⟨s, hr, hb.quiet hok.1, hok.2⟩

end ReadCommitted
