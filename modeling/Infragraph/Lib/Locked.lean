import Infragraph.Lib.Prog

/-! Clients of a database server whose work is guarded by a session lock. A client
sends one command at a time over its connection; a command is performed, refused,
or lost with the connection, and the client or its connection may go at any time.
The server gives the lock to one session at a time and takes it back when it
notices that the connection is gone. -/

namespace SessionLock

open ReadCommitted

variable {D W ε α β : Type}

inductive Command (D W ε : Type) : Type → Type 1 where
  | lock : Command D W ε Unit
  | unlock : Command D W ε Unit
  | begin : Command D W ε Unit
  | commit : Command D W ε Unit
  | rollback : Command D W ε Unit
  | query {β : Type} (eval : D → Except ε (β × List W)) : Command D W ε β

/-- The code of a client: every command is answered or fails. -/
inductive Client (D W ε α : Type) : Type 1 where
  | ret (a : α)
  | call {β : Type} (c : Command D W ε β) (k : Except ε β → Client D W ε α)

namespace Client

def bind : Client D W ε α → (α → Client D W ε β) → Client D W ε β
  | ret a, f => f a
  | call c k, f => call c fun r => (k r).bind f

instance : Monad (Client D W ε) where
  pure := ret
  bind := bind

def send (c : Command D W ε β) : Client D W ε (Except ε β) := call c ret

@[simp] theorem pure_eq (a : α) : (Pure.pure a : Client D W ε α) = ret a := rfl

@[simp] theorem ret_bind (a : α) (f : α → Client D W ε β) : (ret a >>= f) = f a := rfl

@[simp] theorem send_bind (c : Command D W ε β) (f : Except ε β → Client D W ε α) : (send c >>= f) = call c f := rfl

end Client

inductive Transaction (W : Type) where
  | idle
  | opened (writes : List W)
  | aborted

/-- A session at the server: how often it took the lock, and its transaction. -/
structure Local (W : Type) where
  held : ℕ := 0
  transaction : Transaction W := .idle

/-- What the server does when it performs a command: the reply, the session and the
committed database. The lock is granted only when it is free. -/
def Command.perform [Store D W] (free : Bool) (l : Local W) (d : D) :
    {β : Type} → Command D W ε β → Option (β × Local W × D)
  | _, .lock => match l.transaction with
    | .aborted => none
    | _ => if free then some ((), { l with held := l.held + 1 }, d) else none
  | _, .unlock => match l.transaction with
    | .aborted => none
    | _ => some ((), { l with held := l.held - 1 }, d)
  | _, .begin => match l.transaction with
    | .idle => some ((), { l with transaction := .opened [] }, d)
    | _ => none
  | _, .commit => match l.transaction with
    | .opened ws => some ((), { l with transaction := .idle }, writeAll d ws)
    | _ => none
  | _, .rollback => match l.transaction with
    | .idle => none
    | _ => some ((), { l with transaction := .idle }, d)
  | _, .query eval => match l.transaction with
    | .idle => match eval d with
      | .ok (b, ws) => some (b, l, writeAll d ws)
      | .error _ => none
    | .opened ws => match eval (writeAll d ws) with
      | .ok (b, ws') => some (b, { l with transaction := .opened (ws ++ ws') }, d)
      | .error _ => none
    | .aborted => none

/-- A refused command has no effect, but the transaction it is part of is lost. -/
def Command.refuse (l : Local W) : {β : Type} → Command D W ε β → Local W
  | _, .commit => { l with transaction := .idle }
  | _, _ => match l.transaction with
    | .opened _ => { l with transaction := .aborted }
    | _ => l

theorem Command.refuse_held (l : Local W) (c : Command D W ε β) : (c.refuse l).held = l.held := by
  unfold refuse
  split
  · rfl
  · split <;> rfl

/-- A lock that is taken is not given to another session. -/
theorem Command.held_of_taken [Store D W] {c : Command D W ε β} {l l' : Local W} {d d' : D} {b : β}
    (h : c.perform false l d = some (b, l', d')) : l'.held ≤ l.held := by
  cases c with
  | lock =>
    simp only [perform] at h
    split at h <;> simp at h
  | unlock =>
    simp only [perform] at h
    split at h <;> cases h
    all_goals exact Nat.sub_le _ _
  | begin | commit | rollback =>
    simp only [perform] at h
    split at h <;> cases h
    all_goals exact le_rfl
  | query eval =>
    simp only [perform] at h
    split at h
    any_goals split at h
    all_goals cases h
    all_goals exact le_rfl

/-- A connection from the pool, with the code that runs on it. -/
structure Session (D W ε α : Type) : Type 1 where
  code : Option (Client D W ε α) := none
  connected : Bool := true
  conn : Local W := {}

structure Server (n : ℕ) (D W ε α : Type) : Type 1 where
  db : D
  sessions : Fin n → Session D W ε α
  returned : List α

def Server.init (n : ℕ) (db : D) : Server n D W ε α := ⟨db, fun _ => {}, []⟩

variable {n : ℕ}

def Server.set (s : Server n D W ε α) (i : Fin n) (x : Session D W ε α) : Server n D W ε α :=
  { s with sessions := Function.update s.sessions i x }

def Server.free (s : Server n D W ε α) (i : Fin n) : Bool := decide (∀ j, j ≠ i → (s.sessions j).conn.held = 0)

inductive Move (n : ℕ) (ε : Type) where
  /-- the pool hands the connection to a new call -/
  | start (i : Fin n)
  /-- the server performs the command sent; the reply arrives, or is lost with the connection -/
  | perform (i : Fin n) (lost : Option ε)
  | refuse (i : Fin n) (e : ε)
  /-- the connection is gone and the command fails at the client -/
  | broken (i : Fin n) (e : ε)
  | drop (i : Fin n)
  | crash (i : Fin n)
  /-- the server notices that the connection is gone and ends the session -/
  | disconnect (i : Fin n)
  /-- the call returns; the pool destroys a connection that is inside a transaction -/
  | finish (i : Fin n)

def Transaction.isIdle : Transaction W → Bool
  | .idle => true
  | _ => false

def Server.move [Store D W] (code : Client D W ε α) (s : Server n D W ε α) : Move n ε → Option (Server n D W ε α)
  | .start i =>
    let x := s.sessions i
    if x.code.isNone ∧ x.connected ∧ x.conn.transaction.isIdle then some (s.set i { x with code := some code })
    else none
  | .perform i lost =>
    let x := s.sessions i
    match x.code with
    | some (.call c k) =>
      if x.connected then
        (c.perform (s.free i) x.conn s.db).map fun (b, l, d) =>
          match lost with
          | none => { s.set i { x with code := some (k (.ok b)), conn := l } with db := d }
          | some e =>
            { s.set i { code := some (k (.error e)), connected := false, conn := l } with db := d }
      else none
    | _ => none
  | .refuse i e =>
    let x := s.sessions i
    match x.code with
    | some (.call c k) =>
      if x.connected then some (s.set i { x with code := some (k (.error e)), conn := c.refuse x.conn }) else none
    | _ => none
  | .broken i e =>
    let x := s.sessions i
    match x.code with
    | some (.call _ k) => if x.connected then none else some (s.set i { x with code := some (k (.error e)) })
    | _ => none
  | .drop i => some (s.set i { s.sessions i with connected := false })
  | .crash i => some (s.set i { s.sessions i with code := none, connected := false })
  | .disconnect i =>
    let x := s.sessions i
    if x.connected then none else some (s.set i { x with conn := {} })
  | .finish i =>
    let x := s.sessions i
    match x.code with
    | some (.ret a) =>
      some { s.set i { x with code := none, connected := x.connected && x.conn.transaction.isIdle } with
        returned := s.returned ++ [a] }
    | _ => none

inductive Reach [Store D W] (code : Client D W ε α) (db : D) : Server n D W ε α → Prop
  | init : Reach code db (Server.init n db)
  | move {s s' : Server n D W ε α} (m : Move n ε) : Reach code db s → s.move code m = some s' → Reach code db s'

theorem Reach.moves [Store D W] {code : Client D W ε α} {db : D} {s s' : Server n D W ε α} (ms : List (Move n ε))
    (h : Reach code db s) (hrun : ms.foldlM (Server.move code) s = some s') : Reach code db s' := by
  induction ms generalizing s with
  | nil =>
    cases hrun
    exact h
  | cons m ms ih =>
    obtain ⟨t, hmove, hrest⟩ := Option.bind_eq_some_iff.mp hrun
    exact ih (h.move m hmove) hrest

/-- What every session keeps true of the committed database, and how it may evolve. -/
structure Discipline (D : Type) where
  inv : D → Prop
  grows : D → D → Prop
  refl : ∀ d, grows d d
  trans : ∀ {a b c}, grows a b → grows b c → grows a c

/-- The code returns a value with `R` when every command fails. -/
def Lost (R : α → Prop) : Client D W ε α → Prop
  | .ret a => R a
  | .call _ k => ∀ e, Lost R (k (.error e))

theorem Lost.mono {R R' : α → Prop} (h : ∀ a, R a → R' a) {p : Client D W ε α} (hp : Lost R p) : Lost R' p := by
  induction p with
  | ret a => exact h a hp
  | call c k ih => exact fun e => ih _ (hp e)

theorem Lost.bind {R : β → Prop} {p : Client D W ε α} {f : α → Client D W ε β} (h : Lost (fun a => Lost R (f a)) p) :
    Lost R (p >>= f) := by
  induction p with
  | ret a => exact h
  | call c k ih => exact fun e => ih _ (h e)

variable {G : Discipline D}

/-- Between two commands of a session the others may change the database, unless
the session holds the lock. -/
structure Discipline.Interferes (G : Discipline D) (l : Local W) (d d' : D) : Prop where
  inv : G.inv d'
  grows : G.grows d d'
  frozen : 0 < l.held → d' = d

theorem Discipline.Interferes.none {l : Local W} {d : D} (h : G.inv d) : G.Interferes l d d :=
  ⟨h, G.refl d, fun _ => rfl⟩

theorem Discipline.Interferes.trans {l : Local W} {d d' d'' : D} (h : G.Interferes l d d')
    (h' : G.Interferes l d' d'') : G.Interferes l d d'' :=
  ⟨h'.inv, G.trans h.grows h'.grows, fun hl => (h'.frozen hl).trans (h.frozen hl)⟩

variable [Store D W]

/-- Running the code from here keeps the discipline and changes the database only
under the lock. It returns with `Q`, or with `R` once the connection is lost. -/
def Safe (G : Discipline D) (Q : α → Local W → D → Prop) (R : α → D → Prop) : Client D W ε α → Local W → D → Prop
  | .ret a, l, d => ∀ d', G.Interferes l d d' → Q a l d'
  | .call c k, l, d => ∀ d', G.Interferes l d d' →
    (∀ free b l' d'', c.perform free l d' = some (b, l', d'') →
      G.inv d'' ∧ G.grows d' d'' ∧ (d'' = d' ∨ 0 < l.held) ∧ Safe G Q R (k (.ok b)) l' d'' ∧
        ∀ e, Lost (R · d'') (k (.error e))) ∧
    ∀ e, Safe G Q R (k (.error e)) (c.refuse l) d' ∧ Lost (R · d') (k (.error e))

section

variable {Q : α → Local W → D → Prop} {R : α → D → Prop} {p : Client D W ε α} {l : Local W} {d d' : D}

theorem Safe.interferes (h : Safe G Q R p l d) (hd : G.Interferes l d d') : Safe G Q R p l d' := by
  cases p with
  | ret a => exact fun d'' hd' => h d'' (hd.trans hd')
  | call c k => exact fun d'' hd' => h d'' (hd.trans hd')

theorem Safe.of_interferes (h : ∀ d', G.Interferes l d d' → Safe G Q R p l d') : Safe G Q R p l d := by
  cases p with
  | ret a => exact fun d' hd => h d' hd d' (.none hd.inv)
  | call c k => exact fun d' hd => h d' hd d' (.none hd.inv)

/-- Without the reply the code is as good as lost. -/
theorem Safe.lost (hd : G.inv d) (h : Safe G (fun a _ d => R a d) R p l d) : Lost (R · d) p := by
  cases p with
  | ret a => exact h d (.none hd)
  | call c k => exact fun e => ((h d (.none hd)).2 e).2

theorem Safe.post {Q' : α → Local W → D → Prop} {R' : α → D → Prop} (h : Safe G Q R p l d)
    (hQ : ∀ a l d, G.inv d → Q a l d → Q' a l d) (hR : ∀ a d, R a d → R' a d) : Safe G Q' R' p l d := by
  induction p generalizing l d with
  | ret a => exact fun d' hd' => hQ a l d' hd'.inv (h d' hd')
  | call c k ih =>
    intro d' hd'
    obtain ⟨hperform, hrefuse⟩ := h d' hd'
    refine ⟨fun free b l' d'' hc => ?_, fun e => ⟨ih _ (hrefuse e).1, (hrefuse e).2.mono fun a => hR a d'⟩⟩
    obtain ⟨hinv, hgrows, hguard, hsafe, hgone⟩ := hperform free b l' d'' hc
    exact ⟨hinv, hgrows, hguard, ih _ hsafe, fun e => (hgone e).mono fun a => hR a d''⟩

/-- A session that holds the lock finds the database as it left it. -/
theorem Safe.guarded {c : Command D W ε β} {k : Except ε β → Client D W ε α} (hheld : 0 < l.held)
    (hperform : ∀ free b l' d', c.perform free l d = some (b, l', d') →
      G.inv d' ∧ G.grows d d' ∧ Safe G Q R (k (.ok b)) l' d' ∧ ∀ e, Lost (R · d') (k (.error e)))
    (hrefuse : ∀ e, Safe G Q R (k (.error e)) (c.refuse l) d ∧ Lost (R · d) (k (.error e))) :
    Safe G Q R (.call c k) l d := by
  intro d' hd'
  cases hd'.frozen hheld
  refine ⟨fun free b l' d'' hc => ?_, hrefuse⟩
  obtain ⟨hinv, hgrows, hsafe, hlost⟩ := hperform free b l' d'' hc
  exact ⟨hinv, hgrows, .inr hheld, hsafe, hlost⟩

section

variable {k : Except ε Unit → Client D W ε α}

/-- The lock is asked for outside a transaction; the database may have changed when it is granted. -/
theorem Safe.lock (hidle : l.transaction = .idle) (h : ∀ d', G.Interferes l d d' →
      Safe G Q R (k (.ok ())) { l with held := l.held + 1 } d' ∧
      ∀ e, Safe G Q R (k (.error e)) l d' ∧ Lost (R · d') (k (.error e))) : Safe G Q R (.call .lock k) l d := by
  intro d' hd'
  obtain ⟨hok, herror⟩ := h d' hd'
  refine ⟨fun free b l' d'' hc => ?_, fun e => ?_⟩
  · simp only [Command.perform, hidle] at hc
    split at hc <;> cases hc
    rw [hidle] at hok
    exact ⟨hd'.inv, G.refl _, .inl rfl, hok, fun e => (herror e).2⟩
  · simp only [Command.refuse, hidle]
    exact herror e

/-- The last command of a client, whose reply it does not look at. -/
theorem Safe.last {c : Command D W ε Unit} {a : α} (hc : c = .unlock ∨ c = .rollback)
    (hQ : ∀ l' d', G.inv d' → G.grows d d' → Q a l' d') (hR : ∀ d', G.inv d' → G.grows d d' → R a d') :
    Safe G Q R (.call c fun _ => .ret a) l d := by
  have hret : ∀ l' d', G.inv d' → G.grows d d' → Safe G Q R (.ret a : Client D W ε α) l' d' :=
    fun l' d' _ hgrows d'' hd'' => hQ l' d'' hd''.inv (G.trans hgrows hd''.grows)
  intro d' hd'
  refine ⟨fun free b l' d'' hperform => ?_, fun e => ⟨hret _ _ hd'.inv hd'.grows, hR _ hd'.inv hd'.grows⟩⟩
  have hsame : d'' = d' := by
    rcases hc with rfl | rfl
    all_goals
      simp only [Command.perform] at hperform
      split at hperform <;> cases hperform
      all_goals rfl
  rw [hsame]
  exact ⟨hd'.inv, G.refl _, .inl rfl, hret _ _ hd'.inv hd'.grows, fun e => hR _ hd'.inv hd'.grows⟩

theorem Safe.begin (hheld : 0 < l.held) (hidle : l.transaction = .idle) (hinv : G.inv d)
    (hok : Safe G Q R (k (.ok ())) { l with transaction := .opened [] } d)
    (herror : ∀ e, Safe G Q R (k (.error e)) l d ∧ Lost (R · d) (k (.error e))) :
    Safe G Q R (.call .begin k) l d := by
  refine Safe.guarded hheld (fun free b l' d' hc => ?_) fun e => ?_
  · simp only [Command.perform, hidle] at hc
    cases hc
    exact ⟨hinv, G.refl _, hok, fun e => (herror e).2⟩
  · simp only [Command.refuse, hidle]
    exact herror e

theorem Safe.commit {ws : List W} (hheld : 0 < l.held) (hopened : l.transaction = .opened ws)
    (hinv : G.inv (writeAll d ws)) (hgrows : G.grows d (writeAll d ws))
    (hok : Safe G Q R (k (.ok ())) { l with transaction := .idle } (writeAll d ws))
    (hlost : ∀ e, Lost (R · (writeAll d ws)) (k (.error e)))
    (herror : ∀ e, Safe G Q R (k (.error e)) { l with transaction := .idle } d ∧ Lost (R · d) (k (.error e))) :
    Safe G Q R (.call .commit k) l d := by
  refine Safe.guarded hheld (fun free b l' d' hc => ?_) herror
  simp only [Command.perform, hopened] at hc
  cases hc
  exact ⟨hinv, hgrows, hok, hlost⟩

end

section

variable {eval : D → Except ε (β × List W)} {k : Except ε β → Client D W ε α}

/-- A statement outside a transaction commits by itself. -/
theorem Safe.query (hheld : 0 < l.held) (hidle : l.transaction = .idle)
    (hok : ∀ b ws, eval d = .ok (b, ws) → G.inv (writeAll d ws) ∧ G.grows d (writeAll d ws) ∧
      Safe G Q R (k (.ok b)) l (writeAll d ws) ∧ ∀ e, Lost (R · (writeAll d ws)) (k (.error e)))
    (herror : ∀ e, Safe G Q R (k (.error e)) l d ∧ Lost (R · d) (k (.error e))) :
    Safe G Q R (.call (.query eval) k) l d := by
  refine Safe.guarded hheld (fun free b l' d' hc => ?_) fun e => ?_
  · simp only [Command.perform, hidle] at hc
    split at hc <;> cases hc
    exact hok _ _ ‹_›
  · simp only [Command.refuse, hidle]
    exact herror e

/-- A statement of a transaction adds to its writes. -/
theorem Safe.query_opened {ws : List W} (hheld : 0 < l.held) (hopened : l.transaction = .opened ws) (hinv : G.inv d)
    (hok : ∀ b ws', eval (writeAll d ws) = .ok (b, ws') →
      Safe G Q R (k (.ok b)) { l with transaction := .opened (ws ++ ws') } d)
    (herror : ∀ e, Safe G Q R (k (.error e)) { l with transaction := .aborted } d ∧ Lost (R · d) (k (.error e))) :
    Safe G Q R (.call (.query eval) k) l d := by
  refine Safe.guarded hheld (fun free b l' d' hc => ?_) fun e => ?_
  · simp only [Command.perform, hopened] at hc
    split at hc <;> cases hc
    exact ⟨hinv, G.refl _, hok _ _ ‹_›, fun e => (herror e).2⟩
  · simp only [Command.refuse, hopened]
    exact herror e

end

/-- Sequential composition: the rest of the code is safe after whatever the first
part returns, and returns well if the connection was lost in the first part. -/
theorem Safe.bind {Q : β → Local W → D → Prop} {R : β → D → Prop} {R' : α → D → Prop} {f : α → Client D W ε β}
    (h : Safe G (fun a l d => Safe G Q R (f a) l d) R' p l d)
    (hlost : ∀ a d, R' a d → Lost (R · d) (f a)) : Safe G Q R (p >>= f) l d := by
  induction p generalizing l d with
  | ret a => exact Safe.of_interferes h
  | call c k ih =>
    intro d' hd'
    obtain ⟨hperform, hrefuse⟩ := h d' hd'
    refine ⟨fun free b l' d'' hc => ?_, fun e => ⟨ih _ (hrefuse e).1, ((hrefuse e).2.mono fun a => hlost a d').bind⟩⟩
    obtain ⟨hinv, hgrows, hguard, hsafe, hgone⟩ := hperform free b l' d'' hc
    exact ⟨hinv, hgrows, hguard, ih _ hsafe, fun e => ((hgone e).mono fun a => hlost a d'').bind⟩

end

/-- Code that keeps the discipline wherever the pool starts it, and whose result
stays true as the database grows. -/
structure Guarded (G : Discipline D) (R : α → D → Prop) (code : Client D W ε α) : Prop where
  safe : ∀ l d, l.transaction = .idle → G.inv d → Safe G (fun a _ d => R a d) R code l d
  stable : ∀ a d d', R a d → G.grows d d' → G.inv d' → R a d'

def Session.SafeAt (G : Discipline D) (R : α → D → Prop) (x : Session D W ε α) (d : D) : Prop :=
  ∀ p, x.code = some p → if x.connected then Safe G (fun a _ d => R a d) R p x.conn d else Lost (R · d) p

/-- What holds of every state: the database keeps the discipline, one session at
most holds the lock, and every session runs safe code. -/
structure Server.Disciplined (G : Discipline D) (R : α → D → Prop) (s : Server n D W ε α) : Prop where
  inv : G.inv s.db
  exclusive : ∀ i j, 0 < (s.sessions i).conn.held → 0 < (s.sessions j).conn.held → i = j
  safe : ∀ i, (s.sessions i).SafeAt G R s.db
  returned : ∀ a ∈ s.returned, R a s.db

namespace Server.Disciplined

variable {R : α → D → Prop} {s : Server n D W ε α} {code : Client D W ε α} {i : Fin n} {x : Session D W ε α}

/-- The lock stays with one session when a session changes that held it, or that no other excludes. -/
theorem exclusive_set (h : s.Disciplined G R) (hheld : 0 < x.conn.held → ∀ j, j ≠ i → (s.sessions j).conn.held = 0)
    {j k : Fin n} (hj : 0 < ((s.set i x).sessions j).conn.held) (hk : 0 < ((s.set i x).sessions k).conn.held) :
    j = k := by
  by_cases hji : j = i <;> by_cases hki : k = i
  · rw [hji, hki]
  · subst hji
    simp only [Server.set, Function.update_self, Function.update_of_ne hki] at hj hk
    exact absurd (hheld hj k hki) hk.ne'
  · subst hki
    simp only [Server.set, Function.update_self, Function.update_of_ne hji] at hj hk
    exact absurd (hheld hk j hji) hj.ne'
  · simp only [Server.set, Function.update_of_ne hji, Function.update_of_ne hki] at hj hk
    exact h.exclusive j k hj hk

/-- A session goes on without changing the database. -/
theorem set (h : s.Disciplined G R) (hheld : 0 < x.conn.held → 0 < (s.sessions i).conn.held)
    (hsafe : x.SafeAt G R s.db) : (s.set i x).Disciplined G R where
  inv := h.inv
  returned := h.returned
  exclusive j k := h.exclusive_set fun hx j hji =>
    Nat.eq_zero_of_not_pos fun hj => hji (h.exclusive j i hj (hheld hx))
  safe := by
    intro j
    by_cases hji : j = i
    · subst hji
      simpa [Server.set] using hsafe
    · simpa [Server.set, Function.update_of_ne hji] using h.safe j

theorem drop (h : s.Disciplined G R) (i : Fin n) :
    Session.SafeAt G R { s.sessions i with connected := false } s.db := by
  intro p hp
  have hsafe := h.safe i p hp
  split at hsafe
  · exact hsafe.lost h.inv
  · exact hsafe

/-- The server performs a command: the lock goes to a session only when it is free,
and the sessions without the lock are ready for what the command committed. -/
theorem perform (hR : ∀ a d d', R a d → G.grows d d' → G.inv d' → R a d') (h : s.Disciplined G R) {c : Command D W ε β}
    {b : β} {d : D} (hc : c.perform (s.free i) (s.sessions i).conn s.db = some (b, x.conn, d)) (hinv : G.inv d)
    (hgrows : G.grows s.db d) (hguard : d = s.db ∨ 0 < (s.sessions i).conn.held)
    (hsafe : x.SafeAt G R d) : ({ s.set i x with db := d } : Server n D W ε α).Disciplined G R where
  inv := hinv
  returned a ha := hR a _ _ (h.returned a ha) hgrows hinv
  exclusive j k := h.exclusive_set fun hx j hji => by
    by_cases hfree : s.free i = true
    · exact decide_eq_true_eq.mp hfree j hji
    · rw [Bool.not_eq_true] at hfree
      rw [hfree] at hc
      exact Nat.eq_zero_of_not_pos fun hj => hji (h.exclusive j i hj (hx.trans_le (Command.held_of_taken hc)))
  safe := by
    intro j
    by_cases hji : j = i
    · subst hji
      simpa [Server.set] using hsafe
    · simp only [Server.set, Function.update_of_ne hji]
      intro p hp
      have hother := h.safe j p hp
      split at hother
      · rw [if_pos ‹_›]
        refine hother.interferes ⟨hinv, hgrows, fun hj => ?_⟩
        exact hguard.resolve_right fun hi => hji (h.exclusive j i hj hi)
      · rw [if_neg ‹_›]
        exact hother.mono fun a ha => hR a _ _ ha hgrows hinv

theorem init {db : D} (hdb : G.inv db) : (Server.init n db : Server n D W ε α).Disciplined G R where
  inv := hdb
  exclusive i j hi := absurd hi (lt_irrefl 0)
  safe i p hp := nomatch hp
  returned := by simp [Server.init]

/-- One move: only a performed command changes the database, and then under the
lock; every other move is the business of one session. -/
theorem move (hcode : Guarded G R code) (h : s.Disciplined G R) {s' : Server n D W ε α} {m : Move n ε}
    (hmove : s.move code m = some s') : s'.Disciplined G R := by
  cases m with
  | start i =>
    simp only [Server.move] at hmove
    split at hmove <;> cases hmove
    rename_i hidle
    refine h.set id fun p hp => ?_
    cases hp
    rw [if_pos hidle.2.1]
    refine hcode.safe _ _ ?_ h.inv
    revert hidle
    cases (s.sessions i).conn.transaction <;> simp [Transaction.isIdle]
  | perform i lost =>
    simp only [Server.move] at hmove
    split at hmove
    · rename_i c k hcall
      split_ifs at hmove with hconnected
      · obtain ⟨⟨b, l, d⟩, hc, rfl⟩ := Option.map_eq_some_iff.mp hmove
        have hsafe := h.safe i _ hcall
        rw [if_pos hconnected] at hsafe
        obtain ⟨hinv, hgrows, hguard, hnext, hlost⟩ := (hsafe _ (.none h.inv)).1 _ _ _ _ hc
        cases lost <;> refine h.perform (x := ⟨_, _, l⟩) hcode.stable hc hinv hgrows hguard fun p hp => ?_ <;> cases hp
        · rw [if_pos hconnected]
          exact hnext
        · exact hlost _
    · cases hmove
  | refuse i e =>
    simp only [Server.move] at hmove
    split at hmove
    · rename_i c k hcall
      split at hmove <;> cases hmove
      rename_i hconnected
      have hsafe := h.safe i _ hcall
      rw [if_pos hconnected] at hsafe
      refine h.set (fun hheld => by rwa [← Command.refuse_held _ c]) fun p hp => ?_
      cases hp
      rw [if_pos hconnected]
      exact ((hsafe _ (.none h.inv)).2 e).1
    · cases hmove
  | broken i e =>
    simp only [Server.move] at hmove
    split at hmove
    · rename_i c k hcall
      split at hmove <;> cases hmove
      rename_i hgone
      have hsafe := h.safe i _ hcall
      rw [if_neg hgone] at hsafe
      refine h.set id fun p hp => ?_
      cases hp
      rw [if_neg hgone]
      exact hsafe e
    · cases hmove
  | drop i =>
    cases hmove
    exact h.set id (h.drop i)
  | crash i =>
    cases hmove
    exact h.set id fun p hp => nomatch hp
  | disconnect i =>
    simp only [Server.move] at hmove
    split at hmove <;> cases hmove
    rename_i hgone
    refine h.set (fun hheld => absurd hheld (lt_irrefl 0)) fun p hp => ?_
    have hsafe := h.safe i p hp
    rw [if_neg hgone] at hsafe ⊢
    exact hsafe
  | finish i =>
    simp only [Server.move] at hmove
    split at hmove <;> cases hmove
    rename_i a hret
    have hafter := h.set (i := i) (x := { s.sessions i with
      code := none, connected := (s.sessions i).connected && (s.sessions i).conn.transaction.isIdle }) id
      fun p hp => nomatch hp
    have hresult : R a s.db := by
      have hsafe := h.safe i _ hret
      split at hsafe
      · exact hsafe.lost h.inv
      · exact hsafe
    refine ⟨hafter.inv, hafter.exclusive, hafter.safe, fun a' ha' => ?_⟩
    rcases List.mem_append.mp ha' with ha' | ha'
    · exact h.returned a' ha'
    · rwa [List.mem_singleton.mp ha']

end Server.Disciplined

/-- Guarded code keeps its discipline in every state that any number of calls lead to. -/
theorem Reach.disciplined {R : α → D → Prop} {code : Client D W ε α} {db : D} {s : Server n D W ε α}
    (hcode : Guarded G R code) (hdb : G.inv db) (h : Reach code db s) : s.Disciplined G R := by
  induction h with
  | init => exact .init hdb
  | move m _ hmove ih => exact ih.move hcode hmove

end SessionLock
