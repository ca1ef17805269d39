import Infragraph.Lib.Table
import Infragraph.Lib.Prog

/-! The statement forms over keyed tables: a plain `INSERT`, an `UPDATE`, and an
`INSERT ... ON CONFLICT`. Each is given by the table it writes; the rows it
changes are re-read in the latest state, every condition and subquery is
evaluated on the statement's snapshot. -/

namespace ReadCommitted

open Relational

variable {D W L ε β ρ κ : Type} {key : ρ → κ} [DecidableEq κ]
variable {call : Call} {f merge : ρ → ρ} {table : D → Table key} {row : ρ → W} {lock : ρ → L} {p : D → ρ → Bool}
  {out : ρ → β} {locks : List L} {refused : D → Option ε} {r : ρ} {find : D → Option ρ} {none_ : ε} {db db' : D}

/-- `UPDATE ... WHERE p RETURNING out`: the rows selected in the snapshot that
still satisfy the condition in their latest version. -/
def Stmt.update (call : Call) (table : D → Table key) (row : ρ → W) (lock : ρ → L) (p : D → ρ → Bool) (f : ρ → ρ)
    (out : ρ → β) : Stmt D W L ε (List β) where
  call := call
  locks snap _ := ((table snap).rows.filter (p snap)).map lock
  eval snap cur :=
    let rs := (table cur).changed (fun r => p snap r && ((table snap).get (key r)).any (p snap)) f
    .ok (rs.map out, rs.map row)

/-- `INSERT`, refused when a unique index already has one of the row's entries. -/
def Stmt.insert (call : Call) (row : ρ → W) (locks : List L) (refused : D → Option ε) (r : ρ) :
    Stmt D W L ε Unit where
  call := call
  locks _ _ := locks
  eval _ cur :=
    match refused cur with
    | some e => .error e
    | none => .ok ((), [row r])

/-- `INSERT ... ON CONFLICT (...) DO UPDATE ... RETURNING out`: the row found by
`find` is updated, else the new row is inserted unless another index refuses. -/
def Stmt.upsert (call : Call) (row : ρ → W) (locks : List L) (find : D → Option ρ) (refused : D → Option ε) (r : ρ)
    (merge : ρ → ρ) (out : ρ → β) : Stmt D W L ε β where
  call := call
  locks _ _ := locks
  eval _ cur :=
    match find cur with
    | some old => .ok (out (merge old), [row (merge old)])
    | none =>
      match refused cur with
      | some e => .error e
      | none => .ok (out r, [row r])

/-- `INSERT ... ON CONFLICT (...) DO UPDATE ... WHERE p RETURNING out`: the row found
by `find` is updated if it satisfies `p`, else nothing is written or returned. -/
def Stmt.upsertWhere (call : Call) (row : ρ → W) (locks : List L) (find : D → Option ρ) (p : ρ → Bool) (r : ρ)
    (merge : ρ → ρ) (out : ρ → β) : Stmt D W L ε (Option β) where
  call := call
  locks _ _ := locks
  eval _ cur :=
    match find cur with
    | some old => if p old then .ok (some (out (merge old)), [row (merge old)]) else .ok (none, [])
    | none => .ok (some (out r), [row r])

/-- `SELECT ... FOR UPDATE` of one row, an error when there is none. -/
def Stmt.selectForUpdate (call : Call) (find : D → Option ρ) (lock : ρ → L) (none_ : ε) (out : ρ → β) :
    Stmt D W L ε β where
  call := call
  locks snap _ := (find snap).toList.map lock
  eval snap cur :=
    match find snap, find cur with
    | some _, some r => .ok (out r, [])
    | _, _ => .error none_

/-- An `UPDATE` by key changes the row in its latest version, if its condition
held in the snapshot too. -/
theorem changed_by_key (snap cur : Table key) (k : κ) (q : ρ → Bool) (f : ρ → ρ) :
    cur.changed (fun r => (key r = k && q r) && (snap.get (key r)).any fun r => key r = k && q r) f =
      ((cur.get k).filter fun r => q r && (snap.get k).any q).toList.map f := by
  rw [← Table.changed_key]
  unfold Table.changed
  congr 1
  apply List.filter_congr
  intro r _
  by_cases hk : key r = k
  · subst hk
    have hany : (snap.get (key r)).any (fun r' => key r' = key r && q r') = (snap.get (key r)).any q := by
      cases hs : snap.get (key r) with
      | none => rfl
      | some r' => simp [Table.key_of_get hs]
    simp [hany]
  · simp [hk]

section

variable {snap cur : D} {b : β} {ws : List W}

omit [DecidableEq κ] in
theorem eval_insert_ok {u : Unit} :
    (Stmt.insert call row locks refused r : Stmt D W L ε Unit).eval snap cur = .ok (u, ws) ↔
      refused cur = none ∧ ws = [row r] := by
  simp only [Stmt.insert]
  cases refused cur with
  | some e => simp
  | none => simp [eq_comm]

omit [DecidableEq κ] in
theorem eval_upsert_ok
    (h : (Stmt.upsert call row locks find refused r merge out : Stmt D W L ε β).eval snap cur = .ok (b, ws)) :
    (∃ old, find cur = some old ∧ b = out (merge old) ∧ ws = [row (merge old)]) ∨
      (find cur = none ∧ refused cur = none ∧ b = out r ∧ ws = [row r]) := by
  simp only [Stmt.upsert] at h
  split at h
  · rename_i old hold
    cases h
    exact .inl ⟨old, hold, rfl, rfl⟩
  · rename_i hnone
    split at h
    · cases h
    · rename_i href
      cases h
      exact .inr ⟨hnone, href, rfl, rfl⟩

omit [DecidableEq κ] in
theorem eval_selectForUpdate_ok
    (h : (Stmt.selectForUpdate call find lock none_ out : Stmt D W L ε β).eval snap cur = .ok (b, ws)) :
    ∃ r, find cur = some r ∧ b = out r ∧ ws = [] := by
  simp only [Stmt.selectForUpdate] at h
  split at h
  · rename_i r _ hr
    cases h
    exact ⟨r, hr, rfl, rfl⟩
  · cases h

end

section

variable {P : W → Prop}

theorem Writes.select {f : D → β} : (Prog.exec (Stmt.select call f) : Prog D W L ε β).Writes P := by
  apply Prog.Writes.exec
  rintro d d' r ws ⟨⟩ w hw
  cases hw

theorem Writes.update (h : ∀ r, P (row r)) :
    (Prog.exec (Stmt.update call table row lock p f out : Stmt D W L ε (List β))).Writes P := by
  apply Prog.Writes.exec
  rintro d d' r ws ⟨⟩ w hw
  obtain ⟨x, -, rfl⟩ := List.mem_map.mp hw
  exact h x

theorem Writes.insert (h : ∀ r, P (row r)) :
    (Prog.exec (Stmt.insert call row locks refused r : Stmt D W L ε Unit)).Writes P := by
  apply Prog.Writes.exec
  intro d d' u ws he w hw
  rw [(eval_insert_ok.mp he).2] at hw
  exact List.mem_singleton.mp hw ▸ h r

theorem Writes.upsert (h : ∀ r, P (row r)) :
    (Prog.exec (Stmt.upsert call row locks find refused r merge out : Stmt D W L ε β)).Writes P := by
  apply Prog.Writes.exec
  intro d d' u ws he w hw
  obtain ⟨old, -, -, rfl⟩ | ⟨-, -, -, rfl⟩ := eval_upsert_ok he
  · exact List.mem_singleton.mp hw ▸ h (merge old)
  · exact List.mem_singleton.mp hw ▸ h r

theorem Writes.selectForUpdate :
    (Prog.exec (Stmt.selectForUpdate call find lock none_ out : Stmt D W L ε β)).Writes P := by
  apply Prog.Writes.exec
  intro d d' u ws he w hw
  obtain ⟨-, -, -, rfl⟩ := eval_selectForUpdate_ok he
  cases hw

end

/-- Run on `d` alone, the statement writes rows that `A` allows there. -/
def Stmt.Puts (A : D → W → Prop) (s : Stmt D W L ε β) : Prop :=
  ∀ d r ws, s.eval d d = .ok (r, ws) → ∀ w ∈ ws, A d w

section

variable {A : D → W → Prop}

theorem Puts.select {f : D → β} : (Stmt.select call f : Stmt D W L ε β).Puts A := by
  intro d r ws he w hw
  cases he
  cases hw

theorem Puts.selectForUpdate : (Stmt.selectForUpdate call find lock none_ out : Stmt D W L ε β).Puts A := by
  intro d r ws he w hw
  obtain ⟨-, -, -, rfl⟩ := eval_selectForUpdate_ok he
  cases hw

theorem Puts.update (h : ∀ d, ∀ r ∈ table d, p d r = true → A d (row (f r))) :
    (Stmt.update call table row lock p f out : Stmt D W L ε (List β)).Puts A := by
  intro d rs ws he w hw
  cases he
  obtain ⟨x, hx, rfl⟩ := List.mem_map.mp hw
  obtain ⟨r, hr, hp, rfl⟩ := Table.mem_changed.mp hx
  rw [Bool.and_eq_true] at hp
  exact h d r hr hp.1

theorem Puts.insert (h : ∀ d, refused d = none → A d (row r)) :
    (Stmt.insert call row locks refused r : Stmt D W L ε Unit).Puts A := by
  intro d u ws he w hw
  obtain ⟨hr, rfl⟩ := eval_insert_ok.mp he
  exact List.mem_singleton.mp hw ▸ h d hr

theorem Puts.upsert (hold : ∀ d old, find d = some old → A d (row (merge old)))
    (hnew : ∀ d, find d = none → refused d = none → A d (row r)) :
    (Stmt.upsert call row locks find refused r merge out : Stmt D W L ε β).Puts A := by
  intro d u ws he w hw
  obtain ⟨old, hf, -, rfl⟩ | ⟨hf, hr, -, rfl⟩ := eval_upsert_ok he
  · exact List.mem_singleton.mp hw ▸ hold d old hf
  · exact List.mem_singleton.mp hw ▸ hnew d hf hr

/-- Rows of one owner, in place of none but theirs. -/
theorem Puts.update_owned {q : ρ → Bool} (hA : ∀ d r, Table.Owned q (table d) r → A d (row r))
    (hf : ∀ r, key (f r) = key r ∧ q (f r) = q r) (hp : ∀ d r, p d r = true → q r = true) :
    (Stmt.update call table row lock p f out : Stmt D W L ε (List β)).Puts A := by
  apply Puts.update
  intro d r hr hpr
  apply hA
  apply Table.owned_of_old
  · rw [(hf r).1]
    exact Table.mem_iff_get.mp hr
  · exact hp d r hpr
  · exact (hf r).2.trans (hp d r hpr)

theorem Puts.insert_owned {q : ρ → Bool} (table : D → Table key) (hA : ∀ d, Table.Owned q (table d) r → A d (row r))
    (hr : q r = true) (hfresh : ∀ d, refused d = none → (table d).get (key r) = none) :
    (Stmt.insert call row locks refused r : Stmt D W L ε Unit).Puts A :=
  Puts.insert fun d h => hA d (Table.owned_of_fresh hr (hfresh d h))

theorem Puts.upsert_owned {q : ρ → Bool} (hA : ∀ d r, Table.Owned q (table d) r → A d (row r)) (hr : q r = true)
    (hm : ∀ old, key (merge old) = key old ∧ q (merge old) = q old)
    (hold : ∀ d old, find d = some old → old ∈ table d ∧ q old = true)
    (hfresh : ∀ d, find d = none → refused d = none → (table d).get (key r) = none) :
    (Stmt.upsert call row locks find refused r merge out : Stmt D W L ε β).Puts A := by
  apply Puts.upsert
  · intro d old hfind
    obtain ⟨hmem, hq⟩ := hold d old hfind
    apply hA
    apply Table.owned_of_old
    · rw [(hm old).1]
      exact Table.mem_iff_get.mp hmem
    · exact hq
    · exact (hm old).2.trans hq
  · exact fun d hfind href => hA d r (Table.owned_of_fresh hr (hfresh d hfind href))

end

structure TableOf (D W : Type) {ρ κ : Type} [DecidableEq κ] [Store D W] (key : ρ → κ) where
  table : D → Table key
  row? : W → Option ρ
  write : ∀ d w, table (Store.write d w) = ((row? w).elim (table d) (table d).put)

namespace TableOf

variable [Store D W] (T : TableOf D W key)

def written (ws : List W) : List ρ := ws.filterMap T.row?

@[simp] theorem written_nil : T.written ([] : List W) = [] := rfl

theorem written_append (ws ws' : List W) : T.written (ws ++ ws') = T.written ws ++ T.written ws' :=
  List.filterMap_append

theorem written_map {g : ρ → W} (h : ∀ r, T.row? (g r) = some r) (rs : List ρ) : T.written (rs.map g) = rs := by
  induction rs with
  | nil => rfl
  | cons r rs ih => simpa [written, h r] using ih

theorem unwritten {σ : Type} {g : σ → W} (h : ∀ x, T.row? (g x) = none) {xs : List σ} {P : ρ → Prop} :
    ∀ r ∈ T.written (xs.map g), P r := by
  simp [written, h]

theorem writeAll (d : D) (ws : List W) : T.table (writeAll d ws) = (T.table d).putAll (T.written ws) := by
  induction ws generalizing d with
  | nil => rfl
  | cons w ws ih =>
    rw [writeAll_cons, ih, T.write]
    cases h : T.row? w with
    | none => simp [written, h]
    | some r => simp [written, h]

/-- The row of a key is the one written last, or the one of the database. -/
theorem get_cases (ws : List W) (k : κ) :
    (∃ r ∈ T.written ws, key r = k ∧ ∀ d, (T.table (ReadCommitted.writeAll d ws)).get k = some r) ∨
      (∀ r ∈ T.written ws, key r ≠ k) ∧
        ∀ d, (T.table (ReadCommitted.writeAll d ws)).get k = (T.table d).get k := by
  simp only [T.writeAll]
  by_cases h : ∃ r ∈ T.written ws, key r = k
  · obtain ⟨x, hx, hxk, hget⟩ := Table.get_putAll_written h
    exact .inl ⟨x, hx, hxk, fun d => hget _⟩
  · push Not at h
    exact .inr ⟨h, fun d => Table.get_putAll_of_not_mem _ _ h⟩

theorem mem_writeAll {d : D} {ws : List W} (h : r ∈ T.table (ReadCommitted.writeAll d ws)) :
    r ∈ T.written ws ∨ r ∈ T.table d := by
  rw [Table.mem_iff_get] at h
  rcases T.get_cases ws (key r) with ⟨x, hx, -, hget⟩ | ⟨-, hget⟩
  · have hxr : x = r := Option.some.inj ((hget d).symm.trans h)
    exact .inl (hxr ▸ hx)
  · exact .inr (Table.mem_of_get ((hget d).symm.trans h))

theorem get_congr {d d' : D} {k : κ} (ws : List W) (h : (T.table d).get k = (T.table d').get k) :
    (T.table (ReadCommitted.writeAll d ws)).get k = (T.table (ReadCommitted.writeAll d' ws)).get k := by
  rw [T.writeAll, T.writeAll]
  exact Table.get_putAll_congr h _

end TableOf

theorem changed_self (t : Table key) (p : ρ → Bool) (f : ρ → ρ) :
    t.changed (fun r => p r && (t.get (key r)).any p) f = t.changed p f := by
  unfold Table.changed
  congr 1
  apply List.filter_congr
  intro r hr
  rw [Table.mem_iff_get.mp hr]
  simp

section

variable {d o : D}

end

variable [Store D W]

theorem run_update_ok {rs : List β} :
    (Prog.exec (Stmt.update call table row lock p f out : Stmt D W L ε (List β))).run db = .ok (rs, db') ↔
      rs = ((table db).changed (p db) f).map out ∧
        db' = writeAll db (((table db).changed (p db) f).map row) := by
  rw [Prog.run_exec_ok]
  simp only [Stmt.update, changed_self]
  constructor
  · rintro ⟨ws, he, rfl⟩
    cases he
    exact ⟨rfl, rfl⟩
  · rintro ⟨rfl, rfl⟩
    exact ⟨_, rfl, rfl⟩

omit [DecidableEq κ] in
theorem run_insert_ok {u : Unit} :
    (Prog.exec (Stmt.insert call row locks refused r : Stmt D W L ε Unit)).run db = .ok (u, db') ↔
      refused db = none ∧ db' = writeAll db [row r] := by
  rw [Prog.run_exec_ok]
  simp only [eval_insert_ok, and_assoc, exists_and_left, exists_eq_left]

omit [DecidableEq κ] in
theorem run_upsertWhere {p : ρ → Bool} :
    (Prog.exec (Stmt.upsertWhere call row locks find p r merge out : Stmt D W L ε (Option β))).run db =
      .ok (match find db with
        | some old => if p old then (some (out (merge old)), writeAll db [row (merge old)]) else (none, db)
        | none => (some (out r), writeAll db [row r])) := by
  simp only [Prog.exec, Prog.run, Stmt.upsertWhere]
  cases find db with
  | none => rfl
  | some old =>
    by_cases hp : p old
    · simp [hp]
    · simp [hp]

omit [DecidableEq κ] in
theorem run_upsert_ok {b : β}
    (h : (Prog.exec (Stmt.upsert call row locks find refused r merge out : Stmt D W L ε β)).run db = .ok (b, db')) :
    (∃ old, find db = some old ∧ b = out (merge old) ∧ db' = writeAll db [row (merge old)]) ∨
      (find db = none ∧ refused db = none ∧ b = out r ∧ db' = writeAll db [row r]) := by
  obtain ⟨ws, he, rfl⟩ := Prog.run_exec_ok.mp h
  obtain ⟨old, hold, hb, rfl⟩ | ⟨hnone, href, hb, rfl⟩ := eval_upsert_ok he
  · exact .inl ⟨old, hold, hb, rfl⟩
  · exact .inr ⟨hnone, href, hb, rfl⟩

omit [DecidableEq κ] in
theorem run_selectForUpdate_ok {b : β}
    (h : (Prog.exec (Stmt.selectForUpdate call find lock none_ out : Stmt D W L ε β)).run db = .ok (b, db')) :
    ∃ r, find db = some r ∧ b = out r ∧ db' = db := by
  obtain ⟨ws, he, rfl⟩ := Prog.run_exec_ok.mp h
  obtain ⟨r, hr, hb, rfl⟩ := eval_selectForUpdate_ok he
  exact ⟨r, hr, hb, rfl⟩

end ReadCommitted
