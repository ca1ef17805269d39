import Infragraph.Lib.Sql

/-! Rows that age. A row counts the rounds of its owner in which it was not
seen, and goes out of use when the count reaches a threshold. A round is two
updates: count, then mark. -/

namespace ReadCommitted

open Relational

/-- How the rows of a table age: whose they are, the counter and the status. -/
structure Aging {ρ κ : Type} (key : ρ → κ) where
  mine : ρ → Bool
  absences : ρ → ℕ
  active : ρ → Bool
  count : ρ → ρ
  mark : ρ → ρ
  key_count : ∀ r, key (count r) = key r
  key_mark : ∀ r, key (mark r) = key r
  mine_count : ∀ r, mine (count r) = mine r
  active_count : ∀ r, active (count r) = active r
  absences_count : ∀ r, absences (count r) = absences r + 1
  absences_mark : ∀ r, absences (mark r) = absences r
  active_mark : ∀ r, active (mark r) = false

def countAbsence (seen : Bool) (absences : ℕ) : ℕ := if seen then absences else absences + 1

namespace Aging

variable {ρ κ β : Type} {key : ρ → κ} (A : Aging key) (seen : ρ → Bool) (threshold : ℕ) (r : ρ)

def counted : ρ := if A.mine r && !seen r then A.count r else r

def marked : ρ := if A.mine r && (A.active r && decide (threshold ≤ A.absences r)) then A.mark r else r

def swept : ρ := A.marked threshold (A.counted seen r)

/-- A column that aging leaves alone. -/
def Keeps (out : ρ → β) : Prop := (∀ r, out (A.count r) = out r) ∧ ∀ r, out (A.mark r) = out r

variable {A seen threshold r}

theorem Keeps.counted {out : ρ → β} (h : A.Keeps out) : out (A.counted seen r) = out r := by
  unfold Aging.counted
  split_ifs
  · exact h.1 r
  · rfl

theorem Keeps.swept {out : ρ → β} (h : A.Keeps out) : out (A.swept seen threshold r) = out r := by
  unfold Aging.swept Aging.marked
  split_ifs
  · rw [h.2, h.counted]
  · exact h.counted

theorem keeps_key : A.Keeps key := ⟨A.key_count, A.key_mark⟩

theorem mine_counted : A.mine (A.counted seen r) = A.mine r := by
  unfold Aging.counted
  split_ifs
  · exact A.mine_count r
  · rfl

theorem active_counted : A.active (A.counted seen r) = A.active r := by
  unfold Aging.counted
  split_ifs
  · exact A.active_count r
  · rfl

theorem absences_counted (h : A.mine r = true) :
    A.absences (A.counted seen r) = countAbsence (seen r) (A.absences r) := by
  unfold Aging.counted countAbsence
  cases hs : seen r <;> simp [h, A.absences_count]

variable (A seen threshold)

theorem swept_of_not_mine (h : A.mine r = false) : A.swept seen threshold r = r := by
  have hc : A.counted seen r = r := by simp [Aging.counted, h]
  rw [Aging.swept, hc]
  simp [Aging.marked, h]

theorem absences_swept (h : A.mine r = true) :
    A.absences (A.swept seen threshold r) = countAbsence (seen r) (A.absences r) := by
  rw [← absences_counted h]
  unfold Aging.swept Aging.marked
  split_ifs
  · exact A.absences_mark _
  · rfl

/-- A row stays in use while its counter is below the threshold. -/
theorem active_swept (h : A.mine r = true) : A.active (A.swept seen threshold r) = true ↔
      A.active r = true ∧ countAbsence (seen r) (A.absences r) < threshold := by
  rw [← absences_counted h]
  unfold Aging.swept Aging.marked
  rw [mine_counted, h]
  by_cases hn : threshold ≤ A.absences (A.counted seen r)
  · cases ha : A.active r <;> simp [hn, active_counted, ha, A.active_mark]
  · simp [hn, active_counted, not_le.mp hn]

/-- A round never takes a row back into use. -/
theorem active_of_swept (h : A.active (A.swept seen threshold r) = true) : A.active r = true := by
  cases hm : A.mine r with
  | true => exact ((active_swept A seen threshold hm).mp h).1
  | false => rwa [swept_of_not_mine A seen threshold hm] at h

theorem mem_lost {t : Table key} {out : ρ → β} {a : β} :
    a ∈ ((t.rows.filter fun r => A.active r && !A.active (A.swept seen threshold r)).map out) ↔
      ∃ r ∈ t, A.active r = true ∧ out r = a ∧ A.active (A.swept seen threshold r) = false := by
  simp only [List.mem_map, List.mem_filter, Bool.and_eq_true, Bool.not_eq_true', Table.mem_rows]
  constructor
  · intro h
    obtain ⟨r, ⟨hr, ha, hs⟩, he⟩ := h
    exact ⟨r, hr, ha, he, hs⟩
  · intro h
    obtain ⟨r, hr, ha, he, hs⟩ := h
    exact ⟨r, ⟨hr, ha, hs⟩, he⟩

variable {D W L ε : Type} [DecidableEq κ] [Store D W] {threshold}

/-- The two updates of a round, run one after the other. -/
theorem run_round {call call' : Call} (table : D → Table key) {row : ρ → W} {lock : ρ → L} (seen : D → ρ → Bool)
    {out : ρ → β} {db d₁ db' : D} {rs rs' : List β}
    (hrow : ∀ (d : D) (l : List ρ), table (writeAll d (l.map row)) = (table d).putAll l) (hout : A.Keeps out)
    (h1 : (Prog.exec (Stmt.update call table row lock (fun d r => A.mine r && !seen d r) A.count out :
      Stmt D W L ε (List β))).run db = .ok (rs, d₁))
    (h2 : (Prog.exec (Stmt.update call' table row lock
      (fun _ r => A.mine r && (A.active r && decide (threshold ≤ A.absences r))) A.mark out :
      Stmt D W L ε (List β))).run d₁ = .ok (rs', db')) :
    (∀ k, (table db').get k = ((table db).get k).map (A.swept (seen db) threshold)) ∧
      rs'.Perm (((table db).rows.filter fun r =>
        A.active r && !A.active (A.swept (seen db) threshold r)).map out) := by
  obtain ⟨-, rfl⟩ := run_update_ok.mp h1
  obtain ⟨rfl, rfl⟩ := run_update_ok.mp h2
  have hget : ∀ k, (table (writeAll db
      (((table db).changed (fun r => A.mine r && !seen db r) A.count).map row))).get k =
        ((table db).get k).map (A.counted (seen db)) := by
    intro k
    rw [hrow, Table.get_changed _ _ A.key_count]
    rfl
  refine ⟨fun k => ?_, ?_⟩
  · rw [hrow, Table.get_changed _ _ A.key_mark, hget, Option.map_map]
    rfl
  · -- the rows the second update selects are rows of the first, counted
    have hperm := Table.rows_perm_map (fun r => keeps_key.counted) hget
    refine (((hperm.filter _).map A.mark).map out).trans ?_
    rw [List.filter_map, List.map_map, List.map_map]
    have hsame : (out ∘ A.mark) ∘ A.counted (seen db) = out := by
      funext r
      rw [Function.comp_apply, Function.comp_apply, hout.2, hout.counted]
    rw [hsame]
    refine List.Perm.map out (List.Perm.of_eq (List.filter_congr fun r _ => ?_))
    rw [Function.comp_apply, mine_counted, active_counted]
    cases hm : A.mine r with
    | false =>
      rw [swept_of_not_mine A _ _ hm]
      simp
    | true =>
      have hswept := active_swept A (seen db) threshold hm
      rw [← absences_counted hm] at hswept
      rw [Bool.true_and, Bool.eq_iff_iff]
      simp only [Bool.and_eq_true, Bool.not_eq_true', ← Bool.not_eq_true, hswept, decide_eq_true_eq, not_and,
        not_lt]
      exact and_congr_right fun ha => ⟨fun hn _ => hn, fun hn => hn ha⟩

end Aging

end ReadCommitted
