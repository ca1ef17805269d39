import Mathlib.Data.Prod.Lex
import Infragraph.Sanity.Issued
import Infragraph.Spec.Interleaving

/-! The order of audit events and the chain they form: the event `Append` links
to is the last of the log, and an event later than all others extends the log
at its end. -/

namespace Infragraph

open Relational ReadCommitted

variable {a b r : AuditRow} {db : Db} {org : String}

def AuditRow.stamp (r : AuditRow) : ℤ ×ₗ String := toLex (r.occurredAt, r.id)

theorem AuditRow.after_iff : a.after b = true ↔ b.stamp < a.stamp := by
  simp [AuditRow.after, AuditRow.stamp, Prod.Lex.toLex_lt_toLex]

theorem AuditRow.upTo_iff : a.upTo b ↔ a.stamp ≤ b.stamp := by
  rw [AuditRow.upTo, ← Bool.not_eq_true, after_iff, not_lt]

theorem AuditRow.id_of_stamp (h : a.stamp = b.stamp) : a.id = b.id :=
  congrArg (fun s => (ofLex s).2) h

instance : Std.Total AuditRow.upTo :=
  ⟨fun a b => by rw [AuditRow.upTo_iff, AuditRow.upTo_iff]; exact le_total _ _⟩

instance : IsTrans AuditRow AuditRow.upTo :=
  ⟨fun a b c hab hbc => by rw [AuditRow.upTo_iff] at *; exact hab.trans hbc⟩

/-- `LIMIT 1` is a row that no other row comes before. -/
theorem firstBy_after (rows : List AuditRow) : (firstBy AuditRow.after rows = none ∧ rows = []) ∨
      ∃ r ∈ rows, firstBy AuditRow.after rows = some r ∧ ∀ x ∈ rows, x.upTo r := by
  induction rows using List.reverseRecOn with
  | nil => exact .inl ⟨rfl, rfl⟩
  | append_singleton rows x ih =>
    right
    have hfold : firstBy AuditRow.after (rows ++ [x]) =
        (firstBy AuditRow.after rows).elim (some x) fun b => if x.after b then some x else some b := by
      rw [firstBy, List.foldl_append, ← firstBy]
      cases firstBy AuditRow.after rows <;> rfl
    have hself : x.upTo x := by rw [AuditRow.upTo_iff]
    rcases ih with ⟨hnone, rfl⟩ | ⟨r, hr, hsome, hmax⟩
    · exact ⟨x, by simp, by rfl, by simpa using hself⟩
    · rw [hsome] at hfold
      by_cases hx : x.after r = true
      · refine ⟨x, by simp, by rw [hfold]; simp [hx], fun y hy => ?_⟩
        rcases List.mem_append.mp hy with hy | hy
        · have hle := (AuditRow.upTo_iff.mp (hmax y hy)).trans (AuditRow.after_iff.mp hx).le
          exact AuditRow.upTo_iff.mpr hle
        · rw [List.mem_singleton.mp hy]
          exact hself
      · refine ⟨r, by simp [hr], by rw [hfold]; simp [hx], fun y hy => ?_⟩
        rcases List.mem_append.mp hy with hy | hy
        · exact hmax y hy
        · rw [List.mem_singleton.mp hy]
          exact Bool.eq_false_iff.mpr hx

theorem orderedInsert_last {x : AuditRow} {rows : List AuditRow} (h : a.upTo x) :
    (rows ++ [x]).orderedInsert AuditRow.upTo a = rows.orderedInsert AuditRow.upTo a ++ [x] := by
  induction rows with
  | nil => simp [h]
  | cons r rows ih =>
    by_cases hr : a.upTo r
    · simp [hr]
    · simp [hr, ih]

theorem insertionSort_last {x : AuditRow} {rows : List AuditRow} (h : ∀ r ∈ rows, r.upTo x) :
    (rows ++ [x]).insertionSort AuditRow.upTo = rows.insertionSort AuditRow.upTo ++ [x] := by
  induction rows with
  | nil => rfl
  | cons r rows ih =>
    rw [List.cons_append, List.insertionSort_cons, ih fun r' hr' => h r' (.tail _ hr'),
      orderedInsert_last (h r (.head _)), List.insertionSort_cons]

theorem mem_auditTrail : r ∈ db.auditTrail org ↔ r ∈ db.auditEvents ∧ r.organizationID = org := by
  simp [Db.auditTrail, Table.mem_rows]

theorem mem_auditLog : r ∈ db.auditLog org ↔ r ∈ db.auditTrail org :=
  List.mem_insertionSort _

theorem lastAudit_eq (db : Db) (org : String) : db.lastAudit org = (db.auditLog org).getLast? := by
  rcases firstBy_after (db.auditTrail org) with ⟨hnone, hnil⟩ | ⟨r, hr, hsome, hmax⟩
  · rw [Db.lastAudit, hnone, Db.auditLog, hnil]
    rfl
  · rw [Db.lastAudit, hsome]
    cases hlast : (db.auditLog org).getLast? with
    | none =>
      rw [List.getLast?_eq_none_iff] at hlast
      rw [← mem_auditLog, hlast] at hr
      cases hr
    | some x =>
      have hx := mem_auditLog.mp (List.mem_of_getLast? hlast)
      have hle : r.stamp ≤ x.stamp := by
        obtain ⟨rows, hrows⟩ := List.getLast?_eq_some_iff.mp hlast
        have hsorted : (db.auditLog org).Pairwise AuditRow.upTo := List.pairwise_insertionSort _ _
        have hmem := mem_auditLog.mpr hr
        rw [hrows] at hsorted hmem
        rcases List.mem_append.mp hmem with hmem | hmem
        · exact AuditRow.upTo_iff.mp ((List.pairwise_append.mp hsorted).2.2 r hmem x (by simp))
        · rw [List.mem_singleton.mp hmem]
      have hstamp := le_antisymm hle (AuditRow.upTo_iff.mp (hmax x hx))
      rw [Table.eq_of_key (mem_auditTrail.mp hr).1 (mem_auditTrail.mp hx).1 (AuditRow.id_of_stamp hstamp)]

theorem lastAudit_congr {d d' : Db} (h : d'.auditTrail org = d.auditTrail org) :
    d'.lastAudit org = d.lastAudit org := by
  rw [Db.lastAudit, h, Db.lastAudit]

theorem auditTrail_insert (h : db.auditEvents.get r.id = none) (org : String) :
    (writeAll db [Write.auditEvent r]).auditTrail org =
      if r.organizationID = org then db.auditTrail org ++ [r] else db.auditTrail org := by
  have hrows : (writeAll db [Write.auditEvent r]).auditEvents.rows = db.auditEvents.rows ++ [r] :=
    Table.rows_put_fresh h
  unfold Db.auditTrail
  rw [hrows]
  split_ifs with horg <;> simp [horg]

/-- A new event later than the others is the new end of the log. -/
theorem auditLog_insert (h : db.auditEvents.get r.id = none)
    (hlast : ∀ x ∈ db.auditTrail r.organizationID, r.after x) :
    (writeAll db [Write.auditEvent r]).auditLog r.organizationID = db.auditLog r.organizationID ++ [r] := by
  unfold Db.auditLog
  rw [auditTrail_insert h, if_pos rfl, insertionSort_last]
  exact fun x hx => AuditRow.upTo_iff.mpr (AuditRow.after_iff.mp (hlast x hx)).le

def lastHash (previous : String) (es : List AuditEvent) : String :=
  (es.getLast?.map (·.eventHash)).getD previous

theorem lastHash_cons (previous : String) (e : AuditEvent) (es : List AuditEvent) :
    lastHash previous (e :: es) = lastHash e.eventHash es := by
  cases es with
  | nil => rfl
  | cons e' es => simp [lastHash, List.getLast?_eq_some_getLast]

theorem previousHash_eq {es : List AuditEvent} (h : es.map AuditEvent.row = db.auditLog org) :
    ((db.lastAudit org).map (·.eventHash)).getD "" = lastHash "" es := by
  rw [lastAudit_eq, ← h, List.getLast?_map, Option.map_map]
  rfl

section

variable [Hashes]

theorem verifyFrom_append (previous : String) (es es' : List AuditEvent) :
    verifyFrom previous (es ++ es') = (verifyFrom previous es && verifyFrom (lastHash previous es) es') := by
  induction es generalizing previous with
  | nil => rfl
  | cons e es ih =>
    rw [List.cons_append, verifyFrom, verifyFrom, lastHash_cons]
    split_ifs
    · rfl
    · exact ih _

theorem verify_linked {es : List AuditEvent} (h : verify es = true) (e : AuditEvent) :
    verify (es ++ [e.linked (lastHash "" es)]) = true := by
  rw [verify, verifyFrom_append, show verifyFrom "" es = true from h]
  -- the canonical content does not contain the hashes
  have hhash : (e.linked (lastHash "" es)).eventHash =
      auditHash (lastHash "" es) (e.linked (lastHash "" es)).canonical := rfl
  have hprev : (e.linked (lastHash "" es)).previousHash = lastHash "" es := rfl
  simp [verifyFrom, hprev, ← hhash]

/-- The organization's log is a list of events that `Verify` accepts. -/
def Db.Chained (db : Db) (org : String) : Prop :=
  ∃ es : List AuditEvent, es.map AuditEvent.row = db.auditLog org ∧ verify es = true

/-- An event linked to the end of the log and later than all of it keeps every
chain. -/
theorem Db.Chained.insert {e : AuditEvent} (hchain : ∀ org, db.Chained org) (hfresh : db.auditEvents.get e.id = none)
    (hlast : ∀ x ∈ db.auditTrail e.organizationID, e.row.after x) (org : String) : (writeAll db [Write.auditEvent
      (e.linked (((db.lastAudit e.organizationID).map (·.eventHash)).getD "")).row]).Chained org := by
  by_cases horg : e.organizationID = org
  · subst horg
    obtain ⟨es, hes, hv⟩ := hchain e.organizationID
    rw [previousHash_eq hes]
    refine ⟨es ++ [e.linked (lastHash "" es)], ?_, verify_linked hv e⟩
    rw [List.map_append, hes]
    exact (auditLog_insert (r := (e.linked (lastHash "" es)).row) hfresh hlast).symm
  · obtain ⟨es, hes, hv⟩ := hchain org
    refine ⟨es, ?_, hv⟩
    rw [Db.auditLog, (auditTrail_insert hfresh org).trans (if_neg horg)]
    exact hes

end

end Infragraph
