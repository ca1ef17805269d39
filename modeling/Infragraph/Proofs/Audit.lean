import Infragraph.Lib.Play
import Infragraph.Sanity.Apply
import Infragraph.Sanity.Audit

/-! The audit chain under concurrency. `Append` takes its time before it waits
for the lock of the organization and looks for its predecessor by time, so the
chain is in order as long as the lock is granted in the order of the times. -/

namespace Infragraph

open Relational ReadCommitted Prog

section

variable [Hashes]

def auditLock (org : String) : Lock := .advisory (hashtextextended ("audit|" ++ org))

/-- The chains are intact; while a session holds an organization's lock its
trail does not move, and a key it holds stays as it is. -/
def chainRely : Rely Db Lock where
  inv d := ∀ org, d.Chained org
  rel held d d' := (∀ org, auditLock org ∈ held → d'.auditTrail org = d.auditTrail org) ∧
    ∀ id, Lock.entry .auditEvents [id] ∈ held → d'.auditEvents.get id = d.auditEvents.get id
  refl _ _ := ⟨fun _ _ => rfl, fun _ _ => rfl⟩
  trans h h' := ⟨fun org ho => (h'.1 org ho).trans (h.1 org ho), fun id hid => (h'.2 id hid).trans (h.2 id hid)⟩

/-- The session holds the organization's lock and has written nothing. -/
def Guarding (org : String) (_ : Db) (l : Local Db Write Lock) : Prop :=
  l.writes = [] ∧ auditLock org ∈ l.held

/-- It has found the end of the log, before the event. -/
def Linking (e : AuditEvent) (previous : String) (d : Db) (l : Local Db Write Lock) : Prop :=
  Guarding e.organizationID d l ∧ previous = ((d.lastAudit e.organizationID).map (·.eventHash)).getD "" ∧
    ∀ r ∈ d.auditTrail e.organizationID, e.row.after r

structure Appended (e : AuditEvent) (d : Db) (l : Local Db Write Lock) : Prop where
  writes : l.writes =
    [.auditEvent (e.linked (((d.lastAudit e.organizationID).map (·.eventHash)).getD "")).row]
  lock : auditLock e.organizationID ∈ l.held
  key : Lock.entry .auditEvents [e.id] ∈ l.held
  fresh : d.auditEvents.get e.id = none
  last : ∀ r ∈ d.auditTrail e.organizationID, e.row.after r

theorem stable_linking (e : AuditEvent) (previous : String) : Stable chainRely (Linking e previous) := by
  rintro d d' l - - hrel ⟨hlock, hprev, hlast⟩
  have htrail := hrel.1 _ hlock.2
  exact ⟨hlock, by rw [lastAudit_congr htrail]; exact hprev, by rw [htrail]; exact hlast⟩

theorem stable_appended (e : AuditEvent) : Stable chainRely (Appended e) := by
  intro d d' l _ _ hrel h
  have htrail := hrel.1 _ h.lock
  exact ⟨by rw [lastAudit_congr htrail]; exact h.writes, h.lock, h.key, by rw [hrel.2 _ h.key]; exact h.fresh,
    by rw [htrail]; exact h.last⟩

theorem triple_append (c : AppendCall) :
    Triple (stampedLast c) chainRely (fun _ _ _ => True) (fun _ l => l.writes = [])
      (append c.clock c.event) fun _ => Appended c.stamped := by
  refine Triple.bind (Triple.failIf (fun _ _ _ _ _ _ h => h) fun _ _ _ _ _ => trivial) fun _ => ?_
  refine Triple.bind (Q := fun _ => Guarding c.event.organizationID) ?_ fun _ => ?_
  · refine Triple.exec (fun _ _ _ _ _ _ h => h) (fun _ _ _ _ _ _ _ h => h) (fun _ _ _ _ _ _ _ => trivial) ?_
    rintro d₁ d₂ l _ ws - - - - - hp ⟨⟩
    exact ⟨by rw [Local.done, hp.2]; rfl, List.mem_append_right _ (List.mem_singleton_self _)⟩
  refine Triple.bind (Q := Linking c.stamped) ?_ fun previous => ?_
  · refine Triple.exec (fun _ _ _ _ _ _ h => h) (fun _ => stable_linking _ _)
      (fun _ _ _ _ _ _ _ => trivial) ?_
    rintro d₁ d₂ l _ ws - - hrel hsched hp - ⟨⟩
    have htrail := hrel.1 _ hp.2
    have hview : l.view d₁ = d₁ := by rw [Local.view, hp.1, writeAll_nil]
    refine ⟨⟨by rw [Local.done, hp.1]; rfl, List.mem_append_left _ hp.2⟩, ?_, ?_⟩
    · rw [hview]
      exact congrArg (fun o => (Option.map (·.eventHash) o).getD "") (lastAudit_congr htrail).symm
    · show ∀ r ∈ d₂.auditTrail c.event.organizationID, _
      rw [htrail]
      exact hsched rfl
  · refine Triple.exec (stable_linking _ _) (fun _ => stable_appended _) (fun _ _ _ _ _ _ _ => trivial) ?_
    rintro d₁ d₂ l _ ws - - - - - ⟨hlock, hprev, hlast⟩ he
    have hview : l.view d₂ = d₂ := by rw [Local.view, hlock.1, writeAll_nil]
    rw [hview] at he
    simp only [insertAuditEvent, Stmt.insert] at he
    split at he
    · cases he
    · rename_i hfresh
      cases he
      refine ⟨?_, List.mem_append_left _ hlock.2, List.mem_append_right _ (List.mem_singleton_self _), ?_, hlast⟩
      · rw [Local.done, hlock.1, ← hprev]
        rfl
      · split at hfresh
        · cases hfresh
        · rename_i hnone
          exact Option.not_isSome_iff_eq_none.mp hnone

theorem publishes_appended (e : AuditEvent) : Publishes chainRely fun (_ : Unit) => Appended e := by
  intro _ d l hchain h
  have hview : l.view d = writeAll d l.writes := rfl
  rw [hview, h.writes]
  refine ⟨Db.Chained.insert hchain h.fresh h.last, fun held hfree => ⟨fun org horg => ?_, fun id hid => ?_⟩⟩
  · refine (auditTrail_insert h.fresh org).trans (if_neg ?_)
    rintro rfl
    exact hfree _ h.lock horg
  · refine Table.get_put_of_ne _ fun heq : e.id = id => ?_
    exact hfree _ h.key (heq ▸ hid)

theorem append_verified : Verified orderedSystem chainRely (fun _ _ _ _ => True)
    fun c _ => Appended c.stamped where
  publishes c := publishes_appended c.stamped
  code c d hinv := triple_append c d {} hinv rfl

/-- Where each event is later than those its `Append` finds, the log of every
organization is at all times a chain that `Verify` accepts. -/
theorem ordered_chain {db₀ : Db} {s : State Db Write Lock Error Unit AppendCall}
    (h0 : ∀ org, ∃ es : List AuditEvent, es.map AuditEvent.row = db₀.auditLog org ∧ verify es = true)
    (hs : Reach orderedSystem db₀ s) (org : String) :
    ∃ es : List AuditEvent, es.map AuditEvent.row = s.db.auditLog org ∧ verify es = true :=
  (hs.safe append_verified h0).inv org

end

def appendOf (id : String) (clock : Time) : AppendCall :=
  ⟨clock, { id := id, organizationID := "org", actorID := "", action := "edit", resourceType := "",
            resourceID := "", requestID := "", payload := GoMap.nil, occurredAt := 0 }⟩

def appendMoves (t : ℕ) : List (Move AppendCall) := [.work t, .work t, .work t, .commit t]

instance (begun : List AppendCall) (c : AppendCall) : Decidable ((@appendSystem toy).admits begun c) :=
  inferInstanceAs (Decidable (_ ∧ _))

instance (q : AppendCall) (c : Call) (rs : List (Call × Db)) (d d' : Db) :
    Decidable ((@appendSystem toy).schedule q c rs d d') :=
  inferInstanceAs (Decidable True)

instance (begun : List AppendCall) (c : AppendCall) : Decidable ((@orderedSystem toy).admits begun c) :=
  inferInstanceAs (Decidable (_ ∧ _))

instance (q : AppendCall) (c : Call) (rs : List (Call × Db)) (d d' : Db) :
    Decidable ((@orderedSystem toy).schedule q c rs d d') :=
  inferInstanceAs (Decidable (_ → _))

/-- The second caller is first to get the lock: the first caller links to it and
sorts before it. -/
theorem overtaken_chain : ∃ s, Reach (@appendSystem toy) emptyDb s ∧ s.Quiet ∧
      ∀ es : List AuditEvent, es.map AuditEvent.row = s.db.auditLog "org" → @verify toy es = false := by
  obtain ⟨s, hs, hquiet, hfirst⟩ := Reach.played (@appendSystem toy) 2 emptyDb
    (.begin 0 (appendOf "a" 1000) :: .begin 1 (appendOf "b" 2000) :: appendMoves 1 ++ appendMoves 0)
    (fun s => (s.db.auditLog "org").head?.any fun r => r.previousHash ≠ "") (by decide +kernel)
  refine ⟨s, hs, hquiet, fun es hes => ?_⟩
  rw [← hes] at hfirst
  cases es with
  | nil => cases hfirst
  | cons e es =>
    have hne : e.previousHash ≠ "" := by simpa [AuditEvent.row] using hfirst
    simp [verify, verifyFrom, hne]

theorem ordered_chain_two :
    ∃ s, Reach (@orderedSystem toy) emptyDb s ∧ (s.db.auditLog "org").map (·.id) = ["a", "b"] ∧
      ∃ es : List AuditEvent, es.map AuditEvent.row = s.db.auditLog "org" ∧ @verify toy es = true := by
  obtain ⟨s, hs, -, hids⟩ := Reach.played (@orderedSystem toy) 2 emptyDb
    (.begin 0 (appendOf "a" 1000) :: .begin 1 (appendOf "b" 2000) :: appendMoves 0 ++ appendMoves 1)
    (fun s => (s.db.auditLog "org").map (·.id) = ["a", "b"]) (by decide +kernel)
  exact ⟨s, hs, by simpa using hids, @ordered_chain toy emptyDb s (fun _ => ⟨[], rfl, rfl⟩) hs "org"⟩

end Infragraph
