import Infragraph.Proofs.Ingest
import Infragraph.Sanity.Audit
import Infragraph.Sanity.Hashing
import Infragraph.Sanity.Storage

/-! The audit chain as evidence. A chain read back from the table is accepted
when every event was stored as it was hashed, which the events of the ingest
handler are not; and a chain is determined by its last hash. -/

namespace Infragraph

open ReadCommitted Prog

section

variable [Hashes]

theorem run_append {c : AppendCall} {db db' : Db} {u : Unit} (h : (append c.clock c.event).run db = .ok (u, db')) :
    db.auditEvents.get c.event.id = none ∧ db' = writeAll db [Write.auditEvent
      (c.stamped.linked (((db.lastAudit c.event.organizationID).map (·.eventHash)).getD "")).row] := by
  obtain ⟨-, h₁⟩ := run_failIf_bind_ok.mp h
  obtain ⟨_, _, hlock, h₂⟩ := run_bind_ok.mp h₁
  obtain ⟨_, hlocked, rfl⟩ := run_exec_ok.mp hlock
  cases hlocked
  obtain ⟨previous, _, hselect, h₃⟩ := run_bind_ok.mp h₂
  obtain ⟨_, hselected, rfl⟩ := run_exec_ok.mp hselect
  cases hselected
  obtain ⟨hrefused, rfl⟩ := run_insert_ok.mp h₃
  refine ⟨?_, rfl⟩
  split at hrefused
  · cases hrefused
  · rename_i hfresh
    exact Option.not_isSome_iff_eq_none.mp hfresh

def unlinked (e : AuditEvent) : AuditEvent := { e with previousHash := "", eventHash := "" }

def eventsOf (org : String) (cs : List AppendCall) : List AuditEvent :=
  (cs.filter (·.event.organizationID = org)).map fun c => unlinked c.stamped

/-- Calls of `Append` one after the other, each later than the events before it,
extend the log by a chain of their events. -/
theorem serial_append {cs : List AppendCall} {db : Db} {out : Db × List (AppendCall × Unit)} {org : String}
    (hrun : appendSystem.serial cs db = some out) (horder : cs.Pairwise fun a b => b.stamped.row.after a.stamped.row)
    (hlast : ∀ c ∈ cs, ∀ r ∈ db.auditTrail org, c.stamped.row.after r) {es : List AuditEvent}
    (hes : es.map AuditEvent.row = db.auditLog org) (hv : verify es = true) :
    ∃ es', (es ++ es').map AuditEvent.row = out.1.auditLog org ∧ verify (es ++ es') = true ∧
      es'.map unlinked = eventsOf org cs := by
  induction cs generalizing db es out with
  | nil =>
    cases hrun
    exact ⟨[], by simpa using hes, by simpa using hv, rfl⟩
  | cons c cs ih =>
    simp only [System.serial] at hrun
    split at hrun
    · rename_i u db₁ hc
      obtain ⟨out', hout', rfl⟩ := Option.map_eq_some_iff.mp hrun
      obtain ⟨hfresh, rfl⟩ := run_append hc
      rw [List.pairwise_cons] at horder
      have htrail := auditTrail_insert
        (r := (c.stamped.linked (((db.lastAudit c.event.organizationID).map (·.eventHash)).getD "")).row)
        hfresh org
      by_cases horg : c.event.organizationID = org
      · subst horg
        rw [previousHash_eq hes] at hout' htrail
        have hlog : (es ++ [c.stamped.linked (lastHash "" es)]).map AuditEvent.row =
            (writeAll db [Write.auditEvent (c.stamped.linked (lastHash "" es)).row]).auditLog
              c.event.organizationID := by
          rw [List.map_append, hes]
          exact (auditLog_insert (r := (c.stamped.linked (lastHash "" es)).row) hfresh
            (hlast c (.head _))).symm
        have hlast' : ∀ c' ∈ cs, ∀ r ∈ (writeAll db [Write.auditEvent
            (c.stamped.linked (lastHash "" es)).row]).auditTrail c.event.organizationID,
              c'.stamped.row.after r := by
          intro c' hc' r hr
          rw [htrail.trans (if_pos rfl)] at hr
          rcases List.mem_append.mp hr with hr | hr
          · exact hlast c' (.tail _ hc') r hr
          · rw [List.mem_singleton.mp hr]
            exact horder.1 c' hc'
        obtain ⟨es', hmap, hverify, hevents⟩ := ih hout' horder.2 hlast' hlog (verify_linked hv c.stamped)
        refine ⟨c.stamped.linked (lastHash "" es) :: es', by simpa using hmap, by simpa using hverify, ?_⟩
        rw [eventsOf, List.filter_cons_of_pos (by simp), List.map_cons, hevents]
        rfl
      · have hsame := htrail.trans (if_neg horg)
        obtain ⟨es', hmap, hverify, hevents⟩ := ih hout' horder.2
          (by rw [hsame]; exact fun c' hc' => hlast c' (.tail _ hc'))
          (hes.trans (by rw [Db.auditLog, Db.auditLog, hsame])) hv
        refine ⟨es', hmap, hverify, ?_⟩
        rw [eventsOf, List.filter_cons_of_neg (by simpa using horg)]
        exact hevents
    · cases hrun

/-- A verified list read back is verified when the hashes do not tell the stored
events from the original ones. -/
theorem verify_reloaded {es : List AuditEvent} {previous : String} (hv : verifyFrom previous es = true) :
    verifyFrom previous (es.map fun e => e.row.event) = true ↔
      ∀ e ∈ es, auditHash e.previousHash e.row.event.canonical = auditHash e.previousHash e.canonical := by
  induction es generalizing previous with
  | nil => simp [verifyFrom]
  | cons e es ih =>
    rw [verifyFrom] at hv
    split_ifs at hv with hbad
    push Not at hbad
    obtain ⟨rfl, hhash⟩ := hbad
    have hprev : e.row.event.previousHash = e.previousHash := rfl
    have hevent : e.row.event.eventHash = e.eventHash := rfl
    rw [List.map_cons, verifyFrom, hprev, hevent, List.forall_mem_cons, ← ih hv, hhash]
    split_ifs with h
    · simp only [ne_eq, not_true_eq_false, false_or] at h
      exact iff_of_false id fun hne => h hne.1.symm
    · simp only [ne_eq, not_true_eq_false, false_or, not_not] at h
      simp [← h]

/-- An event is hashed after storage as it was before exactly when its time is a
whole number of microseconds and its payload is storable; and where the hash
tells what was stored from what was hashed, a chain appended event by event is
accepted after it is read back exactly when all its events are such. -/
theorem stored_chain_verifies : (∀ e : AuditEvent, e.row.event.canonical = e.canonical ↔
      e.occurredAt % 1000 = 0 ∧ (GoValue.ofMap e.payload).Storable) ∧
    ∀ (org : String) (db : Db) (cs : List AppendCall) (out : Db × List (AppendCall × Unit)),
      db.auditTrail org = [] → appendSystem.serial cs db = some out →
      cs.Pairwise (fun a b => b.stamped.row.after a.stamped.row) →
      (∀ c ∈ cs, ∀ previous, sum256 (auditMessage previous c.stamped.row.event.canonical) =
        sum256 (auditMessage previous c.stamped.canonical) →
          auditMessage previous c.stamped.row.event.canonical = auditMessage previous c.stamped.canonical) →
      (verify ((out.1.auditLog org).map AuditRow.event) = true ↔
        ∀ c ∈ cs, c.event.organizationID = org →
          c.stamped.occurredAt % 1000 = 0 ∧ (GoValue.ofMap c.stamped.payload).Storable) := by
  refine ⟨canonical_stored, fun org db cs out hempty hrun horder hcol => ?_⟩
  have hlog₀ : [].map AuditEvent.row = db.auditLog org := by
    rw [Db.auditLog, hempty]
    rfl
  obtain ⟨es, hlog, hv, hes⟩ := serial_append hrun horder (by rw [hempty]; simp) hlog₀ rfl
  have hmessage : ∀ previous x y, auditMessage previous x = auditMessage previous y → x = y :=
    fun previous x y h => utf8_inj (List.cons.inj (List.append_cancel_left h)).2
  -- the hashed texts do not depend on the place in the chain
  have hhash : ∀ c ∈ cs, ∀ e : AuditEvent, unlinked e = unlinked c.stamped →
      (auditHash e.previousHash e.row.event.canonical = auditHash e.previousHash e.canonical ↔
        c.stamped.Storable) := by
    intro c hc e he
    have hcanonical : (unlinked e).canonical = (unlinked c.stamped).canonical := by rw [he]
    have hstored : (unlinked e).row.event.canonical = (unlinked c.stamped).row.event.canonical := by rw [he]
    change e.canonical = c.stamped.canonical at hcanonical
    change e.row.event.canonical = c.stamped.row.event.canonical at hstored
    rw [← canonical_stored, hcanonical, hstored]
    exact ⟨fun h => hmessage _ _ _ (hcol c hc _ (hexSum_inj h)), fun h => by rw [h]⟩
  rw [← hlog, List.map_map]
  refine (verify_reloaded hv).trans ⟨fun h c hc horg => ?_, fun h e he => ?_⟩
  · have hmem : unlinked c.stamped ∈ eventsOf org cs :=
      List.mem_map.mpr ⟨c, List.mem_filter.mpr ⟨hc, by simpa using horg⟩, rfl⟩
    rw [← hes] at hmem
    obtain ⟨e, he, heq⟩ := List.mem_map.mp hmem
    exact (hhash c hc e heq).mp (h e he)
  · have hmem : unlinked e ∈ eventsOf org cs := hes ▸ List.mem_map_of_mem he
    obtain ⟨c, hc, heq⟩ := List.mem_map.mp hmem
    obtain ⟨hc, horg⟩ := List.mem_filter.mp hc
    exact (hhash c hc e heq.symm).mpr (h c hc (by simpa using horg))

end

/-- No event of the ingest handler is storable: its payload contains the summary
struct, whose fields are not declared in the order of their names. -/
theorem reconciledEvent_not_storable (r : SnapshotRequest) (s : SnapshotEnvelope) (collector : String)
    (summary : Summary) : ¬(reconciledEvent r s collector summary).Storable := by
  rintro ⟨-, hpayload⟩
  have hsorted := hpayload.2.2.2.1.1
  simp at hsorted

def handledLog : Option (List AuditRow) :=
  match (@collectorSnapshot toy plainSignatures (requestOf
      (@signSnapshot toy plainSignatures (snapshotOf "first" "one" [] []) []))).run
      { enrolledDb with
        credentials := Relational.Table.empty.put
          ⟨"credential", "org", "collector", @tokenHash toy "secret", none, none⟩ } with
  | .ok (_, db) => some (db.auditLog "org")
  | .error _ => none

theorem handled_event_rejected : ∃ log, handledLog = some log ∧ log.length = 1 ∧
    @verify toy (log.map AuditRow.event) = false := by
  have h : handledLog.any (fun log => log.length = 1 && !@verify toy (log.map AuditRow.event)) = true := by
    decide +kernel
  obtain ⟨log, hlog, hok⟩ := (Option.any_eq_true _ _).mp h
  exact ⟨log, hlog, by simpa using hok⟩

def countedEdits : List AppendCall :=
  [("a", 1000), ("b", 2000)].map fun (id, clock) =>
    ⟨clock, { id := id, organizationID := "org", actorID := "admin", action := "edit", resourceType := ""
              resourceID := "", requestID := "", payload := ⟨[("count", .int 3)], by simp, false, by simp⟩
              occurredAt := 0 }⟩

theorem countedEdits_storable : ∀ c ∈ countedEdits, c.stamped.Storable := by
  have hthree : shortest64 3 = 3 := by decide +kernel
  simp [countedEdits, AppendCall.stamped, AuditEvent.Storable, orNow, GoValue.ofMap, GoValue.Storable,
    GoValue.StorableFields, hthree]

theorem stored_chain_verifies_edits : ∃ out, (@appendSystem toy).serial countedEdits emptyDb = some out ∧
    (out.1.auditLog "org").length = 2 ∧ @verify toy ((out.1.auditLog "org").map AuditRow.event) = true := by
  have hrun : ((@appendSystem toy).serial countedEdits emptyDb).any
      (fun out => (out.1.auditLog "org").length = 2) = true := by decide +kernel
  obtain ⟨out, hout, hlen⟩ := (Option.any_eq_true _ _).mp hrun
  refine ⟨out, hout, by simpa using hlen, ?_⟩
  refine ((@stored_chain_verifies toy).2 "org" emptyDb countedEdits out rfl hout (by decide +kernel) ?_).mpr
    fun c hc _ => countedEdits_storable c hc
  intro c hc previous _
  rw [(canonical_stored c.stamped).mpr (countedEdits_storable c hc)]

section

variable [Hashes]

def messages (es : List AuditEvent) : List (List UInt8) :=
  es.map fun e => auditMessage e.previousHash e.canonical

theorem verify_append_one {es : List AuditEvent} {e : AuditEvent} (h : verify (es ++ [e]) = true) :
    verify es = true ∧ e.previousHash = lastHash "" es ∧
      e.eventHash = hexSum (auditMessage e.previousHash e.canonical) := by
  rw [verify, verifyFrom_append, Bool.and_eq_true] at h
  obtain ⟨hes, he⟩ := h
  simp only [verifyFrom] at he
  split_ifs at he with hbad
  push Not at hbad
  refine ⟨hes, hbad.1, ?_⟩
  rw [hbad.1]
  exact hbad.2

theorem lastHash_cases {es : List AuditEvent} (h : verify es = true) :
    es = [] ∧ lastHash "" es = "" ∨ ∃ m, lastHash "" es = hexSum m := by
  rcases List.eq_nil_or_concat es with rfl | ⟨es, e, rfl⟩
  · exact .inl ⟨rfl, rfl⟩
  · rw [List.concat_eq_append] at h ⊢
    have hhash := (verify_append_one h).2.2
    exact .inr ⟨_, by simpa [lastHash] using hhash⟩

theorem nul_not_mem_lastHash {es : List AuditEvent} (h : verify es = true) : 0 ∉ bytes (lastHash "" es) := by
  rcases lastHash_cases h with ⟨-, heq⟩ | ⟨m, heq⟩
  · rw [heq]
    exact List.not_mem_nil
  · rw [heq]
    exact nul_not_mem_hexSum m

structure SameEvent (e e' : AuditEvent) : Prop where
  canonical : e.canonical = e'.canonical
  content : SameContent e e'
  previousHash : e.previousHash = e'.previousHash
  eventHash : e.eventHash = e'.eventHash

theorem same_of_lastHash (hsize : ∀ m, (sum256 m).length = 32) {es es' : List AuditEvent} (hv : verify es = true)
    (hv' : verify es' = true) (hinj : ∀ x ∈ messages es, ∀ y ∈ messages es', sum256 x = sum256 y → x = y)
    (hlast : lastHash "" es = lastHash "" es') : List.Forall₂ SameEvent es es' := by
  have hempty : ∀ m, hexSum m ≠ "" := fun m => hexSum_ne_empty fun h => by
    have := hsize m
    rw [h] at this
    cases this
  -- from the last event back to the first
  induction es using List.reverseRecOn generalizing es' with
  | nil =>
    rcases lastHash_cases hv' with ⟨rfl, -⟩ | ⟨m, hm⟩
    · exact .nil
    · exact absurd (hm.symm.trans hlast.symm) (hempty m)
  | append_singleton es e ih =>
    obtain ⟨hes, hprev, hhash⟩ := verify_append_one hv
    have hend : lastHash "" (es ++ [e]) = e.eventHash := by simp [lastHash]
    rcases List.eq_nil_or_concat es' with rfl | ⟨es', e', rfl⟩
    · rw [hend, hhash] at hlast
      exact absurd hlast (hempty _)
    · rw [List.concat_eq_append] at *
      obtain ⟨hes', hprev', hhash'⟩ := verify_append_one hv'
      have hend' : lastHash "" (es' ++ [e']) = e'.eventHash := by simp [lastHash]
      have heq : e.eventHash = e'.eventHash := by rw [← hend, hlast, hend']
      have hmessage := hinj (auditMessage e.previousHash e.canonical) (by simp [messages])
        (auditMessage e'.previousHash e'.canonical) (by simp [messages])
        (hexSum_inj (by rw [← hhash, ← hhash', heq]))
      have hnul : 0 ∉ bytes e.previousHash := hprev ▸ nul_not_mem_lastHash hes
      have hnul' : 0 ∉ bytes e'.previousHash := hprev' ▸ nul_not_mem_lastHash hes'
      obtain ⟨hp, hc⟩ := auditMessage_inj hnul hnul' hmessage
      refine List.rel_append (ih hes hes' (fun x hx y hy => hinj x ?_ y ?_) ?_)
        (.cons ⟨hc, canonical_iff.mp hc, hp, heq⟩ .nil)
      · exact List.map_subset _ (List.subset_append_left _ _) hx
      · exact List.map_subset _ (List.subset_append_left _ _) hy
      · rw [← hprev, ← hprev', hp]

/-- Two chains that `Verify` accepts and that end in the same hash are the same
chain, where SHA-256 does not collide on what was hashed. -/
theorem tamper_evident (hsize : ∀ m, (sum256 m).length = 32) {es es' : List AuditEvent}
    (hinj : ∀ x ∈ messages es, ∀ y ∈ messages es', sum256 x = sum256 y → x = y) (hv : verify es = true)
    (hv' : verify es' = true) (hlast : es.getLast?.map (·.eventHash) = es'.getLast?.map (·.eventHash)) :
    es.length = es'.length ∧ List.Forall₂ SameEvent es es' := by
  have hsame := same_of_lastHash hsize hv hv' hinj (by rw [lastHash, hlast, lastHash])
  exact ⟨hsame.length_eq, hsame⟩

end

/-- A hash of 32 bytes that evaluates quickly. -/
abbrev wide : Hashes := ⟨fun bs => toyHash bs ++ toyHash (1 :: bs), fun s => s.length⟩

theorem length_wide (m : List UInt8) : (wide.sum256 m).length = 32 := by
  show (toyHash m ++ toyHash (1 :: m)).length = 32
  simp [toyHash]

def editChain (count : GoValue) : List AuditEvent :=
  let edit (id : String) (time : Time) : AuditEvent :=
    { id := id, organizationID := "org", actorID := "admin", action := "edit", resourceType := "", resourceID := ""
      requestID := "", payload := ⟨[("count", count)], by simp, false, by simp⟩, occurredAt := time }
  let first := @AuditEvent.linked wide (edit "a" 1000) ""
  [first, @AuditEvent.linked wide (edit "b" 2000) first.eventHash]

/-- The counter as an integer and as the float64 it is read back as. -/
theorem tamper_evident_edits : (editChain (.int 3)).length = (editChain (.float (.ofInt 3))).length ∧
      List.Forall₂ SameEvent (editChain (.int 3)) (editChain (.float (.ofInt 3))) :=
  @tamper_evident wide length_wide _ _ (by decide +kernel) (by decide +kernel) (by decide +kernel)
    (by decide +kernel)

end Infragraph
