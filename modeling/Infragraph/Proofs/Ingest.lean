import Infragraph.Sanity.Apply
import Infragraph.Sanity.Ingest

/-! Concurrent `collectorSnapshot` requests, statement by statement: sequences
and IDs of what is committed, and requests that change nothing. -/

namespace Infragraph

open Relational ReadCommitted

variable {db₀ db' : Db} {s s' : State Db Write Lock Reply Accepted SnapshotRequest} {a : Accepted}
  {row : SnapshotRow}

section

variable [Hashes] [Signatures]

theorem ingest_verified : Verified ingestSystem snapshotRely ingestFails ingestEnds where
  publishes r a d l _ h := ⟨trivial, ingestEnds_publishes r a d l h⟩
  code _ d _ := triple_collectorSnapshot d {} trivial ⟨rfl, trivial⟩

def reconciledSnapshot (e : SnapshotRequest × Accepted) : Option SnapshotEnvelope :=
  match e.2, e.1.body with
  | .reconciled _, .envelope s => some s
  | _, _ => none

def reconciled (log : List (SnapshotRequest × Accepted)) : List SnapshotEnvelope :=
  log.filterMap reconciledSnapshot

def SnapshotEnvelope.of (s : SnapshotEnvelope) (org connector : String) : Bool :=
  s.organizationID = org ∧ s.connectorID = connector

structure RowOf (db : Db) (s : SnapshotEnvelope) (row : SnapshotRow) : Prop where
  get : db.snapshots.get s.snapshotID = some row
  organizationID : row.organizationID = s.organizationID
  connectorID : row.connectorID = s.connectorID
  sequence : row.sequence = s.sequence
  contentHash : row.contentHash = s.contentHash

inductive Commits (r : SnapshotRequest) (db db' : Db) : Accepted → Prop
  | idempotent {status s row} : db' = db → r.body = .envelope s → db.snapshots.get s.snapshotID = some row →
      row.organizationID = s.organizationID → row.contentHash = s.contentHash →
      Commits r db db' (.idempotent status)
  | reconciled {summary s c row} : Authorized r s c db → db.snapshots.get s.snapshotID = none →
      Ahead s db → RowOf db' s row →
      (∀ id, id ≠ s.snapshotID → db'.snapshots.get id = db.snapshots.get id) →
      Commits r db db' (.reconciled summary)

theorem commits {t : ℕ} (hr : Reach ingestSystem db₀ s) (hs : Step ingestSystem s (.commit t a) s') :
    ∃ x, s.sessions t = some x ∧ Commits x.req s.db s'.db a ∧ s'.log = s.log ++ [(x.req, a)] := by
  obtain ⟨x, hx, hq, hdb, hlog⟩ := (hr.safe ingest_verified trivial).commit hs
  refine ⟨x, hx, ?_, hlog⟩
  cases a with
  | idempotent status =>
    obtain ⟨hw, env, c, row, hauth, hrow, ho, hh⟩ := hq
    rw [Local.view, hw] at hdb
    exact .idempotent hdb hauth.body hrow ho hh
  | reconciled summary =>
    obtain ⟨env, c, h⟩ := hq
    have hget := h.get_view s.db
    rw [← hdb] at hget
    have hrow : RowOf s'.db env { snapshotRow env c.id with status := .succeeded } :=
      ⟨by rw [hget, if_pos rfl], rfl, rfl, rfl, rfl⟩
    refine .reconciled h.auth h.absent h.ahead hrow fun id hid => ?_
    rw [hget, if_neg fun heq => hid heq.symm]

/-- Along a run snapshots stay, and who may send what is fixed. -/
theorem reach_grow (hr : Reach ingestSystem db₀ s) : SnapshotsGrow [] db₀ s.db := by
  induction hr with
  | init => exact SnapshotsGrow.refl _ _
  | step hr hs ih =>
    rcases hs.commit_or_same with ⟨t, a, rfl⟩ | ⟨-, hdb, -⟩
    · obtain ⟨x, -, hq, hdb, -⟩ := (hr.safe ingest_verified trivial).commit hs
      rw [hdb]
      exact ih.trans (ingestEnds_publishes _ _ _ _ hq [] (by simp))
    · rw [hdb]
      exact ih

theorem Commits.keep {r : SnapshotRequest} {db : Db} (h : Commits r db db' a) {id : String}
    (hrow : db.snapshots.get id = some row) : db'.snapshots.get id = some row := by
  cases h with
  | idempotent hdb _ _ _ _ => rw [hdb]; exact hrow
  | @reconciled summary s c row' hauth habsent _ _ hother =>
    rw [hother id]
    · exact hrow
    · rintro rfl
      rw [habsent] at hrow
      cases hrow

structure Logged (db₀ : Db) (s : State Db Write Lock Reply Accepted SnapshotRequest) : Prop where
  kept : ∀ id row, db₀.snapshots.get id = some row → s.db.snapshots.get id = some row
  rows : ∀ env ∈ reconciled s.log, db₀.snapshots.get env.snapshotID = none ∧ ∃ row, RowOf s.db env row
  above : ∀ env ∈ reconciled s.log, Ahead env db₀
  increasing : (reconciled s.log).Pairwise fun a b => a.organizationID = b.organizationID →
    a.connectorID = b.connectorID → a.sequence < b.sequence
  distinct : ((reconciled s.log).map (·.snapshotID)).Nodup

omit [Hashes] [Signatures] in
theorem reconciled_append (log : List (SnapshotRequest × Accepted)) (r : SnapshotRequest) (a : Accepted) :
    reconciled (log ++ [(r, a)]) = reconciled log ++ (reconciledSnapshot (r, a)).toList := by
  simp only [reconciled, List.filterMap_append]
  cases h : reconciledSnapshot (r, a) <;> simp [List.filterMap, h]

omit [Hashes] [Signatures] in
theorem Logged.same (h : Logged db₀ s) (hdb : s'.db = s.db)
    (hlog : reconciled s'.log = reconciled s.log) : Logged db₀ s' := by
  refine ⟨?_, ?_, ?_, ?_, ?_⟩
  · rw [hdb]
    exact h.kept
  · rw [hlog, hdb]
    exact h.rows
  · rw [hlog]
    exact h.above
  · rw [hlog]
    exact h.increasing
  · rw [hlog]
    exact h.distinct

omit [Hashes] [Signatures] in
theorem Logged.reconcile {env : SnapshotEnvelope} (h : Logged db₀ s) (hdb : s'.db = db')
    (hlog : reconciled s'.log = reconciled s.log ++ [env])
    (hkeep : ∀ id row, s.db.snapshots.get id = some row → db'.snapshots.get id = some row)
    (habsent : s.db.snapshots.get env.snapshotID = none) (hahead : Ahead env s.db) (hrow : RowOf db' env row) :
    Logged db₀ s' := by
  subst hdb
  have habsent₀ : db₀.snapshots.get env.snapshotID = none := by
    cases hget : db₀.snapshots.get env.snapshotID with
    | none => rfl
    | some x =>
      have := h.kept _ _ hget
      rw [habsent] at this
      cases this
  refine ⟨fun id x hx => hkeep id x (h.kept id x hx), ?_, ?_, ?_, ?_⟩
  · rw [hlog]
    intro e he
    rcases List.mem_append.mp he with he | he
    · obtain ⟨hnone, x, hx⟩ := h.rows e he
      exact ⟨hnone, x, { hx with get := hkeep _ _ hx.get }⟩
    · rw [List.mem_singleton.mp he]
      exact ⟨habsent₀, row, hrow⟩
  · rw [hlog]
    intro e he x hx ho hc
    rcases List.mem_append.mp he with he | he
    · exact h.above e he x hx ho hc
    · rw [List.mem_singleton.mp he] at ho hc ⊢
      exact hahead x (Table.mem_of_get (h.kept _ _ (Table.mem_iff_get.mp hx))) ho hc
  · rw [hlog, List.pairwise_append]
    refine ⟨h.increasing, List.pairwise_singleton _ _, ?_⟩
    intro a ha b hb ho hc
    rw [List.mem_singleton.mp hb] at ho hc ⊢
    obtain ⟨-, x, hx⟩ := h.rows a ha
    have := hahead x (Table.mem_of_get hx.get) (hx.organizationID.trans ho) (hx.connectorID.trans hc)
    rwa [hx.sequence] at this
  · rw [hlog, List.map_append, List.nodup_append]
    refine ⟨h.distinct, by simp, ?_⟩
    intro a ha b hb hab
    obtain ⟨e, he, rfl⟩ := List.mem_map.mp ha
    obtain ⟨-, x, hx⟩ := h.rows e he
    have heq : e.snapshotID = env.snapshotID := by simpa using hab.trans (by simpa using hb)
    rw [← heq, hx.get] at habsent
    cases habsent

theorem reach_logged (hr : Reach ingestSystem db₀ s) : Logged db₀ s := by
  induction hr with
  | init =>
    exact ⟨fun _ _ h => h, by rintro e ⟨⟩, by rintro e ⟨⟩, List.Pairwise.nil, List.nodup_nil⟩
  | @step s e s' hr hs ih =>
    rcases hs.commit_or_same with ⟨t, a, rfl⟩ | ⟨-, hdb, hlog⟩
    · obtain ⟨x, -, hc, hlog⟩ := commits hr hs
      have happ := reconciled_append s.log x.req a
      rw [← hlog] at happ
      have hkeep : ∀ id row, s.db.snapshots.get id = some row → s'.db.snapshots.get id = some row :=
        fun id row hrow => hc.keep hrow
      cases hc with
      | idempotent hdb _ _ _ _ =>
        refine ih.same hdb (happ.trans ?_)
        simp [reconciledSnapshot]
      | @reconciled summary env c row hauth habsent hahead hrow hother =>
        have hone : reconciledSnapshot (x.req, .reconciled summary) = some env := by
          simp [reconciledSnapshot, hauth.body]
        rw [hone] at happ
        exact ih.reconcile rfl happ hkeep habsent hahead hrow
    · exact ih.same hdb (by rw [hlog])

def Event.of {ε α ρ : Type} (e : Event ε α ρ) (t : ℕ) : Prop :=
  match e with
  | .begin u _ => u = t
  | .start u => u = t
  | .finish u => u = t
  | .fail u _ => u = t
  | .abort u => u = t
  | .commit u _ => u = t

/-- In every state that concurrent requests reach: per connector the sequences of
the snapshots strictly increase in commit order and are above those committed
before; an ID is reconciled once; a request for a committed ID with another
content hash changes nothing; and a step without a 2xx answer changes nothing,
where a request gets a 2xx answer exactly by committing. -/
theorem ingest_safety (db₀ : Db) (s : State Db Write Lock Reply Accepted SnapshotRequest)
    (hr : Reach ingestSystem db₀ s) : (∀ org connector,
      (((reconciled s.log).filter (·.of org connector)).map (·.sequence)).Pairwise (· < ·) ∧
      ∀ env ∈ reconciled s.log, env.of org connector → ∀ row ∈ db₀.snapshots, row.organizationID = org →
        row.connectorID = connector → row.sequence < env.sequence) ∧
    ((reconciled s.log).map (·.snapshotID)).Nodup ∧
    (∀ env ∈ reconciled s.log, db₀.snapshots.get env.snapshotID = none) ∧
    (∀ t x e s' env row, s.sessions t = some x → x.req.body = .envelope env →
      s.db.snapshots.get env.snapshotID = some row → row.contentHash ≠ env.contentHash →
      Event.of e t → Step ingestSystem s e s' → s'.db = s.db) ∧
    (∀ e s', Step ingestSystem s e s' →
      (∀ t status, answer e = some (t, status) → status < 200 ∨ 300 ≤ status) → s'.db = s.db) ∧
    (∀ t reply s', Step ingestSystem s (.fail t reply) s' → 400 ≤ reply.status) := by
  have hl := reach_logged hr
  refine ⟨fun org connector => ⟨?_, ?_⟩, hl.distinct, fun env he => (hl.rows env he).1, ?_, ?_, ?_⟩
  · rw [List.pairwise_map, List.pairwise_filter]
    refine hl.increasing.imp fun {a b} h ha hb => ?_
    simp only [SnapshotEnvelope.of, decide_eq_true_iff] at ha hb
    exact h (ha.1.trans hb.1.symm) (ha.2.trans hb.2.symm)
  · intro env he hof row hrow ho hc
    simp only [SnapshotEnvelope.of, decide_eq_true_iff] at hof
    exact hl.above env he row hrow (ho.trans hof.1.symm) (hc.trans hof.2.symm)
  · intro t x e s' env row hx hbody hrow hhash hof hs
    rcases hs.commit_or_same with ⟨u, a, rfl⟩ | ⟨-, hdb, -⟩
    · obtain ⟨x', hx', hc, -⟩ := commits hr hs
      obtain rfl : u = t := hof
      rw [hx] at hx'
      cases hx'
      cases hc with
      | idempotent hdb _ _ _ _ => exact hdb
      | reconciled hauth habsent _ _ _ =>
        have heq := hauth.body
        rw [hbody] at heq
        cases heq
        rw [habsent] at hrow
        cases hrow
    · exact hdb
  · intro e s' hs hno
    rcases hs.commit_or_same with ⟨t, a, rfl⟩ | ⟨-, hdb, -⟩
    · have := hno t 202 rfl
      omega
    · exact hdb
  · intro t reply s' hs
    obtain ⟨x, -, hfail⟩ := (hr.safe ingest_verified trivial).fail hs
    exact hfail.1

end

/-- A hash of the first bytes, so that of a long text not all is evaluated. -/
abbrev plainHashes : Hashes := ⟨fun bs => toyHash (bs.take 128), fun s => s.length⟩

abbrev plainSignatures : Signatures := ⟨fun _ _ => [], fun _ _ _ => true⟩

def enrolledDb : Db :=
  { emptyDb with
    collectors := Table.empty.put ⟨"collector", "org", [], none⟩
    credentials := Table.empty.put ⟨"credential", "org", "collector", @tokenHash plainHashes "secret", none, none⟩
    connectors := Table.empty.put ⟨"one", "org", some "collector", "DOCKER", true⟩ }

def signedSnapshot (id : String) (sequence : ℤ) : SnapshotEnvelope :=
  @signSnapshot plainHashes plainSignatures { snapshotOf id "one" [] [] with sequence := sequence } []

def requestOf (s : SnapshotEnvelope) : SnapshotRequest :=
  { authorization := "Bearer secret", requestID := "request", body := .envelope s, allowed := true
    databaseNow := 5000, agedAt := 5000, boundedAt := 5000, reconciledAt := 5000, appendedAt := 5000
    auditID := "audit-" ++ s.snapshotID, order := .plain }

def twoRequests : List SnapshotRequest := [requestOf (signedSnapshot "first" 7), requestOf (signedSnapshot "second" 8)]

def serialSequences (qs : List SnapshotRequest) : Option (List ℤ) :=
  (System.serial (@ingestSystem plainHashes plainSignatures) qs enrolledDb).map
    fun out => (reconciled out.2).map (·.sequence)

theorem serialSequences_two : serialSequences twoRequests = some [7, 8] := by decide +kernel

theorem ingest_safety_two : ∃ s : State Db Write Lock Reply Accepted SnapshotRequest,
    Reach (@ingestSystem plainHashes plainSignatures) enrolledDb s ∧
    (reconciled s.log).map (·.sequence) = [7, 8] ∧ ((reconciled s.log).map (·.snapshotID)).Nodup := by
  obtain ⟨out, hout, hseq⟩ := Option.map_eq_some_iff.mp serialSequences_two
  obtain ⟨s, hs, -, -, hlog⟩ := Reach.serial (fun _ _ => trivial) (fun _ _ _ _ _ => trivial)
    (show Reach _ enrolledDb (State.init enrolledDb) from .init) (fun _ => rfl) hout
  refine ⟨s, hs, ?_, (@ingest_safety plainHashes plainSignatures enrolledDb s hs).2.1⟩
  rw [hlog]
  exact hseq

end Infragraph
