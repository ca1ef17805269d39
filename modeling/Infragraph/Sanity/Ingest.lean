import Infragraph.Sanity.Issued

/-! `collectorSnapshot` among other requests. A session holding a connector's
lock counts on no new snapshot of that connector, one holding the entry of an ID
on no new snapshot with that ID; from its checks and these it ends either having
found its own ID and hash, or having staged the first row with its ID and the
highest sequence of its connector. -/

namespace Infragraph

open Relational ReadCommitted Prog

variable {db d d' : Db} {held : List Lock} {F : Db → Prop} {l : Local Db Write Lock} {rows : List SnapshotRow}

def Write.snapshotRow? : Write → Option SnapshotRow
  | .snapshot r => some r
  | _ => none

def staged (ws : List Write) : List SnapshotRow := ws.filterMap Write.snapshotRow?

theorem staged_append (ws ws' : List Write) : staged (ws ++ ws') = staged ws ++ staged ws' :=
  List.filterMap_append

theorem writeAll_snapshots (db : Db) (ws : List Write) :
    (writeAll db ws).snapshots = db.snapshots.putAll (staged ws) := by
  induction ws generalizing db with
  | nil => rfl
  | cons w ws ih =>
    rw [writeAll_cons, ih]
    cases w <;> rfl

theorem writeAll_bindings (db : Db) (ws : List Write) :
    (writeAll db ws).connectors = db.connectors ∧ (writeAll db ws).collectors = db.collectors ∧
      (writeAll db ws).credentials = db.credentials := by
  induction ws generalizing db with
  | nil => exact ⟨rfl, rfl, rfl⟩
  | cons w ws ih =>
    have := ih (Store.write db w)
    cases w <;> exact this

theorem staged_eq_nil {ws : List Write} (h : ∀ w ∈ ws, w.snapshotRow? = none) : staged ws = [] := by
  simpa [staged] using h

theorem mem_snapshotsOf {org connector : String} {row : SnapshotRow} : row ∈ db.snapshotsOf org connector ↔
      row ∈ db.snapshots ∧ row.organizationID = org ∧ row.connectorID = connector := by
  simp [Db.snapshotsOf, Table.mem_rows]

theorem le_foldl_max (ns : List ℤ) (m : ℤ) : m ≤ ns.foldl max m ∧ ∀ n ∈ ns, n ≤ ns.foldl max m := by
  induction ns generalizing m with
  | nil => simp
  | cons n ns ih =>
    obtain ⟨h1, h2⟩ := ih (max m n)
    refine ⟨(le_max_left m n).trans h1, fun k hk => ?_⟩
    rcases List.mem_cons.mp hk with rfl | hk
    · exact (le_max_right m k).trans h1
    · exact h2 k hk

theorem foldl_max_mem (ns : List ℤ) (m : ℤ) : ns.foldl max m ∈ m :: ns := by
  induction ns generalizing m with
  | nil => simp
  | cons n ns ih =>
    rw [List.foldl_cons]
    rcases List.mem_cons.mp (ih (max m n)) with h | h
    · rw [h]
      rcases max_choice m n with hm | hm <;> simp [hm]
    · exact .tail _ (.tail _ h)

theorem le_maxSequence {row : SnapshotRow} (h : row ∈ db.snapshots) :
    row.sequence ≤ db.maxSequence row.organizationID row.connectorID := by
  have hmem : row.sequence ∈ (db.snapshotsOf row.organizationID row.connectorID).map (·.sequence) :=
    List.mem_map.mpr ⟨row, mem_snapshotsOf.mpr ⟨h, rfl, rfl⟩, rfl⟩
  unfold Db.maxSequence
  split
  · rename_i hnil
    rw [hnil] at hmem
    cases hmem
  · rename_i n ns hcons
    rw [hcons] at hmem
    rcases List.mem_cons.mp hmem with heq | hin
    · exact heq ▸ (le_foldl_max ns n).1
    · exact (le_foldl_max ns n).2 _ hin

/-- A positive maximum is the sequence of a snapshot. -/
theorem maxSequence_attained {org connector : String} (h : 0 < db.maxSequence org connector) :
    ∃ row ∈ db.snapshots, row.organizationID = org ∧ row.connectorID = connector ∧
      row.sequence = db.maxSequence org connector := by
  have hmem : db.maxSequence org connector ∈ (db.snapshotsOf org connector).map (·.sequence) := by
    revert h
    unfold Db.maxSequence
    split
    · exact fun h => absurd h (lt_irrefl 0)
    · rename_i n ns hcons
      intro _
      rw [hcons]
      exact foldl_max_mem ns n
  obtain ⟨row, hrow, heq⟩ := List.mem_map.mp hmem
  obtain ⟨hin, ho, hc⟩ := mem_snapshotsOf.mp hrow
  exact ⟨row, hin, ho, hc, heq⟩

theorem sequence_pos {s : SnapshotEnvelope} (h : validSnapshotContract s = true) : 0 < s.sequence := by
  by_contra hneg
  have hlt : s.sequence < 1 := by omega
  simp [validSnapshotContract, hlt] at h

section

variable [Hashes]

def connectorLock (org connector : String) : Lock := .advisory (hashtextextended (org ++ "|" ++ connector))

/-- Committed snapshots stay; a new one is of a connector and an ID that nobody
else holds. -/
structure SnapshotsGrow (held : List Lock) (d d' : Db) : Prop where
  connectors : d'.connectors = d.connectors
  collectors : d'.collectors = d.collectors
  credentials : d'.credentials = d.credentials
  keep : ∀ id r, d.snapshots.get id = some r → d'.snapshots.get id = some r
  fresh : ∀ id r, d'.snapshots.get id = some r → d.snapshots.get id = none →
    connectorLock r.organizationID r.connectorID ∉ held ∧ Lock.entry .snapshots [id] ∉ held

theorem SnapshotsGrow.refl (held : List Lock) (d : Db) : SnapshotsGrow held d d :=
  ⟨rfl, rfl, rfl, fun _ _ h => h, fun _ _ h h' => absurd (h.symm.trans h') (by simp)⟩

theorem SnapshotsGrow.trans {d₁ d₂ d₃ : Db} (h : SnapshotsGrow held d₁ d₂)
    (h' : SnapshotsGrow held d₂ d₃) : SnapshotsGrow held d₁ d₃ := by
  refine ⟨h'.connectors.trans h.connectors, h'.collectors.trans h.collectors,
    h'.credentials.trans h.credentials, fun id r hr => h'.keep id r (h.keep id r hr), ?_⟩
  intro id r hr hnone
  cases hmid : d₂.snapshots.get id with
  | none => exact h'.fresh id r hr hmid
  | some r' =>
    have heq : r' = r := Option.some.inj ((h'.keep id r' hmid).symm.trans hr)
    exact h.fresh id r (heq ▸ hmid) hnone

def snapshotRely : Rely Db Lock where
  inv _ := True
  rel := SnapshotsGrow
  refl := SnapshotsGrow.refl
  trans := SnapshotsGrow.trans

section

variable (h : SnapshotsGrow held d d')
include h

theorem SnapshotsGrow.mem {r : SnapshotRow} (hr : r ∈ d.snapshots) : r ∈ d'.snapshots :=
  Table.mem_iff_get.mpr (h.keep r.id r (Table.mem_iff_get.mp hr))

theorem SnapshotsGrow.of_mem {r : SnapshotRow} (hr : r ∈ d'.snapshots) :
    r ∈ d.snapshots ∨ connectorLock r.organizationID r.connectorID ∉ held ∧
      Lock.entry .snapshots [r.id] ∉ held := by
  cases hold : d.snapshots.get r.id with
  | none => exact .inr (h.fresh r.id r (Table.mem_iff_get.mp hr) hold)
  | some r' =>
    have := h.keep r.id r' hold
    rw [Table.mem_iff_get.mp hr] at this
    cases this
    exact .inl (Table.mem_of_get hold)

theorem SnapshotsGrow.principal (hash : String) (now : Time) : d'.principal hash now = d.principal hash now := by
  unfold Db.principal
  rw [h.credentials, h.collectors]

end

variable {C : Schedule Db} {r : SnapshotRequest} {s : SnapshotEnvelope} {c : CollectorRow}

/-- What is known of a request once its own checks have passed. -/
structure Checked [Signatures] (r : SnapshotRequest) (s : SnapshotEnvelope) (c : CollectorRow) (d : Db) : Prop where
  body : r.body = .envelope s
  principal : r.principal d = some c
  collectorID : s.collectorID = c.id
  organizationID : s.organizationID = c.organizationID
  contract : validSnapshotContract s = true
  signature : verifySnapshot s c.publicKey = none

theorem Checked.grow [Signatures] (hg : SnapshotsGrow held d d') (h : Checked r s c d) : Checked r s c d' :=
  { h with principal := (hg.principal _ _).trans h.principal }

/-- And once its connector has accepted it. -/
structure Authorized [Signatures] (r : SnapshotRequest) (s : SnapshotEnvelope) (collector : CollectorRow)
    (d : Db) : Prop extends Checked r s collector d where
  connector : ∃ c, d.connectors.get s.connectorID = some c ∧ c.organizationID = s.organizationID ∧
    c.accepts collector.id s = true

theorem Authorized.grow [Signatures] (h : Authorized r s c d) (hg : SnapshotsGrow held d d') : Authorized r s c d' :=
  ⟨h.toChecked.grow hg, by rw [hg.connectors]; exact h.connector⟩

def Ahead (s : SnapshotEnvelope) (d : Db) : Prop :=
  ∀ row ∈ d.snapshots, row.organizationID = s.organizationID → row.connectorID = s.connectorID →
    row.sequence < s.sequence

theorem Ahead.grow (h : Ahead s d) (hl : connectorLock s.organizationID s.connectorID ∈ held)
    (hg : SnapshotsGrow held d d') : Ahead s d' := by
  intro row hrow ho hc
  rcases hg.of_mem hrow with hmem | ⟨hfree, -⟩
  · exact h row hmem ho hc
  · rw [ho, hc] at hfree
    exact absurd hl hfree

def Unwritten (F : Db → Prop) (d : Db) (l : Local Db Write Lock) : Prop := l.writes = [] ∧ F d

theorem Unwritten.stable
    (hF : ∀ held d d', SnapshotsGrow held d d' → F d → F d') : Stable snapshotRely (Unwritten F) :=
  fun d d' l _ _ hr h => ⟨h.1, hF l.held d d' hr h.2⟩

omit [Hashes] in
theorem Unwritten.view (h : Unwritten F d l) (d' : Db) : l.view d' = d' := by
  rw [Local.view, h.1, writeAll_nil]

theorem principal_grow (row : Option CollectorRow) (held : List Lock) (d d' : Db) (hg : SnapshotsGrow held d d')
    (h : r.principal d = row) : r.principal d' = row :=
  (hg.principal _ _).trans h

variable [Signatures]

/-- Inside the transaction, before the snapshot is staged. -/
structure Locked (r : SnapshotRequest) (s : SnapshotEnvelope) (c : CollectorRow) (F : Db → Prop) (d : Db)
    (l : Local Db Write Lock) : Prop where
  writes : l.writes = []
  auth : Authorized r s c d
  lock : connectorLock s.organizationID s.connectorID ∈ l.held
  fact : F d

theorem Locked.stable (hF : ∀ held d d', connectorLock s.organizationID s.connectorID ∈ held → SnapshotsGrow held d d' →
      F d → F d') : Stable snapshotRely (Locked r s c F) :=
  fun d d' l _ _ hr h => ⟨h.writes, h.auth.grow hr, h.lock, hF l.held d d' h.lock hr h.fact⟩

theorem Locked.view (h : Locked r s c F d l) (d' : Db) : l.view d' = d' := by
  rw [Local.view, h.writes, writeAll_nil]

/-- The snapshot is staged: its ID was free, its sequence is the highest, and
`rows` are the versions of its row so far. -/
structure Inserted (r : SnapshotRequest) (s : SnapshotEnvelope) (c : CollectorRow) (rows : List SnapshotRow) (d : Db)
    (l : Local Db Write Lock) : Prop where
  staged : staged l.writes = rows
  auth : Authorized r s c d
  lock : connectorLock s.organizationID s.connectorID ∈ l.held
  entry : Lock.entry .snapshots [s.snapshotID] ∈ l.held
  ahead : Ahead s d
  absent : d.snapshots.get s.snapshotID = none

theorem Inserted.stable : Stable snapshotRely (Inserted r s c rows) := by
  intro d d' l _ _ hr h
  refine ⟨h.staged, h.auth.grow hr, h.lock, h.entry, h.ahead.grow h.lock hr, ?_⟩
  cases hnew : d'.snapshots.get s.snapshotID with
  | none => rfl
  | some row => exact absurd h.entry (hr.fresh _ row hnew h.absent).2

theorem Inserted.extend {l' : Local Db Write Lock} {ws : List Write} (h : Inserted r s c rows d l)
    (hw : l'.writes = l.writes ++ ws) (hws : ∀ w ∈ ws, w.snapshotRow? = none)
    (hh : l.held ⊆ l'.held) : Inserted r s c rows d l' := by
  refine ⟨?_, h.auth, hh h.lock, hh h.entry, h.ahead, h.absent⟩
  rw [hw, staged_append, staged_eq_nil hws, List.append_nil, h.staged]

/-- An error answer; a replay is only answered when a snapshot of the connector
with at least that sequence is committed. -/
def ingestFails (r : SnapshotRequest) (e : Reply) (d : Db) (_ : Local Db Write Lock) : Prop :=
  400 ≤ e.status ∧ (e.code = "snapshot_replay" → ∃ s, r.body = .envelope s ∧ ∃ row ∈ d.snapshots,
    row.organizationID = s.organizationID ∧ row.connectorID = s.connectorID ∧ s.sequence ≤ row.sequence)

omit [Hashes] [Signatures] in
theorem fails_other {e : Reply} (hs : 400 ≤ e.status := by decide) (hc : e.code ≠ "snapshot_replay" := by decide) :
    ingestFails r e d l :=
  ⟨hs, fun h => absurd h hc⟩

/-- Where a request ends that is answered 202. -/
def ingestEnds (r : SnapshotRequest) : Accepted → Db → Local Db Write Lock → Prop
  | .idempotent _, d, l => l.writes = [] ∧ ∃ s c row, Authorized r s c d ∧
      d.snapshots.get s.snapshotID = some row ∧ row.organizationID = s.organizationID ∧
      row.contentHash = s.contentHash
  | .reconciled _, d, l => ∃ s c,
      Inserted r s c [snapshotRow s c.id, { snapshotRow s c.id with status := .succeeded }] d l

omit [Signatures] in
theorem triple_orReply {α : Type} {p : Tx α} {reply : Reply} {P : Db → Local Db Write Lock → Prop}
    {Q : α → Db → Local Db Write Lock → Prop} (h : Triple C snapshotRely (fun _ _ _ => True) P p Q)
    (hs : 400 ≤ reply.status := by decide) (hc : reply.code ≠ "snapshot_replay" := by decide) :
    Triple C snapshotRely (ingestFails r) P (orReply p reply) Q := by
  refine Triple.mapError fun d l hi hp => ?_
  exact (h d l hi hp).mono (fun _ _ _ _ hq => hq) fun _ _ _ _ => fails_other hs hc

omit [Signatures] in
theorem triple_check {p : Prop} [Decidable p] {e : Reply} (hF : ∀ held d d', SnapshotsGrow held d d' → F d → F d')
    (hs : 400 ≤ e.status := by decide) (hc : e.code ≠ "snapshot_replay" := by decide) :
    Triple C snapshotRely (ingestFails r) (Unwritten F) (failIf p e) fun _ => Unwritten fun d => ¬ p ∧ F d :=
  (Triple.failIf (Unwritten.stable hF) fun _ _ _ _ _ => fails_other hs hc).post
    fun _ _ _ _ h => ⟨h.2.1, h.1, h.2.2⟩

omit [Signatures] in
theorem triple_collectorPrincipal :
    Triple C snapshotRely (ingestFails r) (Unwritten fun _ => True) (collectorPrincipal r)
      fun c => Unwritten fun d => r.principal d = some c := by
  refine (triple_check (fun _ _ _ _ h => h)).bind fun _ => ?_
  refine Triple.bind (Q := fun row => Unwritten fun d => r.principal d = row) ?_ fun row => ?_
  · refine triple_orReply (Triple.select ?_ (fun row => ?_) ?_)
    · exact Unwritten.stable fun _ _ _ _ h => h
    · exact Unwritten.stable (principal_grow row)
    · intro d₁ d₂ l _ _ hr _ h₁ h₂
      refine ⟨h₂.1, ?_⟩
      rw [h₁.view]
      exact principal_grow _ _ _ _ hr rfl
  · cases row with
    | none => exact Triple.throw (Unwritten.stable (principal_grow none)) fun _ _ _ _ => fails_other
    | some c =>
      dsimp only
      split_ifs
      · exact Triple.throw (Unwritten.stable (principal_grow _)) fun _ _ _ _ => fails_other
      · exact Triple.ret (Unwritten.stable (principal_grow _)) fun _ _ _ h => h

theorem triple_checkSnapshot (hb : r.body = .envelope s) :
    Triple C snapshotRely (ingestFails r) (Unwritten fun d => r.principal d = some c) (checkSnapshot r s c)
      fun _ => Unwritten (Checked r s c) := by
  refine (triple_check (principal_grow _)).bind fun _ => ?_
  refine (triple_check (fun held d d' hg h => ⟨h.1, principal_grow _ held d d' hg h.2⟩)).bind fun _ => ?_
  refine (triple_check (fun held d d' hg h => ⟨h.1, h.2.1, principal_grow _ held d d' hg h.2.2⟩)).bind fun _ => ?_
  have hstable : Stable snapshotRely (Unwritten fun d => ¬ (24 * hour < r.agedAt - s.completedAt ∨
      r.boundedAt + 5 * minute < s.completedAt) ∧ ¬ (¬ validSnapshotContract s = true) ∧
      ¬ (s.collectorID ≠ c.id ∨ s.organizationID ≠ c.organizationID) ∧ r.principal d = some c) :=
    Unwritten.stable fun held d d' hg h => ⟨h.1, h.2.1, h.2.2.1, principal_grow _ held d d' hg h.2.2.2⟩
  split
  · refine Triple.throw hstable fun _ _ _ _ => fails_other (by simp) (by simp)
  · rename_i hv
    refine Triple.ret hstable fun d l _ h => ⟨h.1, ?_⟩
    obtain ⟨-, -, hcontract, hbind, hprincipal⟩ := h
    push Not at hcontract hbind
    exact ⟨hb, hprincipal, hbind.1, hbind.2, hcontract, hv⟩

/-- A program that writes no snapshot keeps what was staged. -/
theorem triple_keep {α : Type} {p : Tx α} {mine : Write → Prop} (hw : p.Writes mine)
    (hm : ∀ w, mine w → w.snapshotRow? = none) :
    Triple C snapshotRely (fun _ _ _ => True) (Inserted r s c rows) p fun _ => Inserted r s c rows := by
  refine Triple.frame hw Inserted.stable ?_ fun _ _ _ _ _ => trivial
  intro d l l' ws h hl hmine hheld
  exact h.extend hl (fun w hw => hm w (hmine w hw)) hheld

def Topmost (s : SnapshotEnvelope) (m : ℤ) (d : Db) : Prop :=
  (s.sequence > m → Ahead s d) ∧ (0 < m → ∃ row ∈ d.snapshots, row.organizationID = s.organizationID ∧
    row.connectorID = s.connectorID ∧ row.sequence = m)

omit [Signatures] in
theorem Topmost.grow {m : ℤ} (held : List Lock) (d d' : Db) (hl : connectorLock s.organizationID s.connectorID ∈ held)
    (hg : SnapshotsGrow held d d') (h : Topmost s m d) : Topmost s m d' := by
  refine ⟨fun hs => (h.1 hs).grow hl hg, fun hm => ?_⟩
  obtain ⟨row, hrow, hrest⟩ := h.2 hm
  exact ⟨row, hg.mem hrow, hrest⟩

theorem triple_selectMaxSequence : Triple C snapshotRely (fun _ _ _ => True) (Locked r s c fun _ => True)
      (exec (selectMaxSequence s.organizationID s.connectorID))
      fun m => Locked r s c (Topmost s m) := by
  refine Triple.select (Locked.stable fun _ _ _ _ _ h => h) (fun m => Locked.stable Topmost.grow) ?_
  intro d₁ d₂ l _ _ hr _ h₁ h₂
  refine ⟨h₂.writes, h₂.auth, h₂.lock, Topmost.grow l.held d₁ d₂ h₂.lock hr ⟨fun hs => ?_, fun hm => ?_⟩⟩
  · intro row hrow ho hc
    rw [h₁.view] at hs
    have := le_maxSequence hrow
    rw [ho, hc] at this
    omega
  · rw [h₁.view] at hm ⊢
    exact maxSequence_attained hm

theorem triple_insertSnapshot : Triple C snapshotRely (fun _ _ _ => True) (Locked r s c (Ahead s))
      (exec (insertSnapshot (snapshotRow s c.id))) fun _ => Inserted r s c [snapshotRow s c.id] := by
  refine Triple.exec (Locked.stable fun held d d' hl hg h => h.grow hl hg) (fun _ => Inserted.stable)
    (fun _ _ _ _ _ _ _ => trivial) ?_
  intro d₁ d₂ l u ws _ _ _ _ h₁ h₂ he
  simp only [insertSnapshot, Stmt.insert] at he
  split at he
  · cases he
  rename_i href
  cases he
  rw [h₂.view] at href
  refine ⟨?_, h₂.auth, List.mem_append_left _ h₂.lock, ?_, h₂.fact, ?_⟩
  · simp [Local.done, h₂.writes, staged, Write.snapshotRow?]
  · exact List.mem_append_right _ (by simp [insertSnapshot, Stmt.insert, snapshotRow])
  · by_contra hsome
    have : (d₂.snapshots.get (snapshotRow s c.id).id).isSome = true := by
      rw [Option.isSome_iff_ne_none]
      exact hsome
    rw [if_pos this] at href
    cases href

/-- The `UPDATE` finds the staged row. -/
theorem triple_markSucceeded : Triple C snapshotRely (fun _ _ _ => True) (Inserted r s c [snapshotRow s c.id])
      (exec (markSucceeded s.snapshotID s.organizationID)) fun _ =>
        Inserted r s c [snapshotRow s c.id, { snapshotRow s c.id with status := .succeeded }] := by
  refine Triple.exec Inserted.stable (fun _ => Inserted.stable) (fun _ _ _ _ _ _ _ => trivial) ?_
  intro d₁ d₂ l u ws _ _ _ _ h₁ h₂ he
  have hget : ∀ d, (l.view d).snapshots.get s.snapshotID = some (snapshotRow s c.id) := by
    intro d
    rw [Local.view, writeAll_snapshots, h₂.staged]
    exact Table.get_put_self _ (snapshotRow s c.id)
  have hrows := changed_by_key (l.view d₁).snapshots (l.view d₂).snapshots s.snapshotID
    (fun r => r.organizationID = s.organizationID) fun r => { r with status := SnapshotStatus.succeeded }
  simp only [markSucceeded, Stmt.update] at he
  rw [hrows, hget, hget] at he
  simp only [Option.filter, Option.any, snapshotRow, decide_true, Bool.and_true, if_true, Option.toList,
    List.map_cons, List.map_nil] at he
  cases he
  refine ⟨?_, h₂.auth, List.mem_append_left _ h₂.lock, List.mem_append_left _ h₂.entry, h₂.ahead, h₂.absent⟩
  rw [Local.done, staged_append, h₂.staged]
  rfl

theorem triple_stageSnapshot :
    Triple C snapshotRely (ingestFails r) (Locked r s c fun _ => True) (stageSnapshot r s c.id)
      (ingestEnds r) := by
  refine (triple_orReply triple_selectMaxSequence).bind fun m => ?_
  refine Triple.bind (Q := fun _ => Locked r s c (Ahead s)) ?_ fun _ => ?_
  · refine (Triple.failIf (Locked.stable Topmost.grow) ?_).post ?_
    · -- the contract makes the sequence positive, so the maximum belongs to a snapshot
      intro d l hle _ h
      have hpos := sequence_pos h.auth.contract
      obtain ⟨row, hrow, ho, hc, hseq⟩ := h.fact.2 (by omega)
      exact ⟨by decide, fun _ => ⟨s, h.auth.body, row, hrow, ho, hc, by omega⟩⟩
    · intro _ d l _ h
      exact ⟨h.2.writes, h.2.auth, h.2.lock, h.2.fact.1 (by omega)⟩
  refine (triple_orReply triple_insertSnapshot).bind fun _ => ?_
  have hselect : (exec (selectMissingThreshold s.organizationID s.connectorID)).Writes fun _ => False :=
    Writes.select
  refine (triple_orReply (triple_keep hselect fun _ h => h.elim)).bind
    fun threshold => ?_
  refine (triple_orReply (triple_keep (applyPostgres_writes _ _ _ _) ?_)).bind
    fun summary => ?_
  · intro w hw
    cases w <;> first | rfl | exact hw.elim
  refine (triple_orReply triple_markSucceeded).bind fun _ => ?_
  refine (triple_orReply (triple_keep (append_writes _ _) ?_)).bind fun _ => ?_
  · rintro w ⟨row, rfl⟩
    rfl
  exact Triple.ret Inserted.stable fun d l _ h => ⟨s, c, h⟩

theorem triple_ingestSnapshot :
    Triple C snapshotRely (ingestFails r) (Unwritten (Authorized r s c)) (ingestSnapshot r s c.id)
      (ingestEnds r) := by
  have hstable : ∀ (row : Option SnapshotRow) held d d', connectorLock s.organizationID s.connectorID ∈ held →
      SnapshotsGrow held d d' →
      (∀ x, row = some x → d.snapshots.get s.snapshotID = some x ∧ x.organizationID = s.organizationID) →
      ∀ x, row = some x → d'.snapshots.get s.snapshotID = some x ∧ x.organizationID = s.organizationID :=
    fun row held d d' _ hg h x hx => ⟨hg.keep _ _ (h x hx).1, (h x hx).2⟩
  refine Triple.bind (Q := fun _ => Locked r s c fun _ => True) ?_ fun _ => ?_
  · refine triple_orReply (Triple.exec (Unwritten.stable fun _ _ _ hg h => h.grow hg)
      (fun _ => Locked.stable fun _ _ _ _ _ h => h) (fun _ _ _ _ _ _ _ => trivial) ?_)
    rintro d₁ d₂ l u ws - - - - h₁ h₂ ⟨⟩
    exact ⟨by simp [Local.done, h₂.1], h₂.2, List.mem_append_right _ (List.mem_singleton.mpr rfl), trivial⟩
  refine Triple.bind (Q := fun row => Locked r s c fun d => ∀ x, row = some x →
    d.snapshots.get s.snapshotID = some x ∧ x.organizationID = s.organizationID) ?_ fun row => ?_
  · refine triple_orReply (Triple.select (Locked.stable fun _ _ _ _ _ h => h)
      (fun row => Locked.stable (hstable row)) ?_)
    intro d₁ d₂ l _ _ hr _ h₁ h₂
    refine ⟨h₂.writes, h₂.auth, h₂.lock, hstable _ l.held d₁ d₂ h₂.lock hr ?_⟩
    intro x hx
    rw [h₁.view, Option.filter_eq_some_iff] at hx
    exact ⟨hx.1, of_decide_eq_true hx.2⟩
  cases row with
  | none => exact triple_stageSnapshot.pre fun d l _ h => ⟨h.writes, h.auth, h.lock, trivial⟩
  | some row =>
    dsimp only
    split_ifs with hhash
    · exact Triple.throw (Locked.stable (hstable _)) fun _ _ _ _ => fails_other
    · refine Triple.ret (Locked.stable (hstable _)) fun d l _ h => ?_
      obtain ⟨hget, horg⟩ := h.fact row rfl
      push Not at hhash
      exact ⟨h.writes, s, c, row, h.auth, hget, horg, hhash⟩

/-- The handler ends as `ingestEnds` says or fails as `ingestFails` says. -/
theorem triple_collectorSnapshot :
    Triple C snapshotRely (ingestFails r) (Unwritten fun _ => True) (collectorSnapshot r) (ingestEnds r) := by
  refine triple_collectorPrincipal.bind fun c => ?_
  refine (triple_check (principal_grow _)).bind fun _ => ?_
  refine Triple.bind (Q := fun s => Unwritten fun d => r.body = .envelope s ∧ r.principal d = some c) ?_
    fun s => ?_
  · have hstable : Stable snapshotRely (Unwritten fun d => ¬ ¬ r.allowed = true ∧ r.principal d = some c) :=
      Unwritten.stable fun held d d' hg h => ⟨h.1, principal_grow _ held d d' hg h.2⟩
    cases hb : r.body with
    | tooLarge | malformed | trailing => exact Triple.throw hstable fun _ _ _ _ => fails_other
    | envelope s => exact Triple.ret hstable fun d l _ h => ⟨h.1, rfl, h.2.2⟩
  intro d l hi hp
  have hb : r.body = .envelope s := hp.2.1
  refine Triple.bind (triple_checkSnapshot hb) (fun _ => ?_) d l hi ⟨hp.1, hp.2.2⟩
  refine Triple.bind (Q := fun row => Unwritten fun d => Checked r s c d ∧ (d.connectors.get s.connectorID).filter
    (fun x => x.organizationID = s.organizationID) = row) ?_ fun row => ?_
  · refine triple_orReply (Triple.select (Unwritten.stable fun _ _ _ hg h => h.grow hg)
      (fun row => Unwritten.stable fun _ _ _ hg h => ⟨h.1.grow hg, by rw [hg.connectors]; exact h.2⟩) ?_)
    intro d₁ d₂ l _ _ hr _ h₁ h₂
    exact ⟨h₂.1, h₂.2, by rw [h₁.view, hr.connectors]⟩
  refine Triple.bind (triple_check (fun _ _ _ hg h => ⟨h.1.grow hg, by rw [hg.connectors]; exact h.2⟩)) fun _ => ?_
  refine triple_ingestSnapshot.pre fun d l _ h => ⟨h.1, ?_⟩
  obtain ⟨-, haccepts, hchecked, hrow⟩ := h
  cases row with
  | none => simp at haccepts
  | some x =>
    rw [Option.filter_eq_some_iff] at hrow
    exact ⟨hchecked, x, hrow.1, of_decide_eq_true hrow.2, by simpa using haccepts⟩

/-- What a staged snapshot publishes: its row, as succeeded. -/
theorem Inserted.get_view
    (h : Inserted r s c [snapshotRow s c.id, { snapshotRow s c.id with status := .succeeded }] d l) (d' : Db)
    (id : String) : (l.view d').snapshots.get id =
      if s.snapshotID = id then some { snapshotRow s c.id with status := .succeeded }
      else d'.snapshots.get id := by
  rw [Local.view, writeAll_snapshots, h.staged, Table.putAll_cons, Table.putAll_cons, Table.putAll_nil,
    Table.get_put, Table.get_put]
  by_cases hid : s.snapshotID = id
  · simp [snapshotRow, hid]
  · simp [snapshotRow, hid]

theorem ingestEnds_publishes (r : SnapshotRequest) (a : Accepted) (d : Db) (l : Local Db Write Lock)
    (h : ingestEnds r a d l) (held : List Lock) (hfree : ∀ lk ∈ l.held, lk ∉ held) :
    SnapshotsGrow held d (l.view d) := by
  cases a with
  | idempotent status =>
    rw [Local.view, h.1]
    exact SnapshotsGrow.refl held d
  | reconciled summary =>
    obtain ⟨s, c, h⟩ := h
    obtain ⟨hconn, hcoll, hcred⟩ := writeAll_bindings d l.writes
    refine ⟨hconn, hcoll, hcred, fun id row hrow => ?_, fun id row hrow hnone => ?_⟩
    · rw [h.get_view, if_neg]
      · exact hrow
      · rintro rfl
        rw [h.absent] at hrow
        cases hrow
    · rw [h.get_view] at hrow
      split_ifs at hrow with hid
      · cases hrow
        subst hid
        exact ⟨hfree _ h.lock, hfree _ h.entry⟩
      · rw [hnone] at hrow
        cases hrow

end

/-- The snapshot is outside the replay window when the request is handled. -/
def SnapshotRequest.OutsideWindow (r : SnapshotRequest) (s : SnapshotEnvelope) : Prop :=
  24 * hour < r.agedAt - s.completedAt ∨ r.boundedAt + 5 * minute < s.completedAt

/-- Every refusal has a status other than 202, and only a snapshot outside the
replay window is refused for its timestamp. -/
theorem collectorSnapshot_raises [Hashes] [Signatures] {r : SnapshotRequest} {P : Reply → Prop}
    (hother : ∀ reply : Reply, reply.status ≠ 202 ∧ reply.code ≠ "snapshot_timestamp_invalid" → P reply)
    (hwindow : ∀ s, r.body = .envelope s → r.OutsideWindow s →
      P ⟨409, "snapshot_timestamp_invalid", "snapshot timestamp outside replay window"⟩) :
    (collectorSnapshot r).Raises P := by
  have hreply {α : Type} (p : Tx α) {reply : Reply} (h : reply.status ≠ 202 ∧
      reply.code ≠ "snapshot_timestamp_invalid" := by decide) : (orReply p reply).Raises P :=
    Raises.mapError (fun _ => hother _ h) p
  have hfail {c : Prop} [Decidable c] {reply : Reply} (h : reply.status ≠ 202 ∧
      reply.code ≠ "snapshot_timestamp_invalid" := by decide) : (failIf c reply : Handler Unit).Raises P :=
    Raises.failIf fun _ => hother _ h
  have hthrow {α : Type} {reply : Reply} (h : reply.status ≠ 202 ∧
      reply.code ≠ "snapshot_timestamp_invalid" := by decide) : (throw reply : Handler α).Raises P :=
    Raises.throw (hother _ h)
  refine Raises.bind ?_ fun c => ?_
  · refine Raises.bind hfail fun _ => ?_
    refine (hreply _).bind fun row => ?_
    cases row with
    | none => exact hthrow
    | some c =>
      dsimp only
      split_ifs
      · exact hthrow
      · exact Raises.ret c
  refine Raises.bind hfail fun _ => ?_
  cases hbody : r.body with
  | tooLarge | malformed | trailing => exact hthrow
  | envelope s =>
    rw [decode, ret_bind]
    refine Raises.bind ?_ fun _ => ?_
    · refine Raises.bind hfail fun _ => ?_
      refine Raises.bind hfail fun _ => ?_
      refine Raises.bind (Raises.failIf fun hout => hwindow s hbody hout) fun _ => ?_
      split
      · exact hthrow (by simp)
      · exact Raises.ret ()
    refine (hreply _).bind fun connector => ?_
    refine Raises.bind hfail fun _ => ?_
    refine (hreply _).bind fun _ => ?_
    refine (hreply _).bind fun existing => ?_
    cases existing with
    | some row =>
      dsimp only
      split_ifs
      · exact hthrow
      · exact Raises.ret _
    | none =>
      refine (hreply _).bind fun _ => ?_
      refine Raises.bind hfail fun _ => ?_
      refine (hreply _).bind fun _ => ?_
      refine (hreply _).bind fun _ => ?_
      refine (hreply _).bind fun _ => ?_
      refine (hreply _).bind fun _ => ?_
      exact (hreply _).bind fun _ => Raises.ret _

/-- A snapshot that passes the checks before the window is refused for its timestamp. -/
theorem run_collectorSnapshot_outside [Hashes] [Signatures] {r : SnapshotRequest} {s : SnapshotEnvelope}
    {c : CollectorRow} (hbearer : bearer r.authorization ≠ "") (hprincipal : r.principal d = some c)
    (hlive : c.revokedAt = none) (hallowed : r.allowed = true) (hbody : r.body = .envelope s)
    (hbound : s.collectorID = c.id ∧ s.organizationID = c.organizationID) (hvalid : validSnapshotContract s = true)
    (hout : r.OutsideWindow s) : (collectorSnapshot r).run d =
      .error ⟨409, "snapshot_timestamp_invalid", "snapshot timestamp outside replay window"⟩ := by
  have hcollector : (collectorPrincipal r).run d = .ok (c, d) := by
    have hrow : (orReply (exec (selectPrincipal (tokenHash (bearer r.authorization)) r.databaseNow))
        ⟨401, "collector_unauthorized", "collector credential invalid or revoked"⟩).run d = .ok (some c, d) := by
      rw [← hprincipal]
      rfl
    unfold collectorPrincipal
    dsimp only
    rw [failIf_neg hbearer, ret_bind, run_bind_of_ok hrow]
    simp [hlive]
  unfold collectorSnapshot
  rw [run_bind_of_ok hcollector, failIf_neg (by simp [hallowed]), ret_bind, hbody, decode, ret_bind]
  apply run_bind_error
  unfold checkSnapshot
  unfold SnapshotRequest.OutsideWindow at hout
  rw [failIf_neg (by simp [hbound]), failIf_neg (by simp [hvalid]), failIf_pos hout]
  rfl

end Infragraph
