import Infragraph.Proofs.Ingest
import Infragraph.Sanity.Collector

/-! Delivery from one collector to the control plane, through crashes, lost
requests and lost answers. The collector posts a snapshot only when every
earlier one it queued is committed, and removes a file only on a 2xx answer. -/

namespace Infragraph

open Relational ReadCommitted

variable {id : Identity} {s : SnapshotEnvelope} {w w' : World} {phase : Phase}
  {e : Event Reply Accepted SnapshotRequest} {t : ℕ}
  {x : Session Db Write Lock Reply Accepted SnapshotRequest}
  {server' : State Db Write Lock Reply Accepted SnapshotRequest}

def Committed (db : Db) (s : SnapshotEnvelope) : Prop :=
  ∃ row, db.snapshots.get s.snapshotID = some row ∧ row.organizationID = s.organizationID ∧
    row.contentHash = s.contentHash

def Keeps (db db' : Db) : Prop := ∀ id row, db.snapshots.get id = some row → db'.snapshots.get id = some row

theorem Committed.mono {db db' : Db} (hk : Keeps db db') (h : Committed db s) : Committed db' s := by
  obtain ⟨row, hrow, hrest⟩ := h
  exact ⟨row, hk _ _ hrow, hrest⟩

/-- The connector is bound to the collector and has no snapshot yet. -/
structure Deployed (db : Db) (id : Identity) : Prop where
  connector : ∃ c, db.connectors.get id.connectorID = some c ∧ c.collectorID = some id.collectorID
  fresh : ∀ row ∈ db.snapshots, row.organizationID = id.organizationID → row.connectorID ≠ id.connectorID

def World.top (w : World) : ℤ := previousSequence w.disk.sequence

/-- A snapshot as the collector with this identity numbers it. -/
structure Numbered (id : Identity) (s : SnapshotEnvelope) : Prop where
  pos : 0 < s.sequence
  bound : s.sequence < sequenceBound
  organizationID : s.organizationID = id.organizationID
  connectorID : s.connectorID = id.connectorID

/-- The rest of a listing: in order, and with every queued snapshot that is not
committed yet. -/
structure Listing (db : Db) (queued : List SnapshotEnvelope) (entries : List String)
    (posted : SnapshotEnvelope → Prop) : Prop where
  sorted : entries.Pairwise (· < ·)
  json : ∀ n ∈ entries, isJson n = true
  covers : ∀ q ∈ queued, Committed db q ∨ posted q ∨ spoolName q ∈ entries

def PhaseOk (id : Identity) (w : World) : Phase → Prop
  | .flush _ => True
  | .posting _ entries => Listing w.server.db w.queued entries fun _ => False
  | .waiting _ s name rest => s ∈ w.queued ∧ name = spoolName s ∧ Listing w.server.db w.queued rest (· = s)
  | .removing _ s name rest =>
    s ∈ w.queued ∧ name = spoolName s ∧ Listing w.server.db w.queued rest (· = s) ∧ Committed w.server.db s
  | .discovering => True
  | .numbering n => w.top < n ∧ n < sequenceBound ∧ w.disk.sequencePending = some (toString n)
  | .building n => w.top = n ∧ 0 < n ∧ n < sequenceBound ∧ ∀ s ∈ w.queued, s.sequence < n
  | .queueing s => Numbered id s ∧ s.sequence ≤ w.top ∧ ∀ q ∈ w.queued, q.sequence < s.sequence

structure Spooled (id : Identity) (w : World) : Prop where
  file : w.disk.sequence = none ∨ ∃ n, 0 < n ∧ n < sequenceBound ∧ w.disk.sequence = some (toString n)
  top : ∀ s ∈ w.queued, s.sequence ≤ w.top
  increasing : w.queued.Pairwise fun a b => a.sequence < b.sequence
  numbered : ∀ s ∈ w.queued, Numbered id s
  json : ∀ f ∈ w.disk.spool, isJson f.name = true → ∃ s ∈ w.queued, f.body = some s ∧ f.name = spoolName s
  kept : ∀ s ∈ w.queued, (∃ f, w.disk.spool.get (spoolName s) = some f ∧ f.body = some s) ∨
    Committed w.server.db s
  sent : ∀ s ∈ w.sent, s ∈ w.queued ∧ ∀ q ∈ w.queued, q.sequence < s.sequence → Committed w.server.db q
  phase : PhaseOk id w w.phase

theorem Spooled.top_bound (h : Spooled id w) : 0 ≤ w.top ∧ w.top < sequenceBound := by
  unfold World.top
  rcases h.file with hf | ⟨n, h0, hn, hf⟩
  · rw [hf]
    exact ⟨le_rfl, by decide⟩
  · unfold sequenceBound at hn ⊢
    rw [hf, previousSequence_toString (by omega) (by omega)]
    omega

theorem Numbered.lt_width (h : Numbered id s) : s.sequence < 10 ^ 20 := by
  have := h.bound
  unfold sequenceBound at this
  omega

/-- A queued snapshot is known by its sequence, and so by its name. -/
theorem Spooled.eq_of_sequence (h : Spooled id w) {t : SnapshotEnvelope} (hs : s ∈ w.queued) (ht : t ∈ w.queued)
    (heq : s.sequence = t.sequence) : s = t := by
  have hnodup : (w.queued.map (·.sequence)).Nodup := by
    rw [List.nodup_iff_pairwise_ne, List.pairwise_map]
    exact h.increasing.imp ne_of_lt
  exact List.inj_on_of_nodup_map hnodup hs ht heq

theorem Spooled.eq_of_name (h : Spooled id w) {t : SnapshotEnvelope} (hs : s ∈ w.queued) (ht : t ∈ w.queued)
    (heq : spoolName s = spoolName t) : s = t := by
  apply h.eq_of_sequence hs ht
  have hns := h.numbered s hs
  have hnt := h.numbered t ht
  rcases lt_trichotomy s.sequence t.sequence with hlt | hlt | hlt
  · exact absurd (heq ▸ spoolName_lt hns.pos.le hlt hnt.lt_width) (lt_irrefl _)
  · exact hlt
  · exact absurd (heq ▸ spoolName_lt hnt.pos.le hlt hns.lt_width) (lt_irrefl _)

theorem Listing.mono {db db' : Db} {queued : List SnapshotEnvelope} {entries : List String}
    {posted : SnapshotEnvelope → Prop} (hk : Keeps db db') (h : Listing db queued entries posted) :
    Listing db' queued entries posted :=
  ⟨h.sorted, h.json, fun q hq => (h.covers q hq).imp_left (Committed.mono hk)⟩

section

variable {answers : List (SnapshotEnvelope × ℕ)}

theorem PhaseOk.mono (hk : Keeps w.server.db server'.db) (h : PhaseOk id w phase) :
    PhaseOk id { w with server := server', answers := answers } phase := by
  cases phase with
  | posting again entries => exact Listing.mono hk h
  | waiting again s name rest => exact ⟨h.1, h.2.1, h.2.2.mono hk⟩
  | removing again s name rest => exact ⟨h.1, h.2.1, h.2.2.1.mono hk, h.2.2.2.mono hk⟩
  | _ => exact h

/-- The collector's part does not depend on the server but through commits. -/
theorem Spooled.mono (h : Spooled id w) (hk : Keeps w.server.db server'.db) :
    Spooled id { w with server := server', answers := answers } :=
  ⟨h.file, h.top, h.increasing, h.numbered, h.json, fun s hs => (h.kept s hs).imp_right (Committed.mono hk),
    fun s hs => ⟨(h.sent s hs).1, fun q hq hlt => ((h.sent s hs).2 q hq hlt).mono hk⟩, h.phase.mono hk⟩

end

section

variable (h : Spooled id w)
include h

theorem Spooled.goto (hp : PhaseOk id { w with phase := phase } phase) : Spooled id { w with phase := phase } :=
  ⟨h.file, h.top, h.increasing, h.numbered, h.json, h.kept, h.sent, hp⟩

theorem Spooled.listing : Listing w.server.db w.queued w.disk.listed fun _ => False := by
  refine ⟨listed_sorted _, fun n hn => (mem_listed.mp hn).2, fun q hq => ?_⟩
  rcases h.kept q hq with ⟨f, hf, -⟩ | hc
  · exact .inr (.inr (mem_listed.mpr ⟨⟨f, Table.mem_of_get hf, Table.key_of_get hf⟩, isJson_spoolName q⟩))
  · exact .inl hc

/-- When a snapshot is posted, every earlier one is committed. -/
theorem Spooled.post {name : String} {rest : List String} {f : SpoolFile}
    (hl : Listing w.server.db w.queued (name :: rest) fun _ => False) (hf : w.disk.spool.get name = some f)
    (hb : f.body = some s) : s ∈ w.queued ∧ name = spoolName s ∧ Listing w.server.db w.queued rest (· = s) ∧
      ∀ q ∈ w.queued, q.sequence < s.sequence → Committed w.server.db q := by
  have hname : f.name = name := Table.key_of_get hf
  obtain ⟨s', hs', hb', hn'⟩ := h.json f (Table.mem_of_get hf) (hname ▸ hl.json name (.head _))
  rw [hb] at hb'
  cases hb'
  have hn : name = spoolName s := hname.symm.trans hn'
  have hsorted := List.pairwise_cons.mp hl.sorted
  refine ⟨hs', hn, ⟨hsorted.2, fun n hin => hl.json n (.tail _ hin), fun q hq => ?_⟩, ?_⟩
  · rcases hl.covers q hq with hc | hfalse | hin
    · exact .inl hc
    · exact hfalse.elim
    · rcases List.mem_cons.mp hin with heq | hin
      · exact .inr (.inl (h.eq_of_name hq hs' (heq.trans hn)))
      · exact .inr (.inr hin)
  · intro q hq hlt
    rcases hl.covers q hq with hc | hfalse | hin
    · exact hc
    · exact hfalse.elim
    · -- the name of `q` comes before the head of the sorted listing
      have hbefore := spoolName_lt (h.numbered q hq).pos.le hlt (h.numbered s hs').lt_width
      rcases List.mem_cons.mp hin with heq | hin
      · exact absurd (hn ▸ heq ▸ hbefore) (lt_irrefl _)
      · exact absurd (hbefore.trans (hn ▸ hsorted.1 _ hin)) (lt_irrefl _)

/-- A change of the spool that leaves the files of uncommitted snapshots. -/
theorem Spooled.respool {spool : Table SpoolFile.name} (hsub : ∀ f ∈ spool, isJson f.name = true → f ∈ w.disk.spool)
    (hget : ∀ s ∈ w.queued, spool.get (spoolName s) = w.disk.spool.get (spoolName s) ∨
      Committed w.server.db s)
    (hp : PhaseOk id { w with phase := phase, disk := { w.disk with spool := spool } } phase) :
    Spooled id { w with phase := phase, disk := { w.disk with spool := spool } } := by
  refine ⟨h.file, h.top, h.increasing, h.numbered, fun f hf hj => h.json f (hsub f hf hj) hj, ?_, h.sent, hp⟩
  intro s hs
  rcases hget s hs with heq | hc
  · rw [heq]
    exact h.kept s hs
  · exact .inr hc

theorem Spooled.put_pending {f : SpoolFile} (hf : f.name = pendingName s)
    (hp : PhaseOk id { w with phase := phase, disk := { w.disk with spool := w.disk.spool.put f } } phase) :
    Spooled id { w with phase := phase, disk := { w.disk with spool := w.disk.spool.put f } } := by
  apply h.respool _ _ hp
  · intro g hg hj
    rcases Table.mem_put.mp hg with rfl | hg
    · rw [hf, isJson_pendingName] at hj
      cases hj
    · exact hg.1
  · intro q _
    exact .inl (Table.get_put_of_ne _ (hf ▸ spoolName_ne_pendingName s q))

theorem Spooled.erase_pending (hp : PhaseOk id { w with
      phase := phase, disk := { w.disk with spool := w.disk.spool.erase (pendingName s) } } phase) :
    Spooled id { w with
      phase := phase, disk := { w.disk with spool := w.disk.spool.erase (pendingName s) } } := by
  apply h.respool _ _ hp
  · exact fun f hf _ => (Table.mem_erase.mp hf).1
  · exact fun q _ => .inl (Table.get_erase_of_ne _ (spoolName_ne_pendingName s q))

theorem Spooled.erase {again : Bool} {rest : List String} (hs : s ∈ w.queued)
    (hl : Listing w.server.db w.queued rest (· = s)) (hc : Committed w.server.db s) :
    Spooled id { w with phase := .posting again rest
                        disk := { w.disk with spool := w.disk.spool.erase (spoolName s) } } := by
  apply h.respool
  · exact fun f hf _ => (Table.mem_erase.mp hf).1
  · intro q hq
    by_cases heq : spoolName s = spoolName q
    · exact .inr (h.eq_of_name hs hq heq ▸ hc)
    · exact .inl (Table.get_erase_of_ne _ heq)
  · refine ⟨hl.sorted, hl.json, fun q hq => ?_⟩
    rcases hl.covers q hq with hcq | rfl | hin
    · exact .inl hcq
    · exact .inl hc
    · exact .inr (.inr hin)

/-- A number is taken: the file holds it, and it is above every queued one. -/
theorem Spooled.renumber {n : ℤ} (htop : w.top < n) (hn : n < sequenceBound)
    (hpending : w.disk.sequencePending = some (toString n)) : Spooled id { w with
      phase := .building n
      disk := { w.disk with sequence := w.disk.sequencePending, sequencePending := none } } := by
  have h0 := h.top_bound.1
  have hnew : previousSequence w.disk.sequencePending = n := by
    unfold sequenceBound at hn
    rw [hpending, previousSequence_toString (by omega) (by omega)]
  have hlt : ∀ s ∈ w.queued, s.sequence < n := fun s hs => lt_of_le_of_lt (h.top s hs) htop
  refine ⟨.inr ⟨n, by omega, hn, hpending⟩, fun s hs => ?_, h.increasing, h.numbered, h.json, h.kept, h.sent,
    hnew, by omega, hn, hlt⟩
  show s.sequence ≤ previousSequence w.disk.sequencePending
  rw [hnew]
  exact (hlt s hs).le

theorem Spooled.queue {now : Time} (hs : Numbered id s) (htop : s.sequence ≤ w.top)
    (hlt : ∀ q ∈ w.queued, q.sequence < s.sequence) : Spooled id { w with
      phase := .flush true
      queued := w.queued ++ [s]
      disk := { w.disk with
        spool := (w.disk.spool.erase (pendingName s)).put (spoolFile (spoolName s) s now) } } := by
  have hnew : ∀ q ∈ w.queued, spoolName s ≠ spoolName q := fun q hq heq =>
    absurd (heq ▸ spoolName_lt (h.numbered q hq).pos.le (hlt q hq) hs.lt_width) (lt_irrefl _)
  refine ⟨h.file, ?_, ?_, ?_, ?_, ?_, ?_, trivial⟩
  · exact List.forall_mem_append.mpr ⟨h.top, List.forall_mem_singleton.mpr htop⟩
  · rw [List.pairwise_append]
    exact ⟨h.increasing, List.pairwise_singleton _ _, fun a ha => List.forall_mem_singleton.mpr (hlt a ha)⟩
  · exact List.forall_mem_append.mpr ⟨h.numbered, List.forall_mem_singleton.mpr hs⟩
  · intro f hf hj
    rcases Table.mem_put.mp hf with rfl | ⟨hf, -⟩
    · exact ⟨s, List.mem_append_right _ (List.mem_singleton.mpr rfl), rfl, rfl⟩
    · obtain ⟨q, hq, hrest⟩ := h.json f (Table.mem_erase.mp hf).1 hj
      exact ⟨q, List.mem_append_left _ hq, hrest⟩
  · refine List.forall_mem_append.mpr ⟨fun q hq => ?_, List.forall_mem_singleton.mpr ?_⟩
    · refine (h.kept q hq).imp_left fun hfile => ?_
      obtain ⟨f, hf, hb⟩ := hfile
      refine ⟨f, ?_, hb⟩
      rw [Table.get_put_of_ne _ (show (spoolFile (spoolName s) s now).name ≠ _ from hnew q hq),
        Table.get_erase_of_ne _ (spoolName_ne_pendingName s q)]
      exact hf
    · exact .inl ⟨_, Table.get_put_self _ (spoolFile (spoolName s) s now), rfl⟩
  · refine fun t ht => ⟨List.mem_append_left _ (h.sent t ht).1, ?_⟩
    refine List.forall_mem_append.mpr ⟨(h.sent t ht).2, List.forall_mem_singleton.mpr fun hst => ?_⟩
    exact absurd (hst.trans (hlt t (h.sent t ht).1)) (lt_irrefl _)

end

section

variable [Hashes] [Signatures] {db₀ : Db}

/-- The sessions, rows and answers that concern the collector come from what it
sent. -/
structure Served (db₀ : Db) (id : Identity) (w : World) : Prop where
  reach : Reach ingestSystem db₀ w.server
  ours : ∀ t x, w.server.sessions t = some x → x.req.isFrom id → ∃ s ∈ w.sent, x.req.body = .envelope s
  others : ∀ t x c, w.server.sessions t = some x → ¬ x.req.isFrom id → x.req.principal db₀ = some c →
    c.id ≠ id.collectorID
  rows : ∀ row ∈ w.server.db.snapshots, row.organizationID = id.organizationID →
    row.connectorID = id.connectorID → ∃ s ∈ w.sent, RowOf w.server.db s row
  answers : ∀ a ∈ w.answers, 200 ≤ a.2 → a.2 < 300 → Committed w.server.db a.1
  log : ∀ s ∈ reconciled w.server.log, s.of id.organizationID id.connectorID → s ∈ w.sent

theorem Served.collector (h : Served db₀ id w) (hsent : w.sent ⊆ w'.sent := by exact List.Subset.refl _)
    (hserver : w'.server = w.server := by rfl) (hanswers : w'.answers = w.answers := by rfl) : Served db₀ id w' := by
  refine ⟨hserver ▸ h.reach, ?_, ?_, ?_, ?_, ?_⟩
  · rw [hserver]
    intro t x hx hfrom
    obtain ⟨s, hs, hb⟩ := h.ours t x hx hfrom
    exact ⟨s, hsent hs, hb⟩
  · rw [hserver]
    exact h.others
  · rw [hserver]
    intro row hrow ho hc
    obtain ⟨s, hs, hr⟩ := h.rows row hrow ho hc
    exact ⟨s, hsent hs, hr⟩
  · rw [hserver, hanswers]
    exact h.answers
  · rw [hserver]
    exact fun s hs hof => hsent (h.log s hs hof)

theorem step_keeps {s s' : State Db Write Lock Reply Accepted SnapshotRequest} (hr : Reach ingestSystem db₀ s)
    (hs : Step ingestSystem s e s') : Keeps s.db s'.db := by
  rcases hs.commit_or_same with ⟨t, a, rfl⟩ | ⟨-, hdb, -⟩
  · obtain ⟨x, -, hc, -⟩ := commits hr hs
    exact fun id row hrow => hc.keep hrow
  · rw [hdb]
    exact fun id row hrow => hrow

/-- A commit for the collector's connector is of something the collector sent. -/
theorem Served.authorized (h : Served db₀ id w) (hd : Deployed db₀ id) {env : SnapshotEnvelope} {c : CollectorRow}
    (hx : w.server.sessions t = some x) (hauth : Authorized x.req env c w.server.db)
    (hc : env.connectorID = id.connectorID) : env ∈ w.sent := by
  have hgrow := reach_grow h.reach
  obtain ⟨cn, hcn, -, haccepts⟩ := hauth.connector
  obtain ⟨cn', hcn', hbound⟩ := hd.connector
  rw [hgrow.connectors, hc, hcn'] at hcn
  cases hcn
  have hcollector : id.collectorID = c.id := by
    simp only [ConnectorRow.accepts, hbound, Option.getD_some, Bool.and_eq_true, decide_eq_true_iff] at haccepts
    exact haccepts.1.1
  by_cases hfrom : x.req.isFrom id
  · obtain ⟨s, hs, hb⟩ := h.ours t x hx hfrom
    rw [hauth.body] at hb
    cases hb
    exact hs
  · have hprincipal : x.req.principal db₀ = some c := (hgrow.principal _ _).symm.trans hauth.principal
    exact absurd hcollector.symm (h.others t x c hx hfrom hprincipal)

theorem Served.server (h : Served db₀ id w) (hd : Deployed db₀ id) (hs : Step ingestSystem w.server e server')
    (hours : ∀ t r, e = .begin t r → r.isFrom id → ∃ s ∈ w.sent, r.body = .envelope s)
    (hothers : ∀ t r c, e = .begin t r → ¬ r.isFrom id → r.principal w.server.db = some c →
      c.id ≠ id.collectorID) : Served db₀ id { w with server := server' } := by
  have hk := step_keeps h.reach hs
  have hgrow := reach_grow h.reach
  refine ⟨h.reach.step hs, ?_, ?_, ?_, fun a ha h1 h2 => (h.answers a ha h1 h2).mono hk, ?_⟩
  · intro t x hx hfrom
    rcases hs.session_req _ hx with ⟨y, hy, hreq⟩ | hbegin
    · rw [← hreq] at hfrom ⊢
      exact h.ours t y hy hfrom
    · exact hours t x.req hbegin hfrom
  · intro t x c hx hfrom hprincipal
    rcases hs.session_req _ hx with ⟨y, hy, hreq⟩ | hbegin
    · rw [← hreq] at hfrom hprincipal
      exact h.others t y c hy hfrom hprincipal
    · exact hothers t x.req c hbegin hfrom ((hgrow.principal _ _).trans hprincipal)
  · intro row hrow ho hc
    cases hold : w.server.db.snapshots.get row.id with
    | some row' =>
      have := hk _ _ hold
      rw [Table.mem_iff_get.mp hrow] at this
      cases this
      obtain ⟨s, hsent, hr⟩ := h.rows row (Table.mem_of_get hold) ho hc
      exact ⟨s, hsent, { hr with get := hk _ _ hr.get }⟩
    | none =>
      have hnew : server'.db.snapshots.get row.id = some row := Table.mem_iff_get.mp hrow
      rcases hs.commit_or_same with ⟨t, a, rfl⟩ | ⟨-, hdb, -⟩
      · obtain ⟨x, hx, hcommit, -⟩ := commits h.reach hs
        cases hcommit with
        | idempotent hdb _ _ _ _ =>
          rw [hdb, hold] at hnew
          cases hnew
        | @reconciled summary env c row' hauth _ _ hrow' hother =>
          by_cases hid : row.id = env.snapshotID
          · rw [hid, hrow'.get] at hnew
            cases hnew
            exact ⟨env, h.authorized hd hx hauth (hrow'.connectorID.symm.trans hc), hrow'⟩
          · rw [hother _ hid, hold] at hnew
            cases hnew
      · rw [hdb, hold] at hnew
        cases hnew
  · intro env henv hof
    rcases hs.commit_or_same with ⟨t, a, rfl⟩ | ⟨-, -, hlog⟩
    · obtain ⟨x, hx, hcommit, hlog⟩ := commits h.reach hs
      rw [hlog, reconciled_append] at henv
      rcases List.mem_append.mp henv with hin | hin
      · exact h.log env hin hof
      · cases hcommit with
        | idempotent _ _ _ _ _ => simp [reconciledSnapshot] at hin
        | @reconciled summary env' c row' hauth _ _ _ _ =>
          simp only [reconciledSnapshot, hauth.body, Option.toList_some, List.mem_singleton] at hin
          subst hin
          simp only [SnapshotEnvelope.of, decide_eq_true_iff] at hof
          exact h.authorized hd hx hauth hof.2
    · rw [hlog] at henv
      exact h.log env henv hof

theorem Served.answered {status : ℕ} (h : Served db₀ id w) (hs : Step ingestSystem w.server e server')
    (ha : answer e = some (t, status)) (hx : w.server.sessions t = some x) (hb : x.req.body = .envelope s)
    (h1 : 200 ≤ status) (h2 : status < 300) : Committed server'.db s := by
  cases e with
  | commit u a =>
    cases ha
    obtain ⟨y, hy, hc, -⟩ := commits h.reach hs
    rw [hx] at hy
    cases hy
    cases hc with
    | idempotent hdb hbody hrow ho hh =>
      rw [hb] at hbody
      cases hbody
      exact ⟨_, hdb ▸ hrow, ho, hh⟩
    | reconciled hauth _ _ hrow _ =>
      have hbody := hauth.body
      rw [hb] at hbody
      cases hbody
      exact ⟨_, hrow.get, hrow.organizationID, hrow.contentHash⟩
  | fail u reply =>
    cases ha
    obtain ⟨y, -, hfail⟩ := (h.reach.safe ingest_verified trivial).fail hs
    have := hfail.1
    omega
  | abort u =>
    cases ha
    omega
  | begin u r => cases ha
  | start u => cases ha
  | finish u => cases ha

variable {maxAge : Time} {maxBytes : ℕ}

theorem delivers_step {label : Label} (hd : Deployed db₀ id) (hv : Served db₀ id w) (h : Spooled id w)
    (hs : CollectorStep id maxAge maxBytes w label w') : Served db₀ id w' ∧ Spooled id w' := by
  have hphase := h.phase
  cases hs with
  | list hp => exact ⟨hv.collector, h.goto h.listing⟩
  | post hp hf hb _ =>
    rw [hp] at hphase
    obtain ⟨hq, hn, hl, hearlier⟩ := h.post hphase hf hb
    refine ⟨hv.collector (List.subset_cons_self _ _), h.file, h.top, h.increasing, h.numbered, h.json,
      h.kept, ?_, hq, hn, hl⟩
    intro t ht
    rcases List.mem_cons.mp ht with rfl | ht
    · exact ⟨hq, hearlier⟩
    · exact h.sent t ht
  | accepted hp ha h1 h2 =>
    rw [hp] at hphase
    exact ⟨hv.collector,
      h.goto ⟨hphase.1, hphase.2.1, hphase.2.2, hv.answers _ ha h1 h2⟩⟩
  | remove hp =>
    rw [hp] at hphase
    obtain ⟨hq, rfl, hl, hc⟩ := hphase
    exact ⟨hv.collector, h.erase hq hl hc⟩
  | flushed _ => exact ⟨hv.collector, h.goto trivial⟩
  | flushedAgain _ => exact ⟨hv.collector, h.goto trivial⟩
  | number _ hbound =>
    have htop := h.top_bound
    exact ⟨hv.collector, h.file, h.top, h.increasing, h.numbered, h.json, h.kept,
      h.sent, lt_sequenceAfter htop.1 htop.2, hbound, rfl⟩
  | numberCut _ =>
    exact ⟨hv.collector, h.file, h.top, h.increasing, h.numbered, h.json, h.kept,
      h.sent, trivial⟩
  | renameNumber hp =>
    rw [hp] at hphase
    exact ⟨hv.collector, h.renumber hphase.1 hphase.2.1 hphase.2.2⟩
  | dropNumber _ =>
    exact ⟨hv.collector, h.file, h.top, h.increasing, h.numbered, h.json, h.kept,
      h.sent, trivial⟩
  | write hp hsnap _ =>
    rw [hp] at hphase
    obtain ⟨htop, hpos, hbound, hlt⟩ := hphase
    subst hsnap
    refine ⟨hv.collector, h.put_pending rfl ⟨⟨hpos, hbound, rfl, rfl⟩, ?_, hlt⟩⟩
    exact htop.ge
  | writeCut _ _ => exact ⟨hv.collector, h.put_pending rfl trivial⟩
  | rename hp =>
    rw [hp] at hphase
    exact ⟨hv.collector, h.queue hphase.1 hphase.2.1 hphase.2.2⟩
  | dropWrite _ => exact ⟨hv.collector, h.erase_pending trivial⟩
  | stop => exact ⟨hv.collector, h.goto trivial⟩
  | handle hs hours hothers =>
    exact ⟨hv.server hd hs hours hothers, h.mono (step_keeps hv.reach hs)⟩
  | @reply e server' t x s status hs ha hx hfrom hb =>
    have hnobegin : ∀ u r, e ≠ .begin u r := by
      rintro u r rfl
      cases ha
    have hv' := hv.server hd hs (fun u r he => absurd he (hnobegin u r)) (fun u r c he => absurd he (hnobegin u r))
    refine ⟨⟨hv'.reach, hv'.ours, hv'.others, hv'.rows, ?_, hv'.log⟩,
      h.mono (step_keeps hv.reach hs)⟩
    intro a hin h1 h2
    rcases List.mem_cons.mp hin with rfl | hin
    · exact hv.answered hs ha hx hb h1 h2
    · exact hv'.answers a hin h1 h2

theorem delivers_inv (hd : Deployed db₀ id) (h : Delivers id maxAge maxBytes db₀ w) :
    Served db₀ id w ∧ Spooled id w := by
  induction h with
  | init =>
    refine ⟨⟨.init, by rintro t x ⟨⟩, by rintro t x c ⟨⟩, fun row hrow ho hc => ?_, by rintro a ⟨⟩,
      by rintro s ⟨⟩⟩, .inl rfl, by rintro s ⟨⟩, List.Pairwise.nil, by rintro s ⟨⟩, by rintro f ⟨⟩,
      by rintro s ⟨⟩, by rintro s ⟨⟩, trivial⟩
    exact absurd hc (hd.fresh row hrow ho)
  | step _ hs ih => exact delivers_step hd ih.1 ih.2 hs

/-- A step moves the disk or the server, not both. -/
theorem CollectorStep.disk_or_server {label : Label}
    (h : CollectorStep id maxAge maxBytes w label w') : w'.disk = w.disk ∨ w'.server = w.server := by
  cases h with
  | handle _ _ _ => exact .inl rfl
  | reply _ _ _ _ _ => exact .inl rfl
  | _ => exact .inr rfl

/-- A replay answer is given only for what is committed: the sequences of the
connector belong to sent snapshots, and a snapshot is sent after all before it. -/
theorem replay_committed {reply : Reply} (hv : Served db₀ id w) (h : Spooled id w)
    (hs : Step ingestSystem w.server (.fail t reply) server') (hx : w.server.sessions t = some x)
    (hb : x.req.body = .envelope s) (hq : s ∈ w.queued) (hcode : reply.code = "snapshot_replay") :
    Committed w.server.db s := by
  obtain ⟨y, hy, hfail⟩ := (hv.reach.safe ingest_verified trivial).fail hs
  rw [hx] at hy
  cases hy
  obtain ⟨s', hb', row, hrow, ho, hc, hle⟩ := hfail.2 hcode
  rw [hb] at hb'
  cases hb'
  have hn := h.numbered s hq
  obtain ⟨u, hu, hr⟩ := hv.rows row hrow (ho.trans hn.organizationID) (hc.trans hn.connectorID)
  obtain ⟨huq, hearlier⟩ := h.sent u hu
  rw [hr.sequence] at hle
  rcases lt_or_eq_of_le hle with hlt | heq
  · exact hearlier s hq hlt
  · obtain rfl := h.eq_of_sequence hq huq heq
    exact ⟨row, hr.get, hr.organizationID, hr.contentHash⟩

/-- A request that is handled while no other is in progress, and answered. -/
theorem Delivers.serve (h : Delivers id maxAge maxBytes db₀ w) (hquiet : w.server.Quiet) {r : SnapshotRequest}
    (hs : s ∈ w.sent) (hfrom : r.isFrom id) (hb : r.body = .envelope s) {a : Accepted} {db' : Db}
    (hrun : (collectorSnapshot r).run w.server.db = .ok (a, db')) : ∃ server', Delivers id maxAge maxBytes db₀
      { w with server := server', answers := (s, 202) :: w.answers } ∧ server'.db = db' := by
  have hbegin := h.step (.handle (.begin (hquiet 0) trivial)
    (by rintro t q ⟨⟩ -; exact ⟨s, hs, hb⟩) (by rintro t q c ⟨⟩ hne; exact absurd hfrom hne))
  obtain ⟨server', l, hd, hsession, -, hview, -⟩ := steps_alone (S := ingestSystem)
    (P := fun server => Delivers id maxAge maxBytes db₀ { w with server := server })
    (fun server e server' hd hstep hno => hd.step (.handle hstep (fun t q he => absurd he (hno t q))
      (fun t q c he => absurd he (hno t q)))) (fun _ _ _ _ => trivial) hbegin (Function.update_self _ _ _)
    (fun u hu => (Function.update_of_ne hu _ _).trans (hquiet u)) (by simp) hrun
  exact ⟨_, hd.step (.reply (.commit hsession) rfl hsession hfrom hb), hview⟩

/-- Delivery: the control plane applies snapshots of the collector's connector
that were queued, each once and in increasing sequence; a queued file disappears
only when its snapshot is committed; and a queued snapshot that is answered as a
replay is committed. -/
theorem delivery_safety (id : Identity) (maxAge : Time) (maxBytes : ℕ) (db₀ : Db) (w : World) (hd : Deployed db₀ id)
    (h : Delivers id maxAge maxBytes db₀ w) :
    ((∀ s ∈ reconciled w.server.log, s.of id.organizationID id.connectorID → s ∈ w.queued) ∧
      ((reconciled w.server.log).filter (·.of id.organizationID id.connectorID)).Pairwise
        fun a b => a.sequence < b.sequence) ∧
    (∀ label w' s, CollectorStep id maxAge maxBytes w label w' → s ∈ w.queued →
      (w.disk.spool.get (spoolName s)).isSome → w'.disk.spool.get (spoolName s) = none →
      Committed w.server.db s) ∧
    (∀ t reply w' x s, CollectorStep id maxAge maxBytes w (.server (.fail t reply)) w' →
      w.server.sessions t = some x → x.req.body = .envelope s → s ∈ w.queued →
      reply.code = "snapshot_replay" → Committed w.server.db s) := by
  obtain ⟨hv, hs⟩ := delivers_inv hd h
  refine ⟨⟨fun s hin hof => (hs.sent s (hv.log s hin hof)).1, ?_⟩, ?_, ?_⟩
  · rw [List.pairwise_filter]
    refine (reach_logged hv.reach).increasing.imp fun {a b} hlt ha hb => ?_
    simp only [SnapshotEnvelope.of, decide_eq_true_iff] at ha hb
    exact hlt (ha.1.trans hb.1.symm) (ha.2.trans hb.2.symm)
  · intro label w' s hstep hq hbefore hafter
    have hs' := (delivers_step hd hv hs hstep).2
    rcases hstep.disk_or_server with hdisk | hserver
    · rw [hdisk] at hafter
      rw [hafter] at hbefore
      cases hbefore
    · have hq' : s ∈ w'.queued := by
        cases hstep <;> first | exact hq | exact List.mem_append_left _ hq
      rcases hs'.kept s hq' with ⟨f, hf, -⟩ | hc
      · rw [hafter] at hf
        cases hf
      · exact hserver ▸ hc
  · intro t reply w' x s hstep hx hb hq hcode
    cases hstep with
    | handle hserver _ _ => exact replay_committed hv hs hserver hx hb hq hcode
    | reply hserver _ _ _ _ => exact replay_committed hv hs hserver hx hb hq hcode

end

def smallIdentity : Identity := ⟨"collector", "one", "org", "secret", [], "DOCKER"⟩

theorem deployed_small : Deployed enrolledDb smallIdentity :=
  ⟨⟨⟨"one", "org", some "collector", "DOCKER", true⟩, rfl, rfl⟩, by rintro row ⟨⟩⟩

def queuedSnapshot : SnapshotEnvelope :=
  @newSnapshot plainHashes plainSignatures smallIdentity 7 1000 2000 ⟨[], [], false, false⟩

def handled : Bool :=
  match (@collectorSnapshot plainHashes plainSignatures (requestOf queuedSnapshot)).run enrolledDb with
  | .ok _ => true
  | .error _ => false

theorem handled_true : handled = true := by decide +kernel

def queuedDisk : Disk :=
  ⟨some (toString (7 : ℤ)), none,
    (Table.erase (Table.empty.put (spoolFile (pendingName queuedSnapshot) queuedSnapshot 3000))
      (pendingName queuedSnapshot)).put (spoolFile (spoolName queuedSnapshot) queuedSnapshot 3000)⟩

section

attribute [local instance] plainHashes plainSignatures

abbrev SmallRun (w : World) : Prop := Delivers smallIdentity 1000000 4096 enrolledDb w

theorem delivers_numbered : SmallRun
    ⟨⟨some (toString (7 : ℤ)), none, .empty⟩, .building 7, [], [], [], State.init enrolledDb⟩ := by
  have h₁ : SmallRun ⟨⟨none, none, .empty⟩, .posting false [], [], [], [], State.init enrolledDb⟩ :=
    Delivers.init.step (.list rfl)
  have h₂ : SmallRun ⟨⟨none, none, .empty⟩, .discovering, [], [], [], State.init enrolledDb⟩ :=
    h₁.step (.flushed rfl)
  have h₃ : SmallRun ⟨⟨none, some (toString (7 : ℤ)), .empty⟩, .numbering 7, [], [], [], State.init enrolledDb⟩ :=
    h₂.step (@CollectorStep.number _ _ _ _ _ _ 7 rfl (by decide))
  exact h₃.step (.renameNumber rfl)

theorem delivers_posted : SmallRun
    ⟨queuedDisk, .waiting true queuedSnapshot (spoolName queuedSnapshot) [], [queuedSnapshot], [queuedSnapshot], [],
      State.init enrolledDb⟩ := by
  have h₁ := delivers_numbered.step
    (@CollectorStep.write _ _ _ _ _ _ _ _ _ _ 3000 queuedSnapshot rfl rfl (by decide +kernel))
  have h₂ : SmallRun ⟨queuedDisk, .flush true, [queuedSnapshot], [], [], State.init enrolledDb⟩ :=
    h₁.step (.rename rfl)
  have h₃ := h₂.step (.list rfl)
  exact h₃.step (@CollectorStep.post _ _ _ _ _ _ _ _ _ _ _ 4000 rfl
    (Table.get_put_self _ (spoolFile (spoolName queuedSnapshot) queuedSnapshot 3000)) rfl (by decide))

theorem delivery_safety_small : ∃ w w', SmallRun w ∧ CollectorStep smallIdentity 1000000 4096 w .collector w' ∧
    w.queued = [queuedSnapshot] ∧ w'.disk.spool.get (spoolName queuedSnapshot) = none ∧
    Committed w.server.db queuedSnapshot := by
  obtain ⟨⟨a, db'⟩, hrun⟩ : ∃ out, (collectorSnapshot (requestOf queuedSnapshot)).run enrolledDb = .ok out := by
    have h := handled_true
    unfold handled at h
    split at h
    · rename_i out hout
      exact ⟨out, hout⟩
    · cases h
  have hfrom : (requestOf queuedSnapshot).isFrom smallIdentity := by
    unfold SnapshotRequest.isFrom
    decide
  obtain ⟨server', h₁, -⟩ := delivers_posted.serve (fun _ => rfl) (.head _) hfrom rfl hrun
  have h₂ := h₁.step (.accepted rfl (.head _) (by decide) (by decide))
  have hstep : CollectorStep smallIdentity 1000000 4096
      ⟨queuedDisk, .removing true queuedSnapshot (spoolName queuedSnapshot) [], [queuedSnapshot], [queuedSnapshot],
        [(queuedSnapshot, 202)], server'⟩ .collector _ := .remove rfl
  have hgone : (queuedDisk.spool.erase (spoolName queuedSnapshot)).get (spoolName queuedSnapshot) = none :=
    Table.get_eq_none.mpr fun f hf => (Table.mem_erase.mp hf).2
  have hthere : (queuedDisk.spool.get (spoolName queuedSnapshot)).isSome :=
    congrArg Option.isSome (Table.get_put_self _ (spoolFile (spoolName queuedSnapshot) queuedSnapshot 3000))
  exact ⟨_, _, h₂, hstep, rfl, hgone, (delivery_safety smallIdentity 1000000 4096 enrolledDb _ deployed_small h₂).2.1
    _ _ _ hstep (.head _) hthere hgone⟩

end

end Infragraph
