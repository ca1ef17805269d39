import Infragraph.Proofs.Delivery

/-! The spool keeps snapshots longer than the control plane takes them. Whatever is
posted is inside the replay window exactly when the spool age is configured to at
most the window's 24 hours; the default is seven days. -/

namespace Infragraph

open Relational ReadCommitted

/-- What the collector queued and would still post is never refused for its
timestamp: the clocks agree and the file was written when the snapshot completed. -/
def SpoolWithinWindow [Hashes] [Signatures] (configured : Option ℤ) : Prop :=
  ∀ (id : Identity) (maxBytes : ℕ) (db : Db) (w : World) (s : SnapshotEnvelope) (f : SpoolFile) (now : Time)
    (r : SnapshotRequest) (d : Db) (reply : Reply),
    Delivers id (maxSpoolAge configured) maxBytes db w → s ∈ w.queued →
    w.disk.spool.get (spoolName s) = some f → f.body = some s → f.modTime = s.completedAt →
    f.modTime ≤ now → now - f.modTime ≤ maxSpoolAge configured →
    r.body = .envelope s → r.agedAt = now → r.boundedAt = now →
    (collectorSnapshot r).run d = .error reply → reply.code ≠ "snapshot_timestamp_invalid"

section

variable [Hashes] [Signatures]

omit [Hashes] [Signatures] in
theorem not_outside {r : SnapshotRequest} {s : SnapshotEnvelope} {now age : Time} (hage : age ≤ 24 * hour)
    (hlater : s.completedAt ≤ now) (hposted : now - s.completedAt ≤ age) (haged : r.agedAt = now)
    (hbounded : r.boundedAt = now) : ¬ r.OutsideWindow s := by
  unfold SnapshotRequest.OutsideWindow
  unfold hour minute Time at *
  omega

theorem spoolWithinWindow_of_le {configured : Option ℤ} (h : maxSpoolAge configured ≤ 24 * hour) :
    SpoolWithinWindow configured := by
  intro id maxBytes db w s f now r d reply _ _ _ _ hmod hlater hposted hbody haged hbounded hrun hcode
  rw [hmod] at hlater hposted
  have hwindow : ∀ s', r.body = .envelope s' → r.OutsideWindow s' → False := by
    intro s' hbody' hout
    cases hbody.symm.trans hbody'
    exact not_outside h hlater hposted haged hbounded hout
  exact collectorSnapshot_raises (P := fun reply => reply.code ≠ "snapshot_timestamp_invalid")
    (fun _ h => h.2) (fun s' hbody' hout => (hwindow s' hbody' hout).elim) d reply hrun hcode

def idleSnapshot : SnapshotEnvelope := newSnapshot smallIdentity 7 1000 2000 ⟨[], [], false, false⟩

def enrollment : Db :=
  { emptyDb with
    collectors := Table.empty.put ⟨"collector", "org", [], none⟩
    credentials := Table.empty.put ⟨"credential", "org", "collector", tokenHash "secret", none, none⟩ }

def idleRequest (now : Time) : SnapshotRequest :=
  { requestOf idleSnapshot with agedAt := now, boundedAt := now }

theorem idle_refused {now : Time} (h : 24 * hour < now - 2000) :
    (collectorSnapshot (idleRequest now)).run enrollment =
      .error ⟨409, "snapshot_timestamp_invalid", "snapshot timestamp outside replay window"⟩ := by
  have hbearer : bearer (idleRequest now).authorization = "secret" := by
    show bearer "Bearer secret" = "secret"
    decide
  refine run_collectorSnapshot_outside (c := ⟨"collector", "org", [], none⟩) (s := idleSnapshot) ?_ ?_ rfl rfl rfl
    ⟨rfl, rfl⟩ rfl (.inl h)
  · rw [hbearer]
    decide
  · unfold SnapshotRequest.principal
    rw [hbearer]
    have hcredentials : (enrollment.credentials.rows.filter fun cc => cc.credentialHash = tokenHash "secret" ∧
        cc.revokedAt = none ∧ cc.expiresAt.all ((idleRequest now).databaseNow < ·)) =
        [⟨"credential", "org", "collector", tokenHash "secret", none, none⟩] := by
      simp [enrollment, Table.put, Table.putRows, Table.empty]
    unfold Db.principal
    rw [hcredentials]
    rfl

def idleDisk : Disk :=
  ⟨some (toString (7 : ℤ)), none,
    (Table.erase (Table.empty.put (spoolFile (pendingName idleSnapshot) idleSnapshot 2000))
      (pendingName idleSnapshot)).put (spoolFile (spoolName idleSnapshot) idleSnapshot 2000)⟩

/-- The snapshot is queued right after it completed. -/
theorem delivers_idle (maxAge : Time) : Delivers smallIdentity maxAge (envelopeSize idleSnapshot) emptyDb
      ⟨idleDisk, .flush true, [idleSnapshot], [], [], State.init emptyDb⟩ := by
  have h₁ : Delivers smallIdentity maxAge (envelopeSize idleSnapshot) emptyDb
      ⟨⟨none, none, .empty⟩, .posting false [], [], [], [], State.init emptyDb⟩ := Delivers.init.step (.list rfl)
  have h₂ := h₁.step (.flushed rfl)
  have h₃ := h₂.step (@CollectorStep.number _ _ _ _ _ _ 7 rfl (by decide))
  have h₄ := h₃.step (.renameNumber rfl)
  have h₅ := h₄.step
    (@CollectorStep.write _ _ _ _ _ _ _ _ _ _ 2000 idleSnapshot rfl rfl (by simp [Disk.used, Table.empty]))
  exact h₅.step (.rename rfl)

/-- A spool age above the window lets the collector post a snapshot that is refused. -/
theorem not_spoolWithinWindow {configured : Option ℤ} (h : 24 * hour < maxSpoolAge configured) :
    ¬ SpoolWithinWindow configured := by
  intro hwithin
  have hfile : idleDisk.spool.get (spoolName idleSnapshot) =
      some (spoolFile (spoolName idleSnapshot) idleSnapshot 2000) := Table.get_put_self _ _
  have hage : 2000 + maxSpoolAge configured - 2000 = maxSpoolAge configured := by ring
  have hlater : (2000 : Time) ≤ 2000 + maxSpoolAge configured := by
    unfold hour Time at *
    omega
  refine hwithin smallIdentity (envelopeSize idleSnapshot) emptyDb _ idleSnapshot _ (2000 + maxSpoolAge configured)
    (idleRequest (2000 + maxSpoolAge configured)) enrollment _ (delivers_idle _) (.head _) hfile rfl rfl
    hlater hage.le rfl rfl rfl (idle_refused ?_) rfl
  rw [hage]
  exact h

omit [Hashes] [Signatures] in
theorem maxSpoolAge_le_iff (configured : Option ℤ) :
    maxSpoolAge configured ≤ 24 * hour ↔ ∃ age, configured = some age ∧ 0 < age ∧ age ≤ 24 * hour := by
  unfold maxSpoolAge envDuration
  cases configured with
  | none => simp [hour]
  | some age =>
    dsimp only
    split_ifs with hage
    · constructor
      · intro h
        norm_num [hour] at h
      · rintro ⟨_, ⟨⟩, hpos, -⟩
        omega
    · constructor
      · intro h
        exact ⟨age, rfl, by omega, h⟩
      · rintro ⟨_, ⟨⟩, -, h⟩
        exact h

/-- The spool and the replay window agree exactly when the spool age is set to a
positive duration of at most 24 hours. -/
theorem spool_within_window_iff (configured : Option ℤ) :
    SpoolWithinWindow configured ↔ ∃ age, configured = some age ∧ 0 < age ∧ age ≤ 24 * hour := by
  rw [← maxSpoolAge_le_iff]
  constructor
  · intro hwithin
    by_contra hage
    exact not_spoolWithinWindow (not_le.mp hage) hwithin
  · exact spoolWithinWindow_of_le

end

/-- With the default spool age a snapshot can wait until it is refused for good. -/
theorem default_spool_outlives_window : ¬ @SpoolWithinWindow plainHashes plainSignatures none :=
  @not_spoolWithinWindow plainHashes plainSignatures none (by decide)

end Infragraph
