import Infragraph.Sanity.Relate
import Infragraph.Sanity.Sweep

/-! `ApplyPostgres` as a whole: its four parts, and what the asset loop has
recorded when it ends. -/

namespace Infragraph

open Relational ReadCommitted Prog

variable {db db' : Db}
variable {c : ApplyCall} {sum sum' : Summary} {s : SnapshotEnvelope} {now : Time}

/-- No identity is rebound or lost. -/
structure Kept (db db' : Db) : Prop where
  identity : ∀ k i, db.sourceIdentities.get k = some i →
    ∃ i', db'.sourceIdentities.get k = some i' ∧ i'.assetID = i.assetID
  strong : ∀ k x, db.strongIdentities.get k = some x →
    ∃ x', db'.strongIdentities.get k = some x' ∧ x'.assetID = x.assetID

theorem Kept.refl (db : Db) : Kept db db := ⟨fun _ i h => ⟨i, h, rfl⟩, fun _ x h => ⟨x, h, rfl⟩⟩

theorem Kept.trans {d₁ d₂ d₃ : Db} (h : Kept d₁ d₂) (h' : Kept d₂ d₃) : Kept d₁ d₃ := by
  refine ⟨fun k i hi => ?_, fun k x hx => ?_⟩
  · obtain ⟨i', hi', he⟩ := h.identity k i hi
    obtain ⟨i'', hi'', he'⟩ := h'.identity k i' hi'
    exact ⟨i'', hi'', he'.trans he⟩
  · obtain ⟨x', hx', he⟩ := h.strong k x hx
    obtain ⟨x'', hx'', he'⟩ := h'.strong k x' hx'
    exact ⟨x'', hx'', he'.trans he⟩

theorem Kept.same (h : db'.sourceIdentities = db.sourceIdentities)
    (h' : db'.strongIdentities = db.strongIdentities) : Kept db db' := by
  refine ⟨fun k i hi => ⟨i, by rw [h]; exact hi, rfl⟩, fun k x hx => ⟨x, by rw [h']; exact hx, rfl⟩⟩

theorem IdentitiesSwept.kept {org connector snapshot : String} {n : ℕ} {missing : List String}
    (h : IdentitiesSwept org connector snapshot n db db' missing) : Kept db db' := by
  refine ⟨fun k i hi => ?_, fun k x hx => ⟨x, by rw [h.frame]; exact hx, rfl⟩⟩
  rw [h.get, hi]
  exact ⟨_, rfl, SourceIdentityRow.swept_assetID⟩

section

variable [Hashes]

def runRow (s : SnapshotEnvelope) (summary : Summary) : RunRow :=
  { id := stableID "reconciliation" [s.snapshotID], organizationID := s.organizationID
    connectorID := s.connectorID, snapshotID := s.snapshotID, startedAt := timestamptz s.startedAt
    summary := summary }

omit [Hashes] in
theorem effectiveThreshold_pos (n : ℤ) : 0 < effectiveThreshold n := by
  unfold effectiveThreshold
  split_ifs <;> omega

structure Applied (c : ApplyCall) (db : Db) (st : Progress) (d₁ d₂ d₃ : Db) (sum₂ sum₃ : Summary)
    (db' : Db) : Prop where
  observe : (c.snapshot.assets.foldlM
    (observe c.order c.snapshot (orNow c.snapshot.completedAt c.clock)) {}).run db = .ok (st, d₁)
  relate : (c.snapshot.relationships.foldlM
    (relate c.snapshot (orNow c.snapshot.completedAt c.clock) st.assets) st.summary).run d₁ = .ok (sum₂, d₂)
  sweep : (markMissing c.order c.snapshot (effectiveThreshold c.missingThreshold) sum₂).run d₂ =
    .ok (sum₃, d₃)
  unrun : ∀ x ∈ d₃.runs, x.snapshotID ≠ c.snapshot.snapshotID
  frame : db' = { d₃ with runs := d₃.runs.put (runRow c.snapshot sum₃) }
  fresh : d₃.runs.get (runRow c.snapshot sum₃).id = none

theorem ApplyCall.run_ok (h : c.run db = .ok (sum, db')) :
    ∃ st d₁ d₂ d₃ sum₂, Applied c db st d₁ d₂ d₃ sum₂ sum db' := by
  simp only [ApplyCall.run, applyPostgres, run_bind_ok] at h
  obtain ⟨u, d, h0, st, d₁, h1, sum₂, d₂, h2, sum₃, d₃, h3, u4, d₄, h4, h5⟩ := h
  obtain ⟨-, rfl⟩ := run_failIf_ok.mp h0
  obtain ⟨hfresh, hunrun, rfl⟩ := run_insertRun h4
  cases h5
  exact ⟨st, d₁, d₂, d₃, sum₂, h1, h2, h3, hunrun, rfl, hfresh⟩

theorem Recorded.kept {o : Observation} {t : Time} {a : String} (h : Recorded s o t db db' a) : Kept db db' := by
  refine ⟨fun k i hi => ?_, h.bound.kept⟩
  obtain ⟨j, hj, hkey, hja, -⟩ := h.identity
  rw [hj, Table.get_put]
  split_ifs with hk
  · refine ⟨j, rfl, ?_⟩
    rw [← hk, hkey] at hi
    rw [hja, h.known i hi]
  · exact ⟨i, hi, rfl⟩

/-- The loop has recorded the observations `pre` under the assets `assets`. -/
structure Loaded (s : SnapshotEnvelope) (now : Time) (pre : List Observation) (assets : List (String × String))
    (db d : Db) : Prop where
  frame : d = { db with assets := d.assets, sourceIdentities := d.sourceIdentities
                        strongIdentities := d.strongIdentities, observations := d.observations
                        claims := d.claims, changes := d.changes }
  kept : Kept db d
  names : ∀ e a, (e, a) ∈ assets → ∃ o ∈ pre, o.externalID = e
  entry : ∀ e a, (e, a) ∈ assets →
    ∃ i, d.sourceIdentities.get (s.organizationID, s.connectorID, e) = some i ∧ i.assetID = a
  seen : ∀ o ∈ pre, ∃ i, d.sourceIdentities.get (s.organizationID, s.connectorID, o.externalID) = some i ∧
    i.status = .active ∧ i.consecutiveAbsences = 0
  unseen : ∀ k, (∀ o ∈ pre, k ≠ (s.organizationID, s.connectorID, o.externalID)) →
    d.sourceIdentities.get k = db.sourceIdentities.get k
  bound : ∀ o ∈ pre, ∀ e ∈ strongIdentities o, ∃ i x,
    d.sourceIdentities.get (s.organizationID, s.connectorID, o.externalID) = some i ∧
    d.strongIdentities.get (s.organizationID, e.1, e.2) = some x ∧ x.assetID = i.assetID
  observations : ∀ r, r ∈ d.observations ↔
    r ∈ db.observations ∨ ∃ o ∈ pre, r = observationRow s o (orNow o.observedAt now)

theorem Loaded.nil (s : SnapshotEnvelope) (now : Time) (db : Db) : Loaded s now [] [] db db :=
  ⟨rfl, Kept.refl db, by simp, by simp, by simp, fun _ _ => rfl, by simp, by simp⟩

theorem Loaded.snoc {pre : List Observation} {assets : List (String × String)} {o : Observation} {a : String}
    {d d' : Db} (h : Loaded s now pre assets db d) (ho : Recorded s o (orNow o.observedAt now) d d' a) :
    Loaded s now (pre ++ [o]) ((o.externalID, a) :: assets) db d' := by
  obtain ⟨j, hj, hkey, hja, hst, habs⟩ := ho.identity
  have hself : d'.sourceIdentities.get (s.organizationID, s.connectorID, o.externalID) = some j := by
    rw [hj, ← hkey]
    exact Table.get_put_self _ _
  refine ⟨by rw [ho.frame, h.frame], h.kept.trans ho.kept, ?_, ?_, ?_, ?_, ?_, ?_⟩
  · rintro e b (_ | ⟨_, hm⟩)
    · exact ⟨o, by simp, rfl⟩
    · obtain ⟨o', ho', he⟩ := h.names e b hm
      exact ⟨o', by simp [ho'], he⟩
  · rintro e b (_ | ⟨_, hm⟩)
    · exact ⟨j, hself, hja⟩
    · obtain ⟨i, hi, hib⟩ := h.entry e b hm
      obtain ⟨i', hi', he⟩ := ho.kept.identity _ i hi
      exact ⟨i', hi', he.trans hib⟩
  · intro o' ho'
    by_cases hk : j.key = (s.organizationID, s.connectorID, o'.externalID)
    · exact ⟨j, by rw [hj, ← hk]; exact Table.get_put_self _ _, hst, habs⟩
    · rw [hj, Table.get_put_of_ne _ hk]
      rcases List.mem_append.mp ho' with ho' | ho'
      · exact h.seen o' ho'
      · rw [List.mem_singleton.mp ho'] at hk
        exact absurd hkey hk
  · intro k hk
    have hne : j.key ≠ k := fun he => hk o (by simp) (he.symm.trans hkey)
    rw [hj, Table.get_put_of_ne _ hne]
    exact h.unseen k fun o' ho' => hk o' (by simp [ho'])
  · intro o' ho' e he
    rcases List.mem_append.mp ho' with ho' | ho'
    · obtain ⟨i, x, hi, hx, hxi⟩ := h.bound o' ho' e he
      obtain ⟨i', hi', hii⟩ := ho.kept.identity _ i hi
      obtain ⟨x', hx', hxx⟩ := ho.kept.strong _ x hx
      exact ⟨i', x', hi', hx', by rw [hxx, hxi, hii]⟩
    · rw [List.mem_singleton.mp ho'] at he ⊢
      obtain ⟨x, hx, hxa⟩ := ho.bound.bound e he
      exact ⟨j, x, hself, hx, hxa.trans hja.symm⟩
  · intro r
    rw [ho.observation, Table.mem_put_fresh ho.fresh, h.observations]
    simp only [List.mem_append, List.mem_singleton, or_and_right, exists_or, exists_eq_left]
    exact or_comm.trans or_assoc

theorem run_assets {order : MapOrder} {st st' : Progress} {l : List Observation}
    (h : (l.foldlM (observe order s now) st).run db = .ok (st', db'))
    (hst : st.assets = []) : Loaded s now l st'.assets db db' := by
  refine run_foldlM (fun pre st d => Loaded s now pre st.assets db d) h (by rw [hst]; exact .nil s now db) ?_
  rintro pre o post st d st' d' - hd hrun
  obtain ⟨-, -, a, created, hassets, hrec, -⟩ := run_observe hrun
  rw [hassets]
  exact hd.snoc hrec

theorem run_relationships_frame {assets : List (String × String)} {l : List RelationshipObservation}
    (h : (l.foldlM (relate s now assets) sum).run db = .ok (sum', db')) :
    db' = { db with relationships := db'.relationships
                    relationshipSources := db'.relationshipSources
                    relationshipObservations := db'.relationshipObservations
                    changes := db'.changes } := by
  refine run_foldlM (fun _ _ d => d = { db with relationships := d.relationships
                                                relationshipSources := d.relationshipSources
                                                relationshipObservations := d.relationshipObservations
                                                changes := d.changes }) h rfl ?_
  rintro pre r post sum d sum' d' - hd hrun
  obtain ⟨f, t, -, -, hrel⟩ := run_relate hrun
  rw [hrel.frame, hd]

theorem run_missing_frame {l : List String} (h : (l.foldlM (missingAsset s) sum).run db = .ok (sum', db')) :
    db' = { db with assets := db'.assets, claims := db'.claims, changes := db'.changes } := by
  refine run_foldlM (fun _ _ d => d = { db with assets := d.assets, claims := d.claims
                                                changes := d.changes }) h rfl ?_
  rintro pre a post sum d sum' d' - hd hrun
  rw [(run_missingAsset hrun).frame, hd]

omit [Hashes] in
theorem run_removed_frame {l : List String} (h : (l.foldlM (removedRelationship s) sum).run db = .ok (sum', db')) :
    db' = { db with relationships := db'.relationships } := by
  refine run_foldlM (fun _ _ d => d = { db with relationships := d.relationships }) h rfl ?_
  rintro pre a post sum d sum' d' - hd hrun
  rw [(run_removedRelationship hrun).1, hd]

theorem Applied.kept {st : Progress} {d₁ d₂ d₃ : Db} {sum₂ sum₃ : Summary}
    (h : Applied c db st d₁ d₂ d₃ sum₂ sum₃ db') : Kept db d₁ ∧ Kept d₁ db' := by
  refine ⟨(run_assets h.observe rfl).kept, ?_⟩
  obtain ⟨missing, e₁, sum₁, e₂, removed, e₃, h1, h2, h3, h4⟩ := run_markMissing h.sweep
  have hd₂ := run_relationships_frame h.relate
  have he₂ := run_missing_frame h2
  have hd₃ := run_removed_frame h4
  have h12 : Kept d₁ d₂ := Kept.same (by rw [hd₂]) (by rw [hd₂])
  have h23 : Kept e₁ db' :=
    Kept.same (by rw [h.frame, hd₃, h3.frame, he₂]) (by rw [h.frame, hd₃, h3.frame, he₂])
  exact h12.trans (h1.kept.trans h23)

theorem Runs.trans {db₀ db₁ db₂ : Db} {h h' : List ApplyCall} (h1 : Runs db₀ h db₁)
    (h2 : Runs db₁ h' db₂) : Runs db₀ (h ++ h') db₂ := by
  induction h2 with
  | nil => simpa using h1
  | succeed _ hc ih =>
    rw [← List.append_assoc]
    exact ih.succeed hc
  | fail _ hc ih => exact ih.fail hc
  | other p sn cn cl cr a _ ih => exact ih.other p sn cn cl cr a

theorem runs_replay {db db' : Db} {cs : List ApplyCall} (h : replay db cs = .ok db') : Runs db cs db' := by
  induction cs generalizing db with
  | nil =>
    cases h
    exact .nil
  | cons c cs ih =>
    simp only [replay] at h
    split at h
    · rename_i sum d hc
      exact (Runs.nil.succeed hc).trans (ih h)
    · cases h

/-- Invariant rule: what a call keeps, and what only the inventory tables decide,
holds after any history. -/
theorem Runs.invariant {I : Db → Prop} {db₀ db : Db} {h : List ApplyCall} (hr : Runs db₀ h db) (h0 : I db₀)
    (hcall : ∀ (d d' : Db) (c : ApplyCall) (sum : Summary), I d → c.run d = .ok (sum, d') → I d')
    (hother : ∀ (d : Db) p sn cn cl cr a, I d →
      I { d with policies := p, snapshots := sn, connectors := cn, collectors := cl, credentials := cr
                 auditEvents := a }) : I db := by
  induction hr with
  | nil => exact h0
  | succeed _ hc ih => exact hcall _ _ _ _ ih hc
  | fail _ _ ih => exact ih
  | other p sn cn cl cr a _ ih => exact hother _ p sn cn cl cr a ih

end

def toyHash (bs : List UInt8) : List UInt8 :=
  let n := bs.foldl (fun h b => (h * 1000003 + b.toNat + 1) % 2 ^ 128) 7
  (List.range 16).map fun i => UInt8.ofNat (n / 256 ^ i)

abbrev toy : Hashes := ⟨toyHash, fun s => s.length⟩

def emptyDb : Db :=
  ⟨.empty, .empty, .empty, .empty, .empty, .empty, .empty, .empty, .empty, .empty, .empty, .empty, .empty,
    .empty, .empty, .empty⟩

theorem emptyDb_inventory : emptyDb.InventoryEmpty := ⟨rfl, rfl, rfl, rfl, rfl, rfl, rfl, rfl, rfl, rfl⟩

def goMap (entries : List (String × Json)) (h : (entries.map Prod.fst).Nodup) : GoMap Json :=
  ⟨entries, h, false, by simp⟩

def appSeen (external environment : String) : Observation :=
  { externalID := external, assetType := "APPLICATION", observedAt := 5000
    attributes := goMap [("name", .str "web"), ("environment", .str environment)] (by simp)
    identityHints := goMap [("external_cmdb_id", .str "shared-app")] (by simp) }

def databaseSeen : Observation :=
  { externalID := "db", assetType := "DATABASE", observedAt := 5000
    attributes := goMap [("name", .str "postgres")] (by simp), identityHints := GoMap.nil }

def usesDatabase : RelationshipObservation :=
  { externalFromID := "app", externalToID := "db", type := "USES_DATABASE", observedAt := 5000
    attributes := goMap [] (by simp) }

def snapshotOf (id connector : String) (assets : List Observation)
    (relationships : List RelationshipObservation) : SnapshotEnvelope :=
  { protocolVersion := "1.0", snapshotID := id, organizationID := "org", collectorID := "collector"
    connectorID := connector, connectorType := "DOCKER", connectorVersion := "1", startedAt := 1000
    completedAt := 2000, sequence := 1, assets := assets, relationships := relationships, warnings := []
    statistics := .empty, contentHash := id, signatureAlgorithm := "Ed25519"
    signature := "" }

def callOf (s : SnapshotEnvelope) : ApplyCall := ⟨.plain, 7000, s, 1⟩

def firstCall : ApplyCall :=
  callOf (snapshotOf "first" "one" [appSeen "app" "production", databaseSeen] [usesDatabase])

def otherCall : ApplyCall := callOf (snapshotOf "other" "two" [appSeen "other-app" "staging"] [])

def emptyCall : ApplyCall := callOf (snapshotOf "empty" "one" [] [])

def deployment : List ApplyCall := [firstCall, otherCall, emptyCall]

def replayed (cs : List ApplyCall) : Db :=
  match @replay toy emptyDb cs with
  | .ok db => db
  | .error _ => emptyDb

def replays (cs : List ApplyCall) : Bool :=
  match @replay toy emptyDb cs with
  | .ok _ => true
  | .error _ => false

theorem runs_replayed {cs : List ApplyCall} (h : replays cs = true) : @Runs toy emptyDb cs (replayed cs) := by
  unfold replays at h
  unfold replayed
  split at h
  · rename_i db hdb
    exact @runs_replay toy _ _ _ hdb
  · cases h

def succeeds (c : ApplyCall) (db : Db) (p : Summary × Db → Bool) : Bool :=
  match @ApplyCall.run toy c db with
  | .ok out => p out
  | .error _ => false

theorem run_of_succeeds {p : Summary × Db → Bool} (h : succeeds c db p = true) :
    ∃ sum db', @ApplyCall.run toy c db = .ok (sum, db') ∧ p (sum, db') = true := by
  unfold succeeds at h
  split at h
  · rename_i out hrun
    exact ⟨out.1, out.2, hrun, h⟩
  · cases h

theorem replays_deployment : replays deployment = true := by decide +kernel

end Infragraph
