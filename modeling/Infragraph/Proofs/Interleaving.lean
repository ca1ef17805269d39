import Infragraph.Lib.Play
import Infragraph.Proofs.SideBySide

/-! Statuses under concurrency. Reconciliations of different connectors may run
side by side and an asset is still MISSING exactly when it has no ACTIVE identity.
The conflict flag is weaker: the sweep reads it before it holds the asset, so an
observation committed in between can be overwritten with a stale flag. -/

namespace Infragraph

open Relational ReadCommitted Prog

/-- MISSING exactly when no identity is ACTIVE. -/
def missingFact (st : AssetStatus) (active _ : Bool) : Prop := st = .missing ↔ active = false

/-- Unless MISSING, CONFLICTING exactly when the claims conflict. -/
def conflictFact (st : AssetStatus) (_ conflict : Bool) : Prop :=
  st ≠ .missing → (st = .conflicting ↔ conflict = true)

theorem missingFact_iff {db : Db} {r : AssetRow} :
    missingFact r.status (db.anyActive r.id) (db.conflict r.organizationID r.id) ↔
      (r.status = .missing ↔ ∀ i ∈ db.sourceIdentities, i.assetID = r.id → i.status ≠ .active) := by
  unfold missingFact
  rw [← Bool.not_eq_true, anyActive_iff]
  push Not
  rfl

section

variable [Hashes]

theorem reach_rooted {db₀ : Db} {s : State Db Write Lock Error Summary ApplyCall} (hroot : db₀.Rooted)
    (hs : Reach reconcileSystem db₀ s) : s.db.Rooted := by
  have hv := reconcile_verified (F := fun _ _ _ => True) (P := False) (S := reconcileSystem) rfl False.elim
    (fun _ => trivial) fun _ _ _ _ => trivial
  exact (hs.safe hv ⟨hroot, fun _ _ _ => trivial⟩).inv.1

/-- Whatever the interleaving, in every committed database an asset is MISSING
exactly when none of its source identities is ACTIVE, if that is how it was at
the start. -/
theorem interleaved_missing {db₀ : Db} {s : State Db Write Lock Error Summary ApplyCall} (hroot : db₀.Rooted)
    (h0 : ∀ r ∈ db₀.assets,
      r.status = .missing ↔ ∀ i ∈ db₀.sourceIdentities, i.assetID = r.id → i.status ≠ .active)
    (hs : Reach reconcileSystem db₀ s) :
    s.db.Rooted ∧ ∀ r ∈ s.db.assets,
      r.status = .missing ↔ ∀ i ∈ s.db.sourceIdentities, i.assetID = r.id → i.status ≠ .active := by
  have hv : Verified (reconcileSystem) (footprintRely missingFact) (fun _ => failsAnywhere) fun c _ =>
      Assert missingFact c.snapshot.organizationID c.snapshot.connectorID [] fun _ _ => True :=
    reconcile_verified (P := False) rfl False.elim (fun c => by cases c <;> simp [missingFact])
      fun b c act _ => by cases act <;> cases b <;> simp [missingFact]
  have hinv : (footprintRely missingFact).inv db₀ := by
    refine ⟨hroot, fun a r hr => ?_⟩
    have hid : r.id = a := Table.key_of_get hr
    subst hid
    exact missingFact_iff.mpr (h0 r (Table.mem_of_get hr))
  refine ⟨reach_rooted hroot hs, fun r hr => ?_⟩
  exact missingFact_iff.mp ((hs.safe hv hinv).inv.2 r.id r (Table.mem_iff_get.mp hr))

end

instance (begun : List ApplyCall) (c : ApplyCall) : Decidable ((@reconcileSystem toy).admits begun c) :=
  inferInstanceAs (Decidable True)

instance (q : ApplyCall) (c : Call) (rs : List (Call × Db)) (d d' : Db) :
    Decidable ((@reconcileSystem toy).schedule q c rs d d') :=
  inferInstanceAs (Decidable True)

def sighting (id connector environment : String) : ApplyCall :=
  callOf (snapshotOf id connector [appSeen "app" environment] [])

def dropping (id connector : String) : ApplyCall := callOf (snapshotOf id connector [] [])

def whole (t : ℕ) (c : ApplyCall) : List (Move ApplyCall) :=
  .begin t c :: List.replicate 40 (.work t) ++ [.commit t]

def halfDrop (t : ℕ) (id connector : String) : List (Move ApplyCall) :=
  .begin t (dropping id connector) :: List.replicate 7 (.work t)

def rest (t : ℕ) : List (Move ApplyCall) := List.replicate 10 (.work t) ++ [.commit t]

theorem emptyDb_rooted : emptyDb.Rooted := ⟨by simp [emptyDb], by simp [emptyDb], by simp [emptyDb]⟩

/-- Two connectors drop the application side by side: it ends MISSING. -/
theorem interleaved_missing_pair :
    ∃ s, Reach (@reconcileSystem toy) emptyDb s ∧ s.Quiet ∧ s.db.assets.rows.map (·.status) = [.missing] ∧
      ∀ r ∈ s.db.assets,
        r.status = .missing ↔ ∀ i ∈ s.db.sourceIdentities, i.assetID = r.id → i.status ≠ .active := by
  obtain ⟨s, hs, hquiet, hst⟩ := Reach.played (@reconcileSystem toy) 2 emptyDb
    (whole 0 (sighting "s1" "x" "production") ++ whole 0 (sighting "s2" "yy" "production") ++
      halfDrop 0 "s3" "x" ++ halfDrop 1 "s4" "yy" ++ rest 0 ++ rest 1)
    (fun s => s.db.assets.rows.map (·.status) = [.missing]) (by decide +kernel)
  exact ⟨s, hs, hquiet, by simpa using hst,
    (@interleaved_missing toy emptyDb s emptyDb_rooted (by simp [emptyDb]) hs).2⟩

section

variable [Hashes]

/-- Where no commit comes between the reading of a conflict flag and its writing
that changes the claims it was read from, every committed database has the
conflict flags right. -/
theorem kept_conflicting {db₀ : Db} {s : State Db Write Lock Error Summary ApplyCall} (hroot : db₀.Rooted)
    (h0 : ∀ r ∈ db₀.assets, r.status ≠ .missing → (r.status = .conflicting ↔ db₀.Disagree r.id))
    (hs : Reach keptSystem db₀ s) :
    s.db.Rooted ∧ ∀ r ∈ s.db.assets, r.status ≠ .missing → (r.status = .conflicting ↔ s.db.Disagree r.id) := by
  have hv : Verified (keptSystem) (footprintRely conflictFact) (fun _ => failsAnywhere) fun c _ =>
      Assert conflictFact c.snapshot.organizationID c.snapshot.connectorID [] fun _ _ => True :=
    reconcile_verified (P := True) rfl (fun _ _ _ _ _ _ h => h) (fun c => by cases c <;> simp [conflictFact])
      fun b c act hb => by
        obtain rfl := hb trivial
        cases act <;> cases b <;> simp [conflictFact]
  have hinv : (footprintRely conflictFact).inv db₀ := by
    refine ⟨hroot, fun a r hr hne => ?_⟩
    have hid : r.id = a := Table.key_of_get hr
    subst hid
    rw [h0 r (Table.mem_of_get hr) hne, disagree_iff hroot.claim (Table.mem_of_get hr)]
  have hsafe := (hs.safe hv hinv).inv
  refine ⟨hsafe.1, fun r hr hne => ?_⟩
  rw [disagree_iff hsafe.1.claim hr]
  exact hsafe.2 r.id r (Table.mem_iff_get.mp hr) hne

end

/-- The third connector drops the application and reads the flag while the first
two disagree, the second then agrees with the first and commits, and the third
writes what it read. -/
def staleFlag : List (Move ApplyCall) :=
  whole 0 (sighting "s1" "x" "production") ++ whole 0 (sighting "s2" "yy" "staging") ++
    whole 0 (sighting "s3" "zzz" "production") ++ halfDrop 0 "s4" "zzz" ++
    whole 1 (sighting "s5" "yy" "production") ++ rest 0

theorem stale_conflicting : ∃ s, Reach (@reconcileSystem toy) emptyDb s ∧ s.Quiet ∧
      ∃ r ∈ s.db.assets, r.status = .conflicting ∧ ¬ s.db.Disagree r.id := by
  obtain ⟨s, hs, hquiet, hst⟩ := Reach.played (@reconcileSystem toy) 2 emptyDb staleFlag
    (fun s => s.db.assets.rows.any fun r =>
      r.status = .conflicting && !s.db.conflict r.organizationID r.id) (by decide +kernel)
  obtain ⟨r, hr, hok⟩ := List.any_eq_true.mp hst
  simp only [Bool.and_eq_true, decide_eq_true_eq, Bool.not_eq_true'] at hok
  refine ⟨s, hs, hquiet, r, hr, hok.1, ?_⟩
  rw [disagree_iff (@reach_rooted toy emptyDb s emptyDb_rooted hs).claim hr, hok.2]
  simp

/-- One after the other, the three connectors meet the condition: the flag is set
while two of them disagree and cleared when one drops the application. -/
def turns : List ApplyCall :=
  [sighting "s1" "x" "production", sighting "s2" "yy" "staging", dropping "s3" "yy"]

theorem kept_conflicting_turns :
    ∃ s, Reach (@keptSystem toy) emptyDb s ∧ s.db.assets.rows.map (·.status) = [.active] ∧
      ∀ r ∈ s.db.assets, r.status ≠ .missing → (r.status = .conflicting ↔ s.db.Disagree r.id) := by
  have hrun : ((@keptSystem toy).serial turns emptyDb).any
      (fun out => out.1.assets.rows.map (·.status) = [.active]) = true := by decide +kernel
  obtain ⟨out, hout, hst⟩ := (Option.any_eq_true _ _).mp hrun
  have hkept : ∀ c rs d, (∀ x ∈ rs, x.2 = d) → claimsKept c rs d d := by
    intro c rs d hrs org asset d' _ hlast x _
    have hd : d' = d := hrs _ (List.mem_of_getLast? hlast)
    rw [hd]
  obtain ⟨s, hs, hdb, -, -⟩ := Reach.serial (S := @keptSystem toy) (fun _ _ => trivial) (fun _ => hkept)
    Reach.init (fun _ => rfl) hout
  refine ⟨s, hs, by rw [hdb]; simpa using hst, ?_⟩
  exact (@kept_conflicting toy emptyDb s emptyDb_rooted (by simp [emptyDb]) hs).2

end Infragraph
