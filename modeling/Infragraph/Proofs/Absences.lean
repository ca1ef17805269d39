import Infragraph.Proofs.Inventory

/-! Absence counters against the history of snapshots. The counter of a source
identity is read off the snapshots of its own connector, latest first: it counts
those before the first that contains the external ID. -/

namespace Infragraph

open Relational ReadCommitted Prog

def ApplyCall.contains (c : ApplyCall) (external : String) : Bool :=
  c.snapshot.assets.any fun o => o.externalID = external

/-- The calls of a connector, latest first. -/
def latest (h : List ApplyCall) (org connector : String) : List ApplyCall :=
  (h.filter fun c => c.snapshot.organizationID = org ∧ c.snapshot.connectorID = connector).reverse

/-- How many snapshots of the connector came after the last that contains the external ID. -/
def absences (h : List ApplyCall) (org connector external : String) : ℕ :=
  ((latest h org connector).takeWhile fun c => !c.contains external).length

/-- The `n` latest snapshots of the connector exist and do not contain the external ID. -/
def AbsentFromLatest (n : ℕ) (h : List ApplyCall) (org connector external : String) : Prop :=
  n ≤ (latest h org connector).length ∧ ∀ c ∈ (latest h org connector).take n, c.contains external = false

theorem le_length_takeWhile {α : Type} (p : α → Bool) (l : List α) (n : ℕ) :
    n ≤ (l.takeWhile p).length ↔ n ≤ l.length ∧ ∀ x ∈ l.take n, p x = true := by
  induction l generalizing n with
  | nil => simp
  | cons x xs ih =>
    cases n with
    | zero => simp
    | succ n =>
      cases hp : p x with
      | true => simp [hp, ih]
      | false => simp [hp]

theorem absentFromLatest_iff {n : ℕ} {h : List ApplyCall} {org connector external : String} :
    AbsentFromLatest n h org connector external ↔ n ≤ absences h org connector external := by
  rw [absences, le_length_takeWhile]
  simp [AbsentFromLatest]

section

variable {h : List ApplyCall} {c : ApplyCall} {org connector external : String}

theorem latest_snoc_mine (hc : c.snapshot.organizationID = org ∧ c.snapshot.connectorID = connector) :
    latest (h ++ [c]) org connector = c :: latest h org connector := by
  simp [latest, hc]

theorem absences_snoc_mine (hc : c.snapshot.organizationID = org ∧ c.snapshot.connectorID = connector) :
    absences (h ++ [c]) org connector external =
      if c.contains external then 0 else absences h org connector external + 1 := by
  rw [absences, latest_snoc_mine hc]
  cases hx : c.contains external <;> simp [hx, absences]

theorem absences_snoc_other (hc : ¬ (c.snapshot.organizationID = org ∧ c.snapshot.connectorID = connector)) :
    absences (h ++ [c]) org connector external = absences h org connector external := by
  simp [absences, latest, List.filter_append, hc]

end

def Db.Recorded (db : Db) : Prop := ∀ o ∈ db.observations, ∃ r ∈ db.runs, r.snapshotID = o.snapshotID

structure Counted (c : ApplyCall) (db db' : Db) : Prop where
  kept : Kept db db'
  seen : ∀ e, c.contains e = true → ∃ i,
    db'.sourceIdentities.get (c.snapshot.organizationID, c.snapshot.connectorID, e) = some i ∧
    i.consecutiveAbsences = 0 ∧ (i.status = .active ↔ 0 < effectiveThreshold c.missingThreshold)
  unseen : ∀ e i, c.contains e = false →
    db'.sourceIdentities.get (c.snapshot.organizationID, c.snapshot.connectorID, e) = some i →
    ∃ i₀, db.sourceIdentities.get (c.snapshot.organizationID, c.snapshot.connectorID, e) = some i₀ ∧
      i.consecutiveAbsences = i₀.consecutiveAbsences + 1 ∧
      (i.status = .active ↔ i₀.status = .active ∧
        i₀.consecutiveAbsences + 1 < effectiveThreshold c.missingThreshold)
  others : ∀ k : String × String × String,
    ¬ (c.snapshot.organizationID = k.1 ∧ c.snapshot.connectorID = k.2.1) →
      db'.sourceIdentities.get k = db.sourceIdentities.get k

section

variable [Hashes] {db db' : Db}

theorem Loaded.observed {c : ApplyCall} {now : Time} {assets : List (String × String)} {d : Db}
    (h : Loaded c.snapshot now c.snapshot.assets assets db d)
    (hfresh : ∀ o ∈ db.observations, o.snapshotID ≠ c.snapshot.snapshotID) (e : String) :
    d.observed c.snapshot.snapshotID e = c.contains e := by
  rw [Bool.eq_iff_iff]
  simp only [Db.observed, ApplyCall.contains, List.any_eq_true, decide_eq_true_eq, Table.mem_rows]
  constructor
  · rintro ⟨r, hr, hs, rfl⟩
    rcases (h.observations r).mp hr with hr | ⟨o, ho, rfl⟩
    · exact absurd hs (hfresh r hr)
    · exact ⟨o, ho, rfl⟩
  · rintro ⟨o, ho, rfl⟩
    exact ⟨_, (h.observations _).mpr (.inr ⟨o, ho, rfl⟩), rfl, rfl⟩

section

variable {c : ApplyCall} {st : Progress} {d₁ d₂ d₃ : Db} {sum₂ sum₃ : Summary}
  (h : Applied c db st d₁ d₂ d₃ sum₂ sum₃ db')
include h

theorem Applied.identities (k : String × String × String) :
    db'.sourceIdentities.get k = (d₁.sourceIdentities.get k).map
      (·.swept c.snapshot.organizationID c.snapshot.connectorID (d₁.observed c.snapshot.snapshotID)
        (effectiveThreshold c.missingThreshold)) := by
  obtain ⟨missing, e₁, sum₁, e₂, removed, e₃, h1, h2, h3, h4⟩ := run_markMissing h.sweep
  have hd₂ := run_relationships_frame h.relate
  have hids : db'.sourceIdentities = e₁.sourceIdentities := by
    rw [h.frame, run_removed_frame h4, h3.frame, run_missing_frame h2]
  rw [hids, h1.get, hd₂]
  rfl

theorem Applied.runs : d₃.runs = db.runs ∧ db'.observations = d₁.observations := by
  obtain ⟨missing, e₁, sum₁, e₂, removed, e₃, h1, h2, h3, h4⟩ := run_markMissing h.sweep
  have hd₃ : d₃ = { d₂ with sourceIdentities := d₃.sourceIdentities, assets := d₃.assets
                            claims := d₃.claims, changes := d₃.changes
                            relationshipSources := d₃.relationshipSources
                            relationships := d₃.relationships } := by
    rw [run_removed_frame h4, h3.frame, run_missing_frame h2, h1.frame]
  constructor
  · rw [hd₃, run_relationships_frame h.relate, (run_assets h.observe rfl).frame]
  · rw [h.frame, hd₃, run_relationships_frame h.relate]

end

theorem ApplyCall.counted {c : ApplyCall} {sum : Summary} (hc : c.run db = .ok (sum, db'))
    (hrec : db.Recorded) : Counted c db db' ∧ db'.Recorded := by
  obtain ⟨st, d₁, d₂, d₃, sum₂, happ⟩ := ApplyCall.run_ok hc
  have hload := run_assets happ.observe rfl
  obtain ⟨hruns, hobs⟩ := happ.runs
  have hfresh : ∀ o ∈ db.observations, o.snapshotID ≠ c.snapshot.snapshotID := by
    intro o ho hs
    obtain ⟨r, hr, hrs⟩ := hrec o ho
    exact happ.unrun r (by rw [hruns]; exact hr) (hrs.trans hs)
  have hseen := hload.observed hfresh
  refine ⟨⟨happ.kept.1.trans happ.kept.2, fun e he => ?_, fun e i he hi => ?_, fun k hk => ?_⟩,
    fun o ho => ?_⟩
  · obtain ⟨o, ho, rfl⟩ : ∃ o ∈ c.snapshot.assets, o.externalID = e := by
      simpa [ApplyCall.contains] using he
    obtain ⟨i, hi, hst, habs⟩ := hload.seen o ho
    have hkey : i.key = (c.snapshot.organizationID, c.snapshot.connectorID, o.externalID) :=
      Table.key_of_get hi
    have hmine : i.organizationID = c.snapshot.organizationID ∧ i.connectorID = c.snapshot.connectorID :=
      ⟨congrArg Prod.fst hkey, congrArg (·.2.1) hkey⟩
    have hext : i.externalID = o.externalID := congrArg (·.2.2) hkey
    rw [happ.identities, hi]
    refine ⟨_, rfl, ?_, ?_⟩
    · rw [SourceIdentityRow.swept_absences hmine, hext, hseen, he, habs]
      rfl
    · rw [SourceIdentityRow.swept_active hmine, hext, hseen, he, habs]
      simp [hst, countAbsence]
  · rw [happ.identities, Option.map_eq_some_iff] at hi
    obtain ⟨i₀, hi₀, rfl⟩ := hi
    have hkey : i₀.key = (c.snapshot.organizationID, c.snapshot.connectorID, e) := Table.key_of_get hi₀
    have hmine : i₀.organizationID = c.snapshot.organizationID ∧ i₀.connectorID = c.snapshot.connectorID :=
      ⟨congrArg Prod.fst hkey, congrArg (·.2.1) hkey⟩
    have hext : i₀.externalID = e := congrArg (·.2.2) hkey
    have hold : ∀ o ∈ c.snapshot.assets, (c.snapshot.organizationID, c.snapshot.connectorID, e) ≠
        (c.snapshot.organizationID, c.snapshot.connectorID, o.externalID) := by
      intro o ho heq
      have hne : ¬ o.externalID = e := by simpa using (List.any_eq_false.mp he) o ho
      exact hne (congrArg (·.2.2) heq).symm
    rw [hload.unseen _ hold] at hi₀
    refine ⟨i₀, hi₀, ?_, ?_⟩
    · rw [SourceIdentityRow.swept_absences hmine, hext, hseen, he]
      rfl
    · rw [SourceIdentityRow.swept_active hmine, hext, hseen, he]
      rfl
  · have hold : ∀ o ∈ c.snapshot.assets,
        k ≠ (c.snapshot.organizationID, c.snapshot.connectorID, o.externalID) :=
      fun o _ heq => hk ⟨by rw [heq], by rw [heq]⟩
    rw [happ.identities, hload.unseen k hold]
    cases hg : db.sourceIdentities.get k with
    | none => rfl
    | some i =>
      have hkey : i.key = k := Table.key_of_get hg
      rw [Option.map_some, SourceIdentityRow.swept_of_ne]
      rintro ⟨ho, hn⟩
      exact hk ⟨by rw [← hkey]; exact ho.symm, by rw [← hkey]; exact hn.symm⟩
  · rw [hobs, hload.observations] at ho
    rw [happ.frame]
    rcases ho with ho | ⟨o', -, rfl⟩
    · obtain ⟨r, hr, hrs⟩ := hrec o ho
      exact ⟨r, (Table.mem_put_fresh happ.fresh).mpr (.inr (by rw [hruns]; exact hr)), hrs⟩
    · exact ⟨_, (Table.mem_put_fresh happ.fresh).mpr (.inl rfl), rfl⟩

/-- The identities say of a history what it contains. -/
structure Counts (n : ℕ) (h : List ApplyCall) (db : Db) : Prop where
  recorded : db.Recorded
  counter : ∀ i ∈ db.sourceIdentities,
    i.consecutiveAbsences = absences h i.organizationID i.connectorID i.externalID ∧
    (i.status = .active ↔ absences h i.organizationID i.connectorID i.externalID < n)
  known : ∀ org connector e, (∃ i, db.sourceIdentities.get (org, connector, e) = some i) ↔
    ∃ c ∈ h, (c.snapshot.organizationID = org ∧ c.snapshot.connectorID = connector) ∧ c.contains e = true

theorem Counts.snoc {n : ℕ} {h : List ApplyCall} {c : ApplyCall} {sum : Summary} (hcs : Counts n h db) (hn : 1 ≤ n)
    (hth : c.missingThreshold = n) (hc : c.run db = .ok (sum, db')) : Counts n (h ++ [c]) db' := by
  obtain ⟨hcount, hrec⟩ := ApplyCall.counted hc hcs.recorded
  have heff : effectiveThreshold c.missingThreshold = n := by
    rw [effectiveThreshold, hth, if_neg (by omega)]
    simp
  refine ⟨hrec, fun i hi => ?_, fun org connector e => ?_⟩
  · have hget : db'.sourceIdentities.get (i.organizationID, i.connectorID, i.externalID) = some i :=
      Table.mem_iff_get.mp hi
    by_cases hmine : c.snapshot.organizationID = i.organizationID ∧
        c.snapshot.connectorID = i.connectorID
    · rw [absences_snoc_mine hmine]
      rw [← hmine.1, ← hmine.2] at hget
      cases he : c.contains i.externalID with
      | true =>
        obtain ⟨j, hj, habs, hst⟩ := hcount.seen _ he
        rw [hget] at hj
        cases hj
        rw [heff] at hst
        simpa using ⟨habs, hst⟩
      | false =>
        obtain ⟨i₀, hi₀, habs, hst⟩ := hcount.unseen _ i he hget
        obtain ⟨habs₀, hst₀⟩ := hcs.counter i₀ (Table.mem_of_get hi₀)
        have hkey : i₀.key = _ := Table.key_of_get hi₀
        have hk : i₀.organizationID = i.organizationID ∧ i₀.connectorID = i.connectorID ∧
            i₀.externalID = i.externalID :=
          ⟨(congrArg Prod.fst hkey).trans hmine.1, (congrArg (·.2.1) hkey).trans hmine.2,
            congrArg (·.2.2) hkey⟩
        rw [hk.1, hk.2.1, hk.2.2] at habs₀ hst₀
        rw [habs, hst, hst₀, heff]
        simp only [Bool.false_eq_true, ite_false]
        omega
    · rw [absences_snoc_other hmine]
      rw [hcount.others _ hmine] at hget
      exact hcs.counter i (Table.mem_of_get hget)
  · have hsplit : (∃ c' ∈ h ++ [c], (c'.snapshot.organizationID = org ∧ c'.snapshot.connectorID = connector) ∧
        c'.contains e = true) ↔ (∃ i, db.sourceIdentities.get (org, connector, e) = some i) ∨
        (c.snapshot.organizationID = org ∧ c.snapshot.connectorID = connector) ∧ c.contains e = true := by
      rw [hcs.known]
      simp only [List.mem_append, List.mem_singleton, or_and_right, exists_or, exists_eq_left]
    rw [hsplit]
    constructor
    · rintro ⟨i, hi⟩
      by_cases hmine : c.snapshot.organizationID = org ∧ c.snapshot.connectorID = connector
      · cases he : c.contains e with
        | true => exact .inr ⟨hmine, rfl⟩
        | false =>
          rw [← hmine.1, ← hmine.2] at hi ⊢
          obtain ⟨i₀, hi₀, -⟩ := hcount.unseen e i he hi
          exact .inl ⟨i₀, hi₀⟩
      · rw [hcount.others _ hmine] at hi
        exact .inl ⟨i, hi⟩
    · rintro (⟨i, hi⟩ | ⟨⟨rfl, rfl⟩, he⟩)
      · obtain ⟨i', hi', -⟩ := hcount.kept.identity _ i hi
        exact ⟨i', hi'⟩
      · obtain ⟨i, hi, -⟩ := hcount.seen e he
        exact ⟨i, hi⟩

theorem Runs.counts {n : ℕ} {db₀ : Db} {h : List ApplyCall} (hr : Runs db₀ h db) (h0 : db₀.InventoryEmpty) (hn : 1 ≤ n)
    (hth : ∀ c ∈ h, c.missingThreshold = n) : Counts n h db := by
  induction hr with
  | nil =>
    refine ⟨?_, ?_, ?_⟩
    · simp [Db.Recorded, h0.observations]
    · simp [h0.sourceIdentities]
    · simp [h0.sourceIdentities]
  | succeed _ hc ih =>
    exact (ih fun c hc => hth c (by simp [hc])).snoc hn (hth _ (by simp)) hc
  | fail _ _ ih => exact ih hth
  | other _ _ _ _ _ _ _ ih =>
    obtain ⟨h1, h2, h3⟩ := ih hth
    exact ⟨h1, h2, h3⟩

/-- Under one threshold `n` the counter of an identity is the number of its
connector's snapshots since the last that contains it, the identity is ACTIVE
while that is below `n`, and an asset is MISSING exactly when every identity
bound to it is absent from the `n` latest snapshots of its connector. -/
theorem runs_absences {n : ℕ} {db₀ : Db} {h : List ApplyCall} (h0 : db₀.InventoryEmpty) (hr : Runs db₀ h db)
    (hn : 1 ≤ n) (hth : ∀ c ∈ h, c.missingThreshold = n) : (∀ i ∈ db.sourceIdentities,
      i.consecutiveAbsences = absences h i.organizationID i.connectorID i.externalID ∧
      (i.status = .active ↔ absences h i.organizationID i.connectorID i.externalID < n)) ∧
    (∀ org connector e, (∃ i, db.sourceIdentities.get (org, connector, e) = some i) ↔
      ∃ c ∈ h, (c.snapshot.organizationID = org ∧ c.snapshot.connectorID = connector) ∧
        c.contains e = true) ∧
    ∀ r ∈ db.assets, r.status = .missing ↔ ∀ i ∈ db.sourceIdentities, i.assetID = r.id →
      AbsentFromLatest n h i.organizationID i.connectorID i.externalID := by
  have hcs := hr.counts h0 hn hth
  refine ⟨hcs.counter, hcs.known, fun r hrm => ?_⟩
  rw [((hr.inventory h0).settled r hrm).missing, ← Bool.not_eq_true, anyActive_iff]
  push Not
  refine forall₂_congr fun i hi => imp_congr_right fun _ => ?_
  rw [absentFromLatest_iff, Ne, (hcs.counter i hi).2, not_lt]

end

/-- Both connectors with the threshold of the deployment. -/
theorem runs_absences_deployment :
    (∀ c ∈ deployment, c.missingThreshold = (1 : ℕ)) ∧ absences deployment "org" "one" "app" = 1 ∧
      absences deployment "org" "two" "other-app" = 0 ∧
      ∀ i ∈ (replayed deployment).sourceIdentities,
        i.consecutiveAbsences = absences deployment i.organizationID i.connectorID i.externalID ∧
        (i.status = .active ↔ absences deployment i.organizationID i.connectorID i.externalID < 1) :=
  ⟨by decide, by decide +kernel, by decide +kernel,
    (@runs_absences toy _ 1 _ _ emptyDb_inventory (runs_replayed replays_deployment) le_rfl
      (by decide)).1⟩

end Infragraph
