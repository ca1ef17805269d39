import Infragraph.Sanity.Apply
import Infragraph.Proofs.Effective

/-! The authority of a claim. The lookup of `ApplyPostgres` takes a most specific
matching policy; which one, when several tie, is left to the physical order, and
rows scoped to a relationship type match like the others. The environment then
selected is that of `Effective` unless a connector without an entry meets an OBSERVED
or a DECLARED one, or the times of two reports tie once they are stored. -/

namespace Infragraph

open Relational

section

variable {α β : Type} [LinearOrder β] {before : α → α → Bool} {key : α → β}

theorem firstBy_snoc (before : α → α → Bool) (rows : List α) (x : α) : firstBy before (rows ++ [x]) =
      (firstBy before rows).elim (some x) fun b => if before x b then some x else some b := by
  rw [firstBy, List.foldl_append, ← firstBy]
  cases firstBy before rows <;> rfl

section

variable (hkey : ∀ a b, before a b = true ↔ key b < key a)
include hkey

/-- `LIMIT 1` returns a row that no other row comes before. -/
theorem firstBy_spec (rows : List α) : (firstBy before rows = none ∧ rows = []) ∨
      ∃ r ∈ rows, firstBy before rows = some r ∧ ∀ x ∈ rows, key x ≤ key r := by
  induction rows using List.reverseRecOn with
  | nil => exact .inl ⟨rfl, rfl⟩
  | append_singleton rows x ih =>
    right
    rw [firstBy_snoc]
    rcases ih with ⟨hnone, hnil⟩ | ⟨r, hr, hsome, hmax⟩
    · rw [hnone, hnil]
      exact ⟨x, by simp, rfl, by simp⟩
    · rw [hsome]
      simp only [Option.elim_some]
      by_cases hx : before x r = true
      · refine ⟨x, by simp, by rw [if_pos hx], fun y hy => ?_⟩
        rcases List.mem_append.mp hy with hy | hy
        · exact (hmax y hy).trans ((hkey x r).mp hx).le
        · rw [List.mem_singleton.mp hy]
      · refine ⟨r, by simp [hr], by rw [if_neg hx], fun y hy => ?_⟩
        rcases List.mem_append.mp hy with hy | hy
        · exact hmax y hy
        · rw [List.mem_singleton.mp hy]
          exact not_lt.mp fun hlt => hx ((hkey x r).mpr hlt)

theorem firstBy_eq_none {rows : List α} : firstBy before rows = none ↔ rows = [] := by
  rcases firstBy_spec hkey rows with ⟨hnone, hnil⟩ | ⟨r, hr, hsome, -⟩
  · exact ⟨fun _ => hnil, fun _ => hnone⟩
  · rw [hsome]
    simp only [reduceCtorEq, false_iff]
    intro hnil
    simp [hnil] at hr

theorem firstBy_eq_some {rows : List α} {r : α}
    (h : firstBy before rows = some r) : r ∈ rows ∧ ∀ x ∈ rows, key x ≤ key r := by
  rcases firstBy_spec hkey rows with ⟨hnone, -⟩ | ⟨r', hr', hsome, hmax⟩
  · rw [hnone] at h
    cases h
  · rw [hsome] at h
    cases h
    exact ⟨hr', hmax⟩

end

theorem firstBy_cons {r : α} {rows : List α} (h : ∀ x ∈ rows, before x r = false) :
    firstBy before (r :: rows) = some r := by
  induction rows using List.reverseRecOn with
  | nil => rfl
  | append_singleton rows x ih =>
    rw [← List.cons_append, firstBy_snoc, ih fun y hy => h y (by simp [hy])]
    simp [h x (by simp)]

end

def PolicyRow.specificity (p : PolicyRow) : ℕ ×ₗ ℕ ×ₗ ℕ ×ₗ ℤ :=
  toLex (p.connectorID.isSome.toNat, toLex (p.assetType.isSome.toNat,
    toLex (p.attributeKey.isSome.toNat, p.precedence)))

theorem PolicyRow.before_iff (a b : PolicyRow) : a.before b = true ↔ b.specificity < a.specificity := by
  simp [PolicyRow.before, PolicyRow.specificity]

section

variable (db : Db) (org connector assetType key : String)

def Db.authorityRow : Option PolicyRow :=
  firstBy PolicyRow.before (db.policies.rows.filter (·.matches org connector assetType key))

/-- A matching row that no matching row is more specific than. -/
def Db.MostSpecific (p : PolicyRow) : Prop :=
  p ∈ db.policies ∧ p.matches org connector assetType key = true ∧
    ∀ q ∈ db.policies, q.matches org connector assetType key = true → q.specificity ≤ p.specificity

/-- The authority is a function of the policy set: in every physical order of the
rows it is that of a most specific row, one without a relationship type, or
OBSERVED when no row matches; and it is the same in every order. -/
structure Db.AuthorityDetermined : Prop where
  selected : ∀ db' : Db, db'.policies.rows.Perm db.policies.rows →
    (∃ p, db'.authorityRow org connector assetType key = some p ∧
        db.MostSpecific org connector assetType key p ∧ p.relationshipType = none ∧
        db'.authority org connector assetType key = p.authority) ∨
      (∀ p ∈ db.policies, p.matches org connector assetType key = false) ∧
        db'.authority org connector assetType key = "OBSERVED"
  order : ∀ db' : Db, db'.policies.rows.Perm db.policies.rows →
    db'.authority org connector assetType key = db.authority org connector assetType key

end

variable {db db' : Db} {org connector assetType key : String} {p q : PolicyRow}

theorem authority_of_row (h : db.authorityRow org connector assetType key = some p) :
    db.authority org connector assetType key = p.authority := by
  unfold Db.authorityRow at h
  unfold Db.authority
  rw [h]

theorem authority_of_no_row (h : db.authorityRow org connector assetType key = none) :
    db.authority org connector assetType key = "OBSERVED" := by
  unfold Db.authorityRow at h
  unfold Db.authority
  rw [h]

theorem mostSpecific_of_row (h : db.authorityRow org connector assetType key = some p) :
    db.MostSpecific org connector assetType key p := by
  obtain ⟨hp, hmax⟩ := firstBy_eq_some PolicyRow.before_iff h
  obtain ⟨hmem, hmatches⟩ := List.mem_filter.mp hp
  exact ⟨hmem, hmatches, fun q hq hqm => hmax q (List.mem_filter.mpr ⟨hq, hqm⟩)⟩

theorem no_match_of_no_row (h : db.authorityRow org connector assetType key = none) :
    ∀ p ∈ db.policies, p.matches org connector assetType key = false := by
  have hnil := (firstBy_eq_none PolicyRow.before_iff).mp h
  intro p hp
  have := List.filter_eq_nil_iff.mp hnil p hp
  simpa using this

theorem mem_policies_perm (h : db'.policies.rows.Perm db.policies.rows) : p ∈ db'.policies ↔ p ∈ db.policies :=
  h.mem_iff

theorem mostSpecific_perm (h : db'.policies.rows.Perm db.policies.rows) :
    db'.MostSpecific org connector assetType key p ↔ db.MostSpecific org connector assetType key p := by
  simp only [Db.MostSpecific, mem_policies_perm h]

/-- Any most specific row is the one found in some physical order. -/
theorem exists_order (h : db.MostSpecific org connector assetType key p) :
    ∃ db' : Db, db'.policies.rows.Perm db.policies.rows ∧ db'.authorityRow org connector assetType key = some p := by
  obtain ⟨hp, hmatches, hmax⟩ := h
  obtain ⟨before, after, hrows⟩ := List.append_of_mem (show p ∈ db.policies.rows from hp)
  have hperm : (p :: (before ++ after)).Perm db.policies.rows := hrows ▸ List.perm_middle.symm
  have hnodup : ((p :: (before ++ after)).map PolicyRow.id).Nodup :=
    (hperm.map PolicyRow.id).nodup_iff.mpr db.policies.nodup
  refine ⟨{ db with policies := ⟨p :: (before ++ after), hnodup⟩ }, hperm, ?_⟩
  unfold Db.authorityRow
  simp only [List.filter_cons, hmatches, if_true]
  apply firstBy_cons
  intro q hq
  obtain ⟨hq, hqm⟩ := List.mem_filter.mp hq
  have hle := hmax q (hperm.mem_iff.mp (.tail _ hq)) hqm
  rw [← Bool.not_eq_true, PolicyRow.before_iff, not_lt]
  exact hle

/-- The authority is determined by the policy set exactly when the most specific
matching rows have one authority and none of them is scoped to a relationship type. -/
theorem authority_determined_iff (db : Db) (org connector assetType key : String) :
    db.AuthorityDetermined org connector assetType key ↔
      ∀ p q, db.MostSpecific org connector assetType key p → db.MostSpecific org connector assetType key q →
        p.relationshipType = none ∧ p.authority = q.authority := by
  constructor
  · intro h
    have hfound : ∀ p, db.MostSpecific org connector assetType key p →
        p.relationshipType = none ∧ p.authority = db.authority org connector assetType key := by
      intro p hp
      obtain ⟨db', hperm, hrow⟩ := exists_order hp
      have horder := h.order db' hperm
      rcases h.selected db' hperm with ⟨p', hrow', -, hscope, -⟩ | ⟨hnone, -⟩
      · cases hrow.symm.trans hrow'
        exact ⟨hscope, (authority_of_row hrow).symm.trans horder⟩
      · exact absurd hp.2.1 (by simp [hnone p hp.1])
    intro p q hp hq
    exact ⟨(hfound p hp).1, (hfound p hp).2.trans (hfound q hq).2.symm⟩
  · intro h
    refine ⟨?_, ?_⟩
    · intro db' hperm
      cases hrow : db'.authorityRow org connector assetType key with
      | none =>
        refine .inr ⟨fun p hp => ?_, authority_of_no_row hrow⟩
        exact no_match_of_no_row hrow p ((mem_policies_perm hperm).mpr hp)
      | some p =>
        have hp := (mostSpecific_perm hperm).mp (mostSpecific_of_row hrow)
        exact .inl ⟨p, rfl, hp, (h p p hp hp).1, authority_of_row hrow⟩
    · intro db' hperm
      cases hrow : db'.authorityRow org connector assetType key with
      | none =>
        have hnone := no_match_of_no_row hrow
        cases hrow' : db.authorityRow org connector assetType key with
        | none => rw [authority_of_no_row hrow, authority_of_no_row hrow']
        | some p =>
          have hp := mostSpecific_of_row hrow'
          have := hnone p ((mem_policies_perm hperm).mpr hp.1)
          exact absurd hp.2.1 (by simp [this])
      | some p =>
        have hp := (mostSpecific_perm hperm).mp (mostSpecific_of_row hrow)
        cases hrow' : db.authorityRow org connector assetType key with
        | none =>
          have := no_match_of_no_row hrow' p hp.1
          exact absurd hp.2.1 (by simp [this])
        | some q =>
          rw [authority_of_row hrow, authority_of_row hrow']
          exact (h p q hp (mostSpecific_of_row hrow')).2

def policyRow (id authority : String) (relationshipType : Option String) : PolicyRow :=
  { id := id, organizationID := "org", connectorID := none, assetType := none, attributeKey := none
    relationshipType := relationshipType, authority := authority, precedence := 1, missingSuccessThreshold := 2 }

def policyDb (rows : List PolicyRow) (h : (rows.map PolicyRow.id).Nodup) : Db := { emptyDb with policies := ⟨rows, h⟩ }

/-- Two rows of one precedence give either authority, by their physical order; and
a row for relationships decides about an attribute. -/
theorem tied_policies_undetermined :
    (policyDb [policyRow "p" "AUTHORITATIVE" none, policyRow "q" "DECLARED" none] (by decide)).authority
        "org" "docker" "CONTAINER" "environment" = "AUTHORITATIVE" ∧
    (policyDb [policyRow "q" "DECLARED" none, policyRow "p" "AUTHORITATIVE" none] (by decide)).authority
        "org" "docker" "CONTAINER" "environment" = "DECLARED" ∧
    (policyDb [policyRow "r" "AUTHORITATIVE" (some "RUNS_ON")] (by decide)).authorityRow
        "org" "docker" "CONTAINER" "environment" = some (policyRow "r" "AUTHORITATIVE" (some "RUNS_ON")) := by
  refine ⟨by decide, by decide, rfl⟩

/-- `policy.AttributeAuthority[connector][attribute]`, if there is one. -/
def Memory.Policy.entry (p : Memory.Policy) (connector attributeKey : String) : Option String :=
  (p.attributeAuthority.get connector).bind fun m => m.get attributeKey

/-- The rows of an organization are the entries of the policy. -/
structure Corresponds (policy : Memory.Policy) (org : String) (policies : Table PolicyRow.id) : Prop where
  row : ∀ p ∈ policies, p.organizationID = org → ∃ connector attributeKey, p.connectorID = some connector ∧
    p.assetType = none ∧ p.attributeKey = some attributeKey ∧ p.relationshipType = none ∧
    policy.entry connector attributeKey = some p.authority
  entry : ∀ connector attributeKey authority, policy.entry connector attributeKey = some authority →
    ∃ p ∈ policies, p.organizationID = org ∧ p.connectorID = some connector ∧
      p.attributeKey = some attributeKey

/-- A configured authority is stored; without one, OBSERVED is. -/
theorem Corresponds.authority {policy : Memory.Policy} (h : Corresponds policy org db.policies) :
    db.authority org connector assetType key = (policy.entry connector key).getD "OBSERVED" := by
  have hmatch : ∀ p ∈ db.policies, p.matches org connector assetType key = true →
      policy.entry connector key = some p.authority := by
    intro p hp hm
    simp only [PolicyRow.matches, Bool.decide_and, Bool.and_eq_true, decide_eq_true_eq] at hm
    obtain ⟨connector', key', hconnector, -, hkey, -, hentry⟩ := h.row p hp hm.1
    simp only [hconnector, hkey, reduceCtorEq, Option.some.injEq, false_or] at hm
    rw [← hm.2.1, ← hm.2.2.2, hentry]
  cases hrow : db.authorityRow org connector assetType key with
  | some p =>
    have hp := mostSpecific_of_row hrow
    rw [authority_of_row hrow, hmatch p hp.1 hp.2.1]
    rfl
  | none =>
    rw [authority_of_no_row hrow]
    cases hentry : policy.entry connector key with
    | none => rfl
    | some authority =>
      obtain ⟨p, hp, horg, hconnector, hkey⟩ := h.entry _ _ _ hentry
      obtain ⟨connector', key', -, htype, -, -, -⟩ := h.row p hp horg
      have hm := no_match_of_no_row hrow p hp
      simp [PolicyRow.matches, horg, hconnector, hkey, htype] at hm

/-- An observation that reports an environment, in the snapshot and at the clock
with which it was applied. -/
structure Report where
  snapshot : SnapshotEnvelope
  observation : Observation
  now : Time
  environment : String

def Report.claim (policy : Memory.Policy) (asset : String) (r : Report) : Memory.AttributeClaim :=
  { assetID := asset, attributeKey := "environment", value := .str r.environment
    connectorID := r.snapshot.connectorID, snapshotID := r.snapshot.snapshotID
    observedAt := r.observation.observedAt
    authority := policy.authority r.snapshot.connectorID "environment", confidence := "OBSERVED", active := true }

/-- By what the connector of a report is configured as. -/
inductive ReportKind where
  | authoritative
  | observed
  /-- DECLARED, or any other authority -/
  | declared
  | unconfigured
deriving DecidableEq

def Report.kind (policy : Memory.Policy) (r : Report) : ReportKind :=
  match policy.entry r.snapshot.connectorID "environment" with
  | none => .unconfigured
  | some authority =>
    if authority = "AUTHORITATIVE" then .authoritative
    else if authority = "OBSERVED" then .observed else .declared

def ReportKind.configured : ReportKind → ℕ
  | .authoritative => 3
  | .observed => 2
  | _ => 1

/-- The rank of what is stored, where no entry is OBSERVED. -/
def ReportKind.stored : ReportKind → ℕ
  | .authoritative => 3
  | .declared => 1
  | _ => 2

theorem rank_kind (policy : Memory.Policy) (r : Report) :
    Memory.rank (policy.authority r.snapshot.connectorID "environment") = (r.kind policy).configured ∧
      authorityRank ((policy.entry r.snapshot.connectorID "environment").getD "OBSERVED") =
        (r.kind policy).stored := by
  have hauthority : policy.authority r.snapshot.connectorID "environment" =
    (policy.entry r.snapshot.connectorID "environment").getD "" := rfl
  rw [hauthority]
  unfold Report.kind
  cases policy.entry r.snapshot.connectorID "environment" with
  | none => exact ⟨rfl, rfl⟩
  | some authority =>
    simp only [Option.getD_some, Memory.rank, authorityRank]
    split_ifs <;> exact ⟨rfl, rfl⟩

/-- The last among the reports of some kinds, by some time. -/
def Last {β : Type} [LE β] (policy : Memory.Policy) (reports : List Report) (time : Report → β)
    (kinds : List ReportKind) (r : Report) : Prop :=
  r ∈ reports ∧ r.kind policy ∈ kinds ∧ ∀ r' ∈ reports, r'.kind policy ∈ kinds → time r' ≤ time r

/-- A last report of the second kind that is later than the last one of the first kind
repeats its environment. -/
def Repeats (policy : Memory.Policy) (reports : List Report) (k k' : ReportKind) : Prop :=
  ∀ r r', Last policy reports (·.observation.observedAt) [k] r →
    Last policy reports (·.observation.observedAt) [k'] r' →
    r.observation.observedAt < r'.observation.observedAt → r.environment = r'.environment

def Prevails {β : Type} [LT β] (standing : Report → β) (reports : List Report) (r : Report) : Prop :=
  r ∈ reports ∧ ∀ r' ∈ reports, ¬ standing r < standing r'

def configuredStanding (policy : Memory.Policy) (r : Report) : ℕ ×ₗ ℤ :=
  toLex ((r.kind policy).configured, r.observation.observedAt)

def ClaimRow.standing (c : ClaimRow) : ℕ ×ₗ ℤ ×ₗ String :=
  toLex (authorityRank c.authority, toLex (c.observedAt, c.id))

theorem ClaimRow.before_iff (a b : ClaimRow) : a.before b = true ↔ b.standing < a.standing := by
  simp only [ClaimRow.before, ClaimRow.standing, Prod.Lex.toLex_lt_toLex, decide_eq_true_eq, toLex_inj,
    Prod.mk.injEq]
  tauto

variable {policy : Memory.Policy} {asset : String} {reports : List Report}

theorem relevant_reports : Memory.relevant (reports.map (Report.claim policy asset)) "environment" =
    reports.map (Report.claim policy asset) := by
  unfold Memory.relevant
  rw [List.filter_eq_self]
  intro c hc
  obtain ⟨r, -, rfl⟩ := List.mem_map.mp hc
  simp [Report.claim]

theorem effective_reports (policy : Memory.Policy) (asset : String) (reports : List Report) : reports = [] ∧
        (Memory.effective (reports.map (Report.claim policy asset)) "environment" policy).value = .null ∨
      ∃ r, Prevails (configuredStanding policy) reports r ∧
        (Memory.effective (reports.map (Report.claim policy asset)) "environment" policy).value =
          .str r.environment := by
  rcases Memory.effective_value (reports.map (Report.claim policy asset)) "environment" policy with
    ⟨hnil, hvalue⟩ | ⟨c, hc, hvalue⟩
  · rw [relevant_reports, List.map_eq_nil_iff] at hnil
    exact .inl ⟨hnil, hvalue⟩
  · rw [relevant_reports] at hc
    obtain ⟨r, hr, rfl⟩ := List.mem_map.mp hc.1
    refine .inr ⟨r, ⟨hr, fun r' hr' => ?_⟩, hvalue⟩
    have hbeaten := hc.2 _ (List.mem_map_of_mem hr')
    rw [policy.less_iff] at hbeaten
    unfold configuredStanding
    rw [← (rank_kind policy r).1, ← (rank_kind policy r').1]
    exact hbeaten

/-- Where the reports of some kinds rank above all others, the last of them prevails. -/
theorem prevails_iff_last {β : Type} [LinearOrder β] {rank : ReportKind → ℕ} {time : Report → β}
    {kinds : List ReportKind} {top : ℕ} (htop : ∀ k ∈ kinds, rank k = top)
    (hbelow : ∀ r ∈ reports, r.kind policy ∉ kinds → rank (r.kind policy) < top)
    (hsome : ∃ r ∈ reports, r.kind policy ∈ kinds) (r : Report) :
    Prevails (fun r => toLex (rank (r.kind policy), time r)) reports r ↔ Last policy reports time kinds r := by
  obtain ⟨x, hx, hxk⟩ := hsome
  simp only [Prevails, Last, Prod.Lex.toLex_lt_toLex, not_or, not_and, not_lt]
  constructor
  · rintro ⟨hr, hmax⟩
    have hk : r.kind policy ∈ kinds := by
      by_contra hk
      have hle := (hmax x hx).1
      rw [htop _ hxk] at hle
      exact absurd (hbelow r hr hk) (not_lt.mpr hle)
    exact ⟨hr, hk, fun r' hr' hk' => (hmax r' hr').2 ((htop _ hk).trans (htop _ hk').symm)⟩
  · rintro ⟨hr, hk, hlast⟩
    refine ⟨hr, fun r' hr' => ?_⟩
    rw [htop _ hk]
    by_cases hk' : r'.kind policy ∈ kinds
    · exact ⟨(htop _ hk').le, fun _ => hlast r' hr' hk'⟩
    · have hlow := hbelow r' hr' hk'
      exact ⟨hlow.le, fun heq => absurd heq.symm hlow.ne⟩

theorem lt_of_timestamptz_lt {t t' : ℤ} (h : timestamptz t < timestamptz t') : t < t' := by
  have h' : t - t % 1000 < t' - t' % 1000 := h
  omega

theorem last_unique (htimes : (reports.map fun r => r.observation.observedAt).Nodup) {kinds : List ReportKind}
    {r r' : Report} (hr : Last policy reports (·.observation.observedAt) kinds r)
    (hr' : Last policy reports (·.observation.observedAt) kinds r') : r = r' :=
  List.inj_on_of_nodup_map htimes hr.1 hr'.1
    (le_antisymm (hr'.2.2 r hr.1 hr.2.1) (hr.2.2 r' hr'.1 hr'.2.1))

/-- Two kinds counted as one: only a later report of the second kind changes the last. -/
theorem repeats_iff (htimes : (reports.map fun r => r.observation.observedAt).Nodup) (k k' : ReportKind) :
    Repeats policy reports k k' ↔ ∀ r r', Last policy reports (·.observation.observedAt) [k] r →
      Last policy reports (·.observation.observedAt) [k, k'] r' → r.environment = r'.environment := by
  constructor
  · intro h r r' hr hr'
    have hle : r.observation.observedAt ≤ r'.observation.observedAt :=
      hr'.2.2 r hr.1 (by simp [List.mem_singleton.mp hr.2.1])
    rcases List.mem_pair.mp hr'.2.1 with hk | hk
    · rw [last_unique htimes hr ⟨hr'.1, by simp [hk], fun x hx hxk => hr'.2.2 x hx (by simp_all)⟩]
    · rcases hle.lt_or_eq with hlt | heq
      · exact h r r' hr ⟨hr'.1, by simp [hk], fun x hx hxk => hr'.2.2 x hx (by simp_all)⟩ hlt
      · rw [List.inj_on_of_nodup_map htimes hr.1 hr'.1 heq]
  · intro h r r' hr hr' hlt
    refine h r r' hr ⟨hr'.1, by simp [List.mem_singleton.mp hr'.2.1], fun x hx hxk => ?_⟩
    rcases List.mem_pair.mp hxk with hk | hk
    · exact (hr.2.2 x hx (by simp [hk])).trans hlt.le
    · exact hr'.2.2 x hx (by simp [hk])

section

variable [Hashes]

def Report.row (db : Db) (asset : String) (r : Report) : ClaimRow :=
  claimRow r.snapshot r.observation asset (orNow r.observation.observedAt r.now)
    (db.authority r.snapshot.organizationID r.snapshot.connectorID r.observation.assetType "environment")
    ("environment", .str r.environment)

/-- When the claim is stored, in microseconds; claims of one time go by their ID. -/
def Report.storedAt (r : Report) : ℤ ×ₗ String :=
  toLex (timestamptz (orNow r.observation.observedAt r.now),
    stableID "claim" [r.snapshot.snapshotID, r.observation.externalID, "environment"])

/-- The report of these kinds that was observed last and the one of those kinds that was
stored last name one environment. -/
def Meet (policy : Memory.Policy) (reports : List Report) (kinds kinds' : List ReportKind) : Prop :=
  ∀ r r', Last policy reports (·.observation.observedAt) kinds r → Last policy reports Report.storedAt kinds' r' →
    r.environment = r'.environment

/-- The reports that the two selections take, by who reports. -/
structure EnvironmentsMeet (policy : Memory.Policy) (reports : List Report) : Prop where
  authoritative : Meet policy reports [.authoritative] [.authoritative]
  /-- In the database a connector without an entry counts as much as an OBSERVED one. -/
  observed : (∀ r ∈ reports, r.kind policy ≠ .authoritative) →
    Meet policy reports [.observed] [.observed, .unconfigured]
  /-- In memory it counts as much as a DECLARED one. -/
  unconfigured : (∀ r ∈ reports, r.kind policy ≠ .authoritative ∧ r.kind policy ≠ .observed) →
    Meet policy reports [.unconfigured, .declared] [.unconfigured]
  declared : (∀ r ∈ reports, r.kind policy = .declared) → Meet policy reports [.declared] [.declared]

def storedStanding (policy : Memory.Policy) (r : Report) : ℕ ×ₗ ℤ ×ₗ String :=
  toLex ((r.kind policy).stored, r.storedAt)

/-- The leaders by the two standings carry one environment. -/
def LeadersAgree (policy : Memory.Policy) (reports : List Report) : Prop :=
  ∀ r r', Prevails (configuredStanding policy) reports r → Prevails (storedStanding policy) reports r' →
    r.environment = r'.environment

/-- The reports of an asset's environment, and the claims stored for them. -/
structure Reported (policy : Memory.Policy) (db : Db) (org asset : String) (reports : List Report) : Prop where
  policies : Corresponds policy org db.policies
  owner : ∀ r ∈ reports, r.snapshot.organizationID = org
  times : (reports.map fun r => r.observation.observedAt).Nodup
  stored : ((db.activeClaims org asset).filter fun c => c.attributeKey = "environment").Perm
    (reports.map (Report.row db asset))

section

variable (h : Reported policy db org asset reports)
include h

theorem Reported.standing {r : Report} (hr : r ∈ reports) :
    (r.row db asset).standing = storedStanding policy r := by
  have hauthority : (r.row db asset).authority =
      (policy.entry r.snapshot.connectorID "environment").getD "OBSERVED" := by
    rw [← h.policies.authority, ← h.owner r hr]
    rfl
  unfold ClaimRow.standing
  rw [hauthority, (rank_kind policy r).2]
  rfl

theorem Reported.effectiveValue :
    reports = [] ∧ db.effectiveValue org asset ["environment"] = none ∨
      ∃ r, Prevails (storedStanding policy) reports r ∧
        db.effectiveValue org asset ["environment"] = some r.environment := by
  have hrows : (db.activeClaims org asset).filter (fun c => ["environment"].contains c.attributeKey) =
      (db.activeClaims org asset).filter fun c => c.attributeKey = "environment" :=
    List.filter_congr fun c _ => by simp
  unfold Db.effectiveValue
  rw [hrows]
  cases hfirst : firstBy ClaimRow.before _ with
  | none =>
    have hnil := (firstBy_eq_none ClaimRow.before_iff).mp hfirst
    have hperm := h.stored
    rw [hnil] at hperm
    exact .inl ⟨List.map_eq_nil_iff.mp hperm.nil_eq.symm, rfl⟩
  | some c =>
    obtain ⟨hc, hmax⟩ := firstBy_eq_some ClaimRow.before_iff hfirst
    obtain ⟨r, hr, rfl⟩ := List.mem_map.mp (h.stored.mem_iff.mp hc)
    refine .inr ⟨r, ⟨hr, fun r' hr' => ?_⟩, rfl⟩
    have hle := hmax _ (h.stored.mem_iff.mpr (List.mem_map_of_mem hr'))
    rw [h.standing hr, h.standing hr'] at hle
    exact not_lt.mpr hle

theorem Reported.configured_unique {r r' : Report}
    (hr : Prevails (configuredStanding policy) reports r) (hr' : Prevails (configuredStanding policy) reports r') :
    r = r' := by
  have heq : configuredStanding policy r = configuredStanding policy r' :=
    le_antisymm (not_lt.mp (hr'.2 r hr.1)) (not_lt.mp (hr.2 r' hr'.1))
  have htime : r.observation.observedAt = r'.observation.observedAt := congrArg (fun s => (ofLex s).2) heq
  exact List.inj_on_of_nodup_map h.times hr.1 hr'.1 htime

theorem Reported.stored_unique {r r' : Report}
    (hr : Prevails (storedStanding policy) reports r) (hr' : Prevails (storedStanding policy) reports r') : r = r' := by
  have heq : storedStanding policy r = storedStanding policy r' :=
    le_antisymm (not_lt.mp (hr'.2 r hr.1)) (not_lt.mp (hr.2 r' hr'.1))
  have hid : (r.row db asset).id = (r'.row db asset).id := congrArg (fun s => (ofLex (ofLex s).2).2) heq
  have hnodup : ((db.activeClaims org asset).filter (fun c => c.attributeKey = "environment")).map
      ClaimRow.id |>.Nodup :=
    db.claims.nodup.sublist ((List.filter_sublist.trans List.filter_sublist).map ClaimRow.id)
  have hreports : (reports.map fun r => (r.row db asset).id).Nodup := by
    have := ((h.stored.map ClaimRow.id).nodup_iff).mp hnodup
    rwa [List.map_map] at this
  exact List.inj_on_of_nodup_map hreports hr.1 hr'.1 hid

theorem Reported.agrees_iff : db.effectiveValue org asset ["environment"] =
        (Memory.effective (reports.map (Report.claim policy asset)) "environment" policy).value.unquoted ↔
      LeadersAgree policy reports := by
  rcases h.effectiveValue with ⟨hnil, hvalue⟩ | ⟨r', hr', hvalue⟩
  · rcases effective_reports policy asset reports with ⟨-, heffective⟩ | ⟨r, hr, -⟩
    · rw [hvalue, heffective]
      refine ⟨fun _ r r' hr _ => ?_, fun _ => rfl⟩
      have := hr.1
      simp [hnil] at this
    · have := hr.1
      simp [hnil] at this
  · rcases effective_reports policy asset reports with ⟨hnil, -⟩ | ⟨r, hr, heffective⟩
    · have := hr'.1
      simp [hnil] at this
    · rw [hvalue, heffective]
      constructor
      · intro heq x x' hx hx'
        rw [h.configured_unique hx hr, h.stored_unique hx' hr']
        exact (Option.some.inj heq).symm
      · intro hall
        exact congrArg some (hall r r' hr hr').symm

end

theorem leadersAgree_iff_meet (present kinds kinds' : List ReportKind) (top top' : ℕ)
    (hpresent : ∀ r ∈ reports, r.kind policy ∈ present) {x : Report} (hx : x ∈ reports)
    (hkinds : x.kind policy ∈ kinds ∧ x.kind policy ∈ kinds')
    (hconfigured : (∀ k ∈ kinds, k.configured = top) ∧ ∀ k ∈ present, k ∉ kinds → k.configured < top)
    (hstored : (∀ k ∈ kinds', k.stored = top') ∧ ∀ k ∈ present, k ∉ kinds' → k.stored < top') :
    LeadersAgree policy reports ↔ Meet policy reports kinds kinds' := by
  have hc : ∀ r, Prevails (configuredStanding policy) reports r ↔
      Last policy reports (·.observation.observedAt) kinds r := fun r =>
    prevails_iff_last hconfigured.1 (fun r hr => hconfigured.2 _ (hpresent r hr)) ⟨x, hx, hkinds.1⟩ r
  have hs : ∀ r, Prevails (storedStanding policy) reports r ↔ Last policy reports Report.storedAt kinds' r := fun r =>
    prevails_iff_last hstored.1 (fun r hr => hstored.2 _ (hpresent r hr)) ⟨x, hx, hkinds.2⟩ r
  simp only [LeadersAgree, hc, hs, Meet]

theorem meet_of_absent {kinds kinds' : List ReportKind} (habsent : ∀ r ∈ reports, r.kind policy ∉ kinds) :
    Meet policy reports kinds kinds' := fun r _ hr _ => absurd hr.2.1 (habsent r hr.1)

theorem leadersAgree_authoritative {a : Report} (ha : a ∈ reports) (hkind : a.kind policy = .authoritative) :
    LeadersAgree policy reports ↔ EnvironmentsMeet policy reports := by
  rw [leadersAgree_iff_meet [.authoritative, .observed, .declared, .unconfigured] [.authoritative] [.authoritative] 3 3
    (fun r _ => by cases r.kind policy <;> simp) ha (by simp [hkind]) (by decide) (by decide)]
  refine ⟨fun hmeet => ⟨hmeet, fun hno => absurd hkind (hno a ha), fun hno => absurd hkind (hno a ha).1,
    fun hall => ?_⟩, fun hmeet => hmeet.authoritative⟩
  exact absurd (hkind.symm.trans (hall a ha)) (by decide)

theorem leadersAgree_observed (hA : ∀ r ∈ reports, r.kind policy ≠ .authoritative) {o : Report} (ho : o ∈ reports)
    (hkind : o.kind policy = .observed) : LeadersAgree policy reports ↔ EnvironmentsMeet policy reports := by
  have hpresent : ∀ r ∈ reports, r.kind policy ∈ [ReportKind.observed, .declared, .unconfigured] := fun r hr => by
    have := hA r hr
    cases hk : r.kind policy <;> simp_all
  rw [leadersAgree_iff_meet _ [.observed] [.observed, .unconfigured] 2 2 hpresent ho (by simp [hkind])
    (by decide) (by decide)]
  refine ⟨fun hmeet => ⟨meet_of_absent fun r hr => by simpa using hA r hr, fun _ => hmeet,
    fun hno => absurd hkind (hno o ho).2, fun hall => ?_⟩, fun hmeet => hmeet.observed hA⟩
  exact absurd (hkind.symm.trans (hall o ho)) (by decide)

theorem leadersAgree_unconfigured
    (hAO : ∀ r ∈ reports, r.kind policy ≠ .authoritative ∧ r.kind policy ≠ .observed) {u : Report} (hu : u ∈ reports)
    (hkind : u.kind policy = .unconfigured) : LeadersAgree policy reports ↔ EnvironmentsMeet policy reports := by
  have hpresent : ∀ r ∈ reports, r.kind policy ∈ [ReportKind.declared, .unconfigured] := fun r hr => by
    have := hAO r hr
    cases hk : r.kind policy <;> simp_all
  rw [leadersAgree_iff_meet _ [.unconfigured, .declared] [.unconfigured] 1 2 hpresent hu (by simp [hkind])
    (by decide) (by decide)]
  refine ⟨fun hmeet => ⟨meet_of_absent fun r hr => by simpa using (hAO r hr).1,
    fun _ => meet_of_absent fun r hr => by simpa using (hAO r hr).2, fun _ => hmeet, fun hall => ?_⟩,
    fun hmeet => hmeet.unconfigured hAO⟩
  exact absurd (hkind.symm.trans (hall u hu)) (by decide)

theorem leadersAgree_declared (hD : ∀ r ∈ reports, r.kind policy = .declared) :
    LeadersAgree policy reports ↔ EnvironmentsMeet policy reports := by
  have hmeet : LeadersAgree policy reports ↔ Meet policy reports [.declared] [.declared] := by
    cases reports with
    | nil => exact ⟨fun _ r _ hr _ => absurd hr.1 (by simp), fun _ r _ hr _ => absurd hr.1 (by simp)⟩
    | cons x rest =>
      exact leadersAgree_iff_meet [.declared] _ _ 1 1 (fun r hr => by simp [hD r hr]) (List.mem_cons_self ..)
        (by simp [hD x]) (by decide) (by decide)
  rw [hmeet]
  refine ⟨fun hmeet => ⟨meet_of_absent fun r hr => by simp [hD r hr],
    fun _ => meet_of_absent fun r hr => by simp [hD r hr], fun _ r r' _ hr' => ?_, fun _ => hmeet⟩,
    fun hmeet => hmeet.declared hD⟩
  exact absurd hr'.2.1 (by simp [hD r' hr'.1])

/-- The first kind present, of AUTHORITATIVE, OBSERVED, none and DECLARED, leads. -/
theorem leadersAgree_iff : LeadersAgree policy reports ↔ EnvironmentsMeet policy reports := by
  by_cases hA : ∃ a ∈ reports, a.kind policy = .authoritative
  · obtain ⟨a, ha, hkind⟩ := hA
    exact leadersAgree_authoritative ha hkind
  push Not at hA
  by_cases hO : ∃ o ∈ reports, o.kind policy = .observed
  · obtain ⟨o, ho, hkind⟩ := hO
    exact leadersAgree_observed hA ho hkind
  push Not at hO
  by_cases hU : ∃ u ∈ reports, u.kind policy = .unconfigured
  · obtain ⟨u, hu, hkind⟩ := hU
    exact leadersAgree_unconfigured (fun r hr => ⟨hA r hr, hO r hr⟩) hu hkind
  push Not at hU
  refine leadersAgree_declared fun r hr => ?_
  have hkinds := And.intro (hA r hr) (And.intro (hO r hr) (hU r hr))
  cases hk : r.kind policy <;> simp_all

/-- Times that do not tie once stored are stored in their order. -/
theorem storedAt_le_iff (htimes : ∀ r ∈ reports, r.observation.observedAt ≠ 0)
    (hties : (reports.map fun r => timestamptz r.observation.observedAt).Nodup) {r r' : Report} (hr : r ∈ reports)
    (hr' : r' ∈ reports) : r.storedAt ≤ r'.storedAt ↔ r.observation.observedAt ≤ r'.observation.observedAt := by
  have htie := List.inj_on_of_nodup_map hties hr hr'
  simp only [Report.storedAt, orNow, htimes r hr, htimes r' hr', if_false, Prod.Lex.toLex_le_toLex]
  rcases lt_trichotomy (timestamptz r.observation.observedAt) (timestamptz r'.observation.observedAt) with
    hlt | heq | hgt
  · simp [hlt, (lt_of_timestamptz_lt hlt).le]
  · simp [htie heq]
  · simp [hgt.not_gt, hgt.ne', lt_of_timestamptz_lt hgt]

theorem last_storedAt_iff (htimes : ∀ r ∈ reports, r.observation.observedAt ≠ 0)
    (hties : (reports.map fun r => timestamptz r.observation.observedAt).Nodup) (kinds : List ReportKind) (r : Report) :
    Last policy reports Report.storedAt kinds r ↔ Last policy reports (·.observation.observedAt) kinds r := by
  refine and_congr_right fun hr => and_congr_right fun _ => forall₂_congr fun r' hr' => ?_
  rw [storedAt_le_iff htimes hties hr' hr]

/-- The environment that `updateEffectiveAsset` selects is the one of `Effective` exactly
when the reports that lead by who reports meet. Where no stored times tie, that is: with
no AUTHORITATIVE report, a later report of a connector without an entry repeats what the
OBSERVED ones say; with none of either, a later DECLARED report repeats what connectors
without an entry say. -/
theorem environment_agrees_iff (h : Reported policy db org asset reports) :
    (db.effectiveValue org asset ["environment"] =
        (Memory.effective (reports.map (Report.claim policy asset)) "environment" policy).value.unquoted ↔
      EnvironmentsMeet policy reports) ∧
    ((∀ r ∈ reports, r.observation.observedAt ≠ 0) →
      (reports.map fun r => timestamptz r.observation.observedAt).Nodup →
      (EnvironmentsMeet policy reports ↔
        ((∀ r ∈ reports, r.kind policy ≠ .authoritative) → Repeats policy reports .observed .unconfigured) ∧
        ((∀ r ∈ reports, r.kind policy ≠ .authoritative ∧ r.kind policy ≠ .observed) →
          Repeats policy reports .unconfigured .declared))) := by
  refine ⟨h.agrees_iff.trans leadersAgree_iff, fun htimes hties => ?_⟩
  have hlast : ∀ kinds r, Last policy reports Report.storedAt kinds r ↔
    Last policy reports (·.observation.observedAt) kinds r := last_storedAt_iff htimes hties
  have hone : ∀ k, Meet policy reports [k] [k] := fun k r r' hr hr' => by
    rw [last_unique h.times hr ((hlast _ _).mp hr')]
  rw [repeats_iff h.times, repeats_iff h.times]
  constructor
  · intro hmeet
    exact ⟨fun hA r r' hr hr' => hmeet.observed hA r r' hr ((hlast _ _).mpr hr'),
      fun hAO r r' hr hr' => (hmeet.unconfigured hAO r' r hr' ((hlast _ _).mpr hr)).symm⟩
  · rintro ⟨hobserved, hunconfigured⟩
    exact ⟨hone _, fun hA r r' hr hr' => hobserved hA r r' hr ((hlast _ _).mp hr'),
      fun hAO r r' hr hr' => (hunconfigured hAO r' r ((hlast _ _).mp hr') hr).symm, fun _ => hone _⟩

end

section

attribute [local instance] toy

def terraformPolicy (authority : String) : Memory.Policy :=
  ⟨⟨[("terraform", ⟨[("environment", authority)], by simp, false, by simp⟩)], by simp, false, by simp⟩, 1⟩

def terraformRow (authority : String) : PolicyRow :=
  { id := "p", organizationID := "org", connectorID := some "terraform", assetType := none
    attributeKey := some "environment", relationshipType := none, authority := authority, precedence := 1
    missingSuccessThreshold := 2 }

def reportOf (connector environment : String) (observedAt : Time) : Report :=
  { snapshot := snapshotOf connector connector [] []
    observation := { appSeen "app" environment with observedAt := observedAt }
    now := 7000, environment := environment }

def twoReports : List Report := [reportOf "terraform" "production" 5000, reportOf "docker" "staging" 9000]

def terraformDb (authority : String) (h : (((twoReports.map (Report.row
    (policyDb [terraformRow authority] (by simp)) "asset")).map ClaimRow.id).Nodup)) : Db :=
  { policyDb [terraformRow authority] (by simp) with
    claims := ⟨twoReports.map (Report.row (policyDb [terraformRow authority] (by simp)) "asset"), h⟩ }

theorem corresponds_terraform (authority : String) :
    Corresponds (terraformPolicy authority) "org" ⟨[terraformRow authority], by simp⟩ := by
  refine ⟨?_, ?_⟩
  · intro p hp _
    rw [← Table.mem_rows, List.mem_singleton] at hp
    subst hp
    exact ⟨"terraform", "environment", rfl, rfl, rfl, rfl, rfl⟩
  · intro connector attributeKey authority' hentry
    refine ⟨terraformRow authority, List.mem_singleton_self _, rfl, ?_⟩
    simp only [Memory.Policy.entry, terraformPolicy, GoMap.get, List.lookup_cons, List.lookup_nil] at hentry
    by_cases hc : connector = "terraform"
    · subst hc
      by_cases hk : attributeKey = "environment"
      · subst hk
        exact ⟨rfl, rfl⟩
      · have hne : (attributeKey == "environment") = false := by simpa using hk
        simp [hne] at hentry
    · have hne : (connector == "terraform") = false := by simpa using hc
      simp [hne] at hentry

theorem reported_terraform {authority : String} (h : _) :
    Reported (terraformPolicy authority) (terraformDb authority h) "org" "asset" twoReports where
  policies := corresponds_terraform authority
  owner := by
    intro r hr
    simp only [twoReports, List.mem_cons, List.not_mem_nil, or_false] at hr
    rcases hr with rfl | rfl <;> rfl
  times := by decide
  stored := by
    apply List.Perm.of_eq
    have hactive : (terraformDb authority h).activeClaims "org" "asset" =
        twoReports.map (Report.row (terraformDb authority h) "asset") := rfl
    rw [hactive, List.filter_eq_self]
    intro c hc
    obtain ⟨r, -, rfl⟩ := List.mem_map.mp hc
    rfl

/-- An authoritative connector decides in both engines, whatever a later report says. -/
theorem environment_agrees_authoritative :
    (terraformDb "AUTHORITATIVE" (by decide +kernel)).effectiveValue "org" "asset" ["environment"] =
      (Memory.effective (twoReports.map (Report.claim (terraformPolicy "AUTHORITATIVE") "asset")) "environment"
        (terraformPolicy "AUTHORITATIVE")).value.unquoted := by
  have hreported : Reported (terraformPolicy "AUTHORITATIVE") (terraformDb "AUTHORITATIVE" (by decide +kernel))
    "org" "asset" twoReports := reported_terraform _
  have hagrees := environment_agrees_iff hreported
  refine hagrees.1.mpr ((hagrees.2 (by decide) (by decide)).mpr ?_)
  have hmem : reportOf "terraform" "production" 5000 ∈ twoReports := by simp [twoReports]
  exact ⟨fun hno => absurd rfl (hno _ hmem), fun hno => absurd rfl (hno _ hmem).1⟩

/-- A connector configured as OBSERVED loses to a later report of a connector
without a policy, which `Effective` ranks below it. -/
theorem unconfigured_connector_wins :
    Reported (terraformPolicy "OBSERVED") (terraformDb "OBSERVED" (by decide +kernel)) "org" "asset" twoReports ∧
    (terraformDb "OBSERVED" (by decide +kernel)).effectiveValue "org" "asset" ["environment"] = some "staging" ∧
    (Memory.effective (twoReports.map (Report.claim (terraformPolicy "OBSERVED") "asset")) "environment"
      (terraformPolicy "OBSERVED")).value.unquoted = some "production" := by
  refine ⟨reported_terraform _, by decide +kernel, by decide +kernel⟩

end

end Infragraph
