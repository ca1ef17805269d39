import Infragraph.Sanity.Apply
import Infragraph.Sanity.Tenants

/-! What a reconciliation leaves alone: the rows of other organizations, the
evidence of other connectors, and every observation, change and run that is
already recorded. Each statement keeps the frame, hence every run does. -/

namespace Infragraph

open Relational ReadCommitted Prog

def OfConnector {ρ : Type} (org connector : String) (orgOf connectorOf : ρ → String) (old : Option ρ) (r : ρ) :
    Prop :=
  (orgOf r = org ∧ connectorOf r = connector) ∧ ∀ x, old = some x → orgOf x = org ∧ connectorOf x = connector

/-- A new claim of the connector, or one of its active claims deactivated. -/
def Supersedes (org connector : String) (old : Option ClaimRow) (c : ClaimRow) : Prop :=
  (c.organizationID = org ∧ c.connectorID = connector) ∧
    ∀ x, old = some x → x.active = true ∧ c = { x with active := false }

/-- What a reconciliation for the connector may do to the evidence. -/
structure Framed (org connector : String) (d d' : Db) : Prop where
  others : d'.others org = d.others org
  sourceIdentities : Table.Evolves
    (OfConnector org connector SourceIdentityRow.organizationID SourceIdentityRow.connectorID)
    d.sourceIdentities d'.sourceIdentities
  relationshipSources : Table.Evolves
    (OfConnector org connector RelationshipSourceRow.organizationID RelationshipSourceRow.connectorID)
    d.relationshipSources d'.relationshipSources
  claims : Table.Evolves (Supersedes org connector) d.claims d'.claims
  observations : Table.Evolves (fun old _ => old = none) d.observations d'.observations
  relationshipObservations :
    Table.Evolves (fun old _ => old = none) d.relationshipObservations d'.relationshipObservations
  changes : Table.Evolves (fun old _ => old = none) d.changes d'.changes
  runs : Table.Evolves (fun old _ => old = none) d.runs d'.runs

variable {org connector : String} {d d' d₂ : Db}

theorem Framed.refl (d : Db) : Framed org connector d d :=
  ⟨rfl, .refl _, .refl _, .refl _, .refl _, .refl _, .refl _, .refl _⟩

theorem OfConnector.trans {ρ : Type} {orgOf connectorOf : ρ → String} (o : Option ρ) (r r' : ρ)
    (h : OfConnector org connector orgOf connectorOf o r)
    (h' : OfConnector org connector orgOf connectorOf (some r) r') :
    OfConnector org connector orgOf connectorOf o r' := ⟨h'.1, h.2⟩

theorem Supersedes.trans (o : Option ClaimRow) (c c' : ClaimRow) (h : Supersedes org connector o c)
    (h' : Supersedes org connector (some c) c') : Supersedes org connector o c' := by
  refine ⟨h'.1, fun x hx => ?_⟩
  -- a claim that was deactivated is not deactivated again
  have hactive := (h'.2 c rfl).1
  rw [(h.2 x hx).2] at hactive
  cases hactive

theorem Framed.trans (h : Framed org connector d d') (h' : Framed org connector d' d₂) :
    Framed org connector d d₂ where
  others := h'.others.trans h.others
  sourceIdentities := h.sourceIdentities.trans OfConnector.trans h'.sourceIdentities
  relationshipSources := h.relationshipSources.trans OfConnector.trans h'.relationshipSources
  claims := h.claims.trans Supersedes.trans h'.claims
  observations := h.observations.trans (fun _ _ _ ho _ => ho) h'.observations
  relationshipObservations := h.relationshipObservations.trans (fun _ _ _ ho _ => ho) h'.relationshipObservations
  changes := h.changes.trans (fun _ _ _ ho _ => ho) h'.changes
  runs := h.runs.trans (fun _ _ _ ho _ => ho) h'.runs

theorem OfConnector.mem_iff {ρ κ : Type} [DecidableEq κ] {key : ρ → κ} {orgOf connectorOf : ρ → String}
    {t t' : Table key} (h : Table.Evolves (OfConnector org connector orgOf connectorOf) t t') (x : ρ)
    (hx : ¬ (orgOf x = org ∧ connectorOf x = connector)) : x ∈ t' ↔ x ∈ t :=
  h.mem_iff (fun _ hok => hx (hok.2 x rfl)) fun _ hok => hx hok.1

theorem Framed.claim_kept (h : Framed org connector d d') {c : ClaimRow} (hc : c ∈ d.claims) :
    c ∈ d'.claims ∨ c.active = true ∧ { c with active := false } ∈ d'.claims := by
  rw [Table.mem_iff_get] at hc
  rcases h.claims c.id with he | ⟨c', hc', hok⟩
  · exact .inl (Table.mem_of_get (he.trans hc))
  · obtain ⟨hactive, rfl⟩ := hok.2 c hc
    exact .inr ⟨hactive, Table.mem_of_get hc'⟩

theorem OfConnector.evolves {ρ κ : Type} [DecidableEq κ] {key : ρ → String × String × κ} {t t' : Table key}
    {p : ρ → Prop} [DecidablePred p] {f : ρ → ρ} (hf : ∀ x, key (f x) = key x)
    (hget : ∀ k, t'.get k = (t.get k).map fun x =>
      if (key x).1 = org ∧ (key x).2.1 = connector ∧ p x then f x else x) :
    Table.Evolves (OfConnector org connector (fun x => (key x).1) fun x => (key x).2.1) t t' := by
  refine Table.evolves_map hget fun i _ => ?_
  split_ifs with h
  · refine .inr ⟨⟨?_, ?_⟩, fun x hx => ?_⟩
    · exact (congrArg Prod.fst (hf i)).trans h.1
    · exact (congrArg (·.2.1) (hf i)).trans h.2.1
    · cases hx
      exact ⟨h.1, h.2.1⟩
  · exact .inl rfl

section

variable (hd : d'.others org = d.others org)
include hd

theorem framed_claims {p : Db → ClaimRow → Bool} {sql : String} {args : List String} {rs : List Unit}
    (hr : (exec (deactivate sql args p)).run d = .ok (rs, d'))
    (hp : ∀ c, p d c = true → (c.organizationID = org ∧ c.connectorID = connector) ∧ c.active = true) :
    Framed org connector d d' := by
  obtain ⟨hdb, hget⟩ := run_deactivate hr
  rw [hdb] at hd ⊢
  refine ⟨hd, .refl _, .refl _, Table.evolves_map hget fun c _ => ?_, .refl _, .refl _, .refl _, .refl _⟩
  split_ifs with h
  · refine .inr ⟨(hp c h).1, fun x hx => ?_⟩
    cases hx
    exact ⟨(hp c h).2, rfl⟩
  · exact .inl rfl

theorem framed_identities {sql : String} {p : Db → SourceIdentityRow → Bool} {f : SourceIdentityRow → SourceIdentityRow}
    {rs : List String} (hr : (exec (updateIdentities sql org connector p f)).run d = .ok (rs, d'))
    (hf : ∀ i, (f i).key = i.key) : Framed org connector d d' := by
  obtain ⟨hdb, hget⟩ := run_updateIdentities hf hr
  rw [hdb] at hd ⊢
  exact ⟨hd, OfConnector.evolves hf hget, .refl _, .refl _, .refl _, .refl _, .refl _, .refl _⟩

theorem framed_sources {sql : String} {p : Db → RelationshipSourceRow → Bool}
    {f : RelationshipSourceRow → RelationshipSourceRow} {rs : List String}
    (hr : (exec (updateSources sql org connector p f)).run d = .ok (rs, d')) (hf : ∀ i, (f i).key = i.key) :
    Framed org connector d d' := by
  obtain ⟨hdb, hget⟩ := run_updateSources hf hr
  rw [hdb] at hd ⊢
  exact ⟨hd, .refl _, OfConnector.evolves hf hget, .refl _, .refl _, .refl _, .refl _, .refl _⟩

theorem framed_same (hi : d'.sourceIdentities = d.sourceIdentities)
    (hs : d'.relationshipSources = d.relationshipSources) (hc : d'.claims = d.claims)
    (ho : d'.observations = d.observations) (hro : d'.relationshipObservations = d.relationshipObservations)
    (hch : d'.changes = d.changes) (hru : d'.runs = d.runs) : Framed org connector d d' := by
  refine ⟨hd, ?_, ?_, ?_, ?_, ?_, ?_, ?_⟩
  · rw [hi]; exact .refl _
  · rw [hs]; exact .refl _
  · rw [hc]; exact .refl _
  · rw [ho]; exact .refl _
  · rw [hro]; exact .refl _
  · rw [hch]; exact .refl _
  · rw [hru]; exact .refl _

theorem framed_asset {sql id : String} {p : Db → AssetRow → Bool} {f : AssetRow → AssetRow} {rs : List Unit}
    (hr : (exec (updateAsset sql id org p f)).run d = .ok (rs, d')) (hf : ∀ r, (f r).id = r.id) :
    Framed org connector d d' := by
  have hdb := (run_updateAsset hf hr).1
  rw [hdb] at hd ⊢
  exact framed_same hd rfl rfl rfl rfl rfl rfl rfl

end

section

variable [Hashes] {s : SnapshotEnvelope} {N : String → Prop} {β : Type} {st : Sql β} {r : β}

theorem Issued.others (h : Issued s N st) (hr : (exec st).run d = .ok (r, d')) :
    d'.others s.organizationID = d.others s.organizationID := by
  obtain ⟨ws, he, rfl⟩ := run_exec_ok.mp hr
  exact others_writeAll (h.within d r ws he)

theorem Issued.framed (h : Issued s N st) (hr : (exec st).run d = .ok (r, d')) :
    Framed s.organizationID s.connectorID d d' := by
  have hd := h.others hr
  cases h with
  | sourceIdentity | strongIdentity | authority | effectiveValue | conflict | relationshipExists =>
    rw [(run_select_ok.mp hr).2]
    exact .refl _
  | assetStatus =>
    rw [(run_selectAssetStatus hr).1]
    exact .refl _
  | touch | effective | assetMissing => exact framed_asset hd hr fun _ => rfl
  | newAsset =>
    obtain ⟨-, rfl⟩ := run_insertAsset hr
    exact framed_same hd rfl rfl rfl rfl rfl rfl rfl
  | strong =>
    obtain ⟨x, rfl, -⟩ := run_upsertStrongIdentity hr
    exact framed_same hd rfl rfl rfl rfl rfl rfl rfl
  | relationship =>
    obtain ⟨x, rfl, -⟩ := run_upsertRelationship hr
    exact framed_same hd rfl rfl rfl rfl rfl rfl rfl
  | relationshipRemoved =>
    have hdb := (run_markRelationshipRemoved hr).1
    rw [hdb] at hd ⊢
    exact framed_same hd rfl rfl rfl rfl rfl rfl rfl
  | supersede =>
    apply framed_claims hd hr
    intro c hc
    have hc := of_decide_eq_true hc
    exact ⟨⟨hc.1, hc.2.2.1⟩, hc.2.2.2.2⟩
  | lapse =>
    apply framed_claims hd hr
    intro c hc
    rw [Bool.and_eq_true] at hc
    have hc := of_decide_eq_true hc.1
    exact ⟨⟨hc.1, hc.2.1⟩, hc.2.2.2⟩
  | absences | identitiesMissing => exact framed_identities hd hr fun _ => rfl
  | relationshipAbsences | sourcesRemoved => exact framed_sources hd hr fun _ => rfl
  | identity o a t =>
    obtain ⟨i, rfl, hkey, -⟩ := run_upsertSourceIdentity hr
    refine ⟨hd, Table.evolves_put ⟨?_, fun x hx => ?_⟩, .refl _, .refl _, .refl _, .refl _, .refl _, .refl _⟩
    · exact ⟨congrArg Prod.fst hkey, congrArg (·.2.1) hkey⟩
    · have hx := (Table.key_of_get hx).trans hkey
      exact ⟨congrArg Prod.fst hx, congrArg (·.2.1) hx⟩
  | relationshipSource =>
    obtain ⟨i, rfl, hkey, -⟩ := run_upsertRelationshipSource hr
    refine ⟨hd, .refl _, Table.evolves_put ⟨?_, fun x hx => ?_⟩, .refl _, .refl _, .refl _, .refl _, .refl _⟩
    · exact ⟨congrArg Prod.fst hkey, congrArg (·.2.1) hkey⟩
    · have hx := (Table.key_of_get hx).trans hkey
      exact ⟨congrArg Prod.fst hx, congrArg (·.2.1) hx⟩
  | claim =>
    obtain ⟨hnone, rfl⟩ := run_insertClaim hr
    refine ⟨hd, .refl _, .refl _, Table.evolves_put ⟨⟨rfl, rfl⟩, fun x hx => ?_⟩, .refl _, .refl _, .refl _, .refl _⟩
    rw [hnone] at hx
    cases hx
  | observation =>
    obtain ⟨hnone, -, rfl⟩ := run_insertObservation hr
    exact ⟨hd, .refl _, .refl _, .refl _, Table.evolves_put hnone, .refl _, .refl _, .refl _⟩
  | relationshipObservation =>
    obtain ⟨hnone, rfl⟩ := run_insertRelationshipObservation hr
    exact ⟨hd, .refl _, .refl _, .refl _, .refl _, Table.evolves_put hnone, .refl _, .refl _⟩
  | change =>
    rcases run_insertChangeRow hr with ⟨rfl, -⟩ | ⟨rfl, hnone, -⟩
    · exact .refl _
    · exact ⟨hd, .refl _, .refl _, .refl _, .refl _, .refl _, Table.evolves_put hnone, .refl _⟩
  | run =>
    obtain ⟨hnone, -, rfl⟩ := run_insertRun hr
    exact ⟨hd, .refl _, .refl _, .refl _, .refl _, .refl _, .refl _, Table.evolves_put hnone⟩

theorem ApplyCall.framed {c : ApplyCall} {sum : Summary} (hc : c.run d = .ok (sum, d')) :
    Framed c.snapshot.organizationID c.snapshot.connectorID d d' :=
  Along.run (R := Framed c.snapshot.organizationID c.snapshot.connectorID) .refl Framed.trans Issued.framed
    (applyPostgres_issued (names_any _) _ _ _) hc

/-- Other organizations keep every row, other connectors their evidence, and what is recorded stays; a claim can
only be deactivated. -/
theorem apply_frame {c : ApplyCall} {sum : Summary} (hc : c.run d = .ok (sum, d')) :
    d'.others c.snapshot.organizationID = d.others c.snapshot.organizationID ∧
    (∀ i : SourceIdentityRow,
      ¬ (i.organizationID = c.snapshot.organizationID ∧ i.connectorID = c.snapshot.connectorID) →
      (i ∈ d'.sourceIdentities ↔ i ∈ d.sourceIdentities)) ∧
    (∀ i : RelationshipSourceRow,
      ¬ (i.organizationID = c.snapshot.organizationID ∧ i.connectorID = c.snapshot.connectorID) →
      (i ∈ d'.relationshipSources ↔ i ∈ d.relationshipSources)) ∧
    (∀ x : ClaimRow,
      ¬ (x.organizationID = c.snapshot.organizationID ∧ x.connectorID = c.snapshot.connectorID) →
      (x ∈ d'.claims ↔ x ∈ d.claims)) ∧
    (∀ o ∈ d.observations, o ∈ d'.observations) ∧
    (∀ o ∈ d.relationshipObservations, o ∈ d'.relationshipObservations) ∧
    (∀ x ∈ d.changes, x ∈ d'.changes) ∧
    (∀ x ∈ d.runs, x ∈ d'.runs) ∧
    ∀ x ∈ d.claims, x ∈ d'.claims ∨ x.active = true ∧ { x with active := false } ∈ d'.claims := by
  have h := ApplyCall.framed hc
  refine ⟨h.others, OfConnector.mem_iff h.sourceIdentities, OfConnector.mem_iff h.relationshipSources, ?_,
    fun o ho => h.observations.mem ho fun _ => Option.some_ne_none o,
    fun o ho => h.relationshipObservations.mem ho fun _ => Option.some_ne_none o,
    fun x hx => h.changes.mem hx fun _ => Option.some_ne_none x,
    fun x hx => h.runs.mem hx fun _ => Option.some_ne_none x, fun x hx => h.claim_kept hx⟩
  intro x hx
  apply h.claims.mem_iff
  · intro c' hok
    obtain ⟨-, rfl⟩ := hok.2 x rfl
    exact hx hok.1
  · exact fun _ hok => hx hok.1

end

/-- The second connector's claims survive the empty snapshot of the first. -/
theorem apply_frame_deployment :
    ∃ sum d', @ApplyCall.run toy emptyCall (replayed [firstCall, otherCall]) = .ok (sum, d') ∧
      0 < sum.missing ∧
      d'.others "org" = (replayed [firstCall, otherCall]).others "org" ∧
      ∀ x : ClaimRow, x.connectorID = "two" → (x ∈ d'.claims ↔ x ∈ (replayed [firstCall, otherCall]).claims) := by
  have hok : succeeds emptyCall (replayed [firstCall, otherCall]) (fun out => decide (0 < out.1.missing)) = true := by
    decide +kernel
  obtain ⟨sum, d', hrun, hmissing⟩ := run_of_succeeds hok
  have h := @apply_frame _ _ toy _ _ hrun
  refine ⟨sum, d', hrun, of_decide_eq_true hmissing, h.1, fun x hx => h.2.2.2.1 x fun hc => ?_⟩
  exact absurd (hx.symm.trans hc.2) (by decide)

end Infragraph
