import Infragraph.Sanity.GoMap
import Infragraph.Spec.Ingest

/-! The statements a reconciliation can issue, with the values it makes IDs from: those
of the snapshot, and the assets it finds. A fact about the whole of `ApplyPostgres`
that holds statement by statement is proved by cases on this list. -/

namespace Infragraph

open ReadCommitted Prog

variable [Hashes]

/-- The statements `ApplyPostgres` issues for a snapshot, about assets that satisfy `N`. -/
inductive Issued (s : SnapshotEnvelope) (N : String → Prop) : ∀ {β : Type}, Sql β → Prop
  | sourceIdentity (external : String) :
      Issued s N (selectSourceIdentity s.organizationID s.connectorID external)
  | strongIdentity (key value : String) : Issued s N (selectStrongIdentity s.organizationID key value)
  | newAsset (r : AssetRow) {o : Observation} (horg : r.organizationID = s.organizationID) (ho : o ∈ s.assets)
      (hid : r.id = stableID "asset" [s.organizationID, s.connectorID, o.externalID]) : Issued s N (insertAsset r)
  | touch (t : Time) (a : String) : Issued s N (touchAsset t a s.organizationID)
  | assetStatus (a : String) : Issued s N (selectAssetStatus a s.organizationID)
  | identity (o : Observation) (a : String) (t : Time) (ho : o ∈ s.assets) (ha : N a) :
      Issued s N (upsertSourceIdentity (identityRow s o a t))
  | strong (r : StrongIdentityRow) (horg : r.organizationID = s.organizationID) (ha : N r.assetID) :
      Issued s N (upsertStrongIdentity r)
  | observation (o : Observation) (t : Time) (ho : o ∈ s.assets) :
      Issued s N (insertObservation (observationRow s o t))
  | supersede (a key : String) : Issued s N (deactivateClaims s.organizationID a s.connectorID key)
  | authority (type key : String) : Issued s N (selectAuthority s.organizationID s.connectorID type key)
  | claim (o : Observation) (a : String) (t : Time) (authority : String) (e : String × Json) (ho : o ∈ s.assets)
      (he : e ∈ o.attributes.entries) : Issued s N (insertClaim (claimRow s o a t authority e))
  | effectiveValue (a : String) (keys : List String) : Issued s N (selectEffective s.organizationID a keys)
  | conflict (a : String) : Issued s N (selectConflict s.organizationID a)
  | effective (environment display : Option String) (status : AssetStatus) (a : String) :
      Issued s N (updateEffective environment display status a s.organizationID)
  | change (r : ChangeRow) (type : String) (horg : r.organizationID = s.organizationID)
      (hlogical : r.logicalIdentity = "|".intercalate [s.snapshotID, r.assetID, type])
      (hid : r.id = stableID "change" [r.logicalIdentity]) (htype : type ∈ changeTypes) (ha : N r.assetID) :
      Issued s N (insertChangeRow r)
  | relationshipExists (f g type : String) : Issued s N (selectRelationshipExists s.organizationID f g type)
  | relationship (f g : String) (r : RelationshipObservation) (t : Time) (hr : r ∈ s.relationships) (hf : N f)
      (hg : N g) : Issued s N (upsertRelationship (relationshipRow s f g r.type t))
  | relationshipSource (r : RelationshipObservation) (id : String) (t : Time) (hr : r ∈ s.relationships) :
      Issued s N (upsertRelationshipSource (relationshipSourceRow s r id t))
  | relationshipObservation (r : RelationshipObservation) (id : String) (t : Time) (hr : r ∈ s.relationships) :
      Issued s N (insertRelationshipObservation (relationshipObservationRow s r id t))
  | absences : Issued s N (incrementAbsences s.organizationID s.connectorID s.snapshotID)
  | identitiesMissing (n : ℕ) : Issued s N (markIdentitiesMissing s.organizationID s.connectorID n)
  | lapse (a : String) : Issued s N (deactivateMissingClaims s.organizationID s.connectorID a)
  | assetMissing (a : String) : Issued s N (markAssetMissing a s.organizationID)
  | relationshipAbsences : Issued s N (incrementRelationshipAbsences s.organizationID s.connectorID s.snapshotID)
  | sourcesRemoved (n : ℕ) : Issued s N (markSourcesRemoved s.organizationID s.connectorID n)
  | relationshipRemoved (id : String) : Issued s N (markRelationshipRemoved id s.organizationID)
  | run (r : RunRow) (horg : r.organizationID = s.organizationID) (hsnapshot : r.snapshotID = s.snapshotID)
      (hid : r.id = stableID "reconciliation" [s.snapshotID]) : Issued s N (insertRun r)

/-- The assets that are created and those that the lookups return satisfy `N`. -/
structure Names (s : SnapshotEnvelope) (N : String → Prop) (R : ∀ {β : Type}, Sql β → β → Prop) : Prop where
  created : ∀ o ∈ s.assets, N (stableID "asset" [s.organizationID, s.connectorID, o.externalID])
  source : ∀ external r, R (selectSourceIdentity s.organizationID s.connectorID external) r → ∀ a ∈ r, N a
  strong : ∀ key value r, R (selectStrongIdentity s.organizationID key value) r → ∀ a ∈ r, N a
  missing : ∀ n r, R (markIdentitiesMissing s.organizationID s.connectorID n) r → ∀ a ∈ r, N a

section

variable {s : SnapshotEnvelope} {N : String → Prop} {R : ∀ {β : Type}, Sql β → β → Prop} (hN : Names s N R)

theorem insertChange_issued {a type : String} (ha : N a) (htype : type ∈ changeTypes) (before after : Json)
    (reason : String) : (insertChange s a type before after reason).Along R (Issued s N) fun _ => True :=
  Along.exec (.change _ type rfl rfl rfl htype ha) fun _ _ => trivial

theorem updateEffectiveAsset_issued (a : String) :
    (updateEffectiveAsset s.organizationID a).Along R (Issued s N) fun _ => True := by
  refine Along.step (.effectiveValue a _) fun environment _ => ?_
  refine Along.step (.effectiveValue a _) fun display _ => ?_
  refine Along.step (.conflict a) fun conflict _ => ?_
  exact Along.step (.effective _ _ _ a) fun _ _ => trivial

include hN

theorem resolveStrong_issued (l : List (String × String)) :
    (resolveStrong s.organizationID l).Along R (Issued s N) fun a => a ≠ "" → N a := by
  refine Along.foldlM (fun a e _ ha => ?_) fun h => absurd rfl h
  refine Along.step (.strongIdentity e.1 e.2) fun r hr => Along.failIf fun _ hne => ?_
  split_ifs at hne ⊢ with hresolved
  · cases r with
    | none => exact absurd rfl hresolved
    | some a => exact hN.strong _ _ _ hr a rfl
  · exact ha hne

theorem resolveAsset_issued (order : MapOrder) {o : Observation} (ho : o ∈ s.assets) (t : Time) (sum : Summary) :
    (resolveAsset order s o t sum).Along R (Issued s N) fun res => N res.1 := by
  refine Along.step (.sourceIdentity o.externalID) fun known hknown => ?_
  cases known with
  | none =>
    refine (resolveStrong_issued hN _).bind fun resolved hresolved => ?_
    split
    · exact Along.step (.newAsset _ rfl ho rfl) fun _ _ => hN.created o ho
    · exact Along.step (.touch t resolved) fun _ _ => hresolved (by assumption)
  | some a =>
    have ha : N a := hN.source _ _ hknown a rfl
    refine Along.step (.assetStatus a) fun prior _ => ?_
    refine Along.step (.touch t a) fun _ _ => ?_
    split_ifs
    · exact (insertChange_issued ha (by simp [changeTypes]) _ _ _).bind fun _ _ => ha
    · exact ha

omit hN in
theorem recordObservation_issued (order : MapOrder) {o : Observation} (ho : o ∈ s.assets) {a : String} (ha : N a)
    (t : Time) : (recordObservation order s o a t).Along R (Issued s N) fun _ => True := by
  refine Along.step (.identity o a t ho ha) fun _ _ => ?_
  refine Along.bind (Q := fun _ => True) (Along.foldlM (fun _ e _ _ => ?_) trivial) fun _ _ => ?_
  · refine Along.step (.strong _ rfl ha) fun _ _ => ?_
    unfold failIf
    split_ifs <;> trivial
  refine Along.step (.observation o t ho) fun _ _ => ?_
  refine Along.foldlM (fun _ e he _ => Along.failIf fun _ => ?_) trivial
  refine Along.step (.supersede a e.1) fun _ _ => ?_
  refine Along.step (.authority _ _) fun authority _ => ?_
  exact Along.exec (.claim o a t authority e ho ((order.attributes_perm _ _).mem_iff.mp he)) fun _ _ => trivial

theorem observe_issued (order : MapOrder) (now : Time) {o : Observation} (ho : o ∈ s.assets) {st : Progress}
    (hst : ∀ e ∈ st.assets, N e.2) :
    (observe order s now st o).Along R (Issued s N) fun st => ∀ e ∈ st.assets, N e.2 := by
  refine Along.failIf fun _ => Along.failIf fun _ => Along.failIf fun _ => ?_
  refine (resolveAsset_issued hN order ho _ _).bind fun res ha => ?_
  refine (recordObservation_issued order ho ha _).bind fun _ _ => ?_
  refine (updateEffectiveAsset_issued _).bind fun conflict _ => ?_
  refine Along.bind (Q := fun _ => True) ?_ fun sum _ => Along.bind (Q := fun _ => True) ?_ fun sum _ => ?_
  · unfold recordConflict
    split_ifs
    · exact (insertChange_issued ha (by simp [changeTypes]) _ _ _).bind fun _ _ => trivial
    · trivial
  · unfold recordDiscovery
    split_ifs
    · exact (insertChange_issued ha (by simp [changeTypes]) _ _ _).bind fun _ _ => trivial
    · trivial
  · exact List.forall_mem_cons.mpr ⟨ha, hst⟩

omit hN in
theorem relate_issued (now : Time) {assets : List (String × String)} (hassets : ∀ e ∈ assets, N e.2) (sum : Summary)
    {r : RelationshipObservation} (hr : r ∈ s.relationships) :
    (relate s now assets sum r).Along R (Issued s N) fun _ => True := by
  have hend : ∀ external, ¬ (assets.lookup external).isNone → N ((assets.lookup external).getD "") := by
    intro external hsome
    cases hl : assets.lookup external with
    | none => simp [hl] at hsome
    | some a => exact hassets _ (List.mem_of_lookup hl)
  refine Along.failIf fun hends => ?_
  push Not at hends
  have hf := hend _ (by simpa using hends.1)
  have hg := hend _ (by simpa using hends.2.1)
  refine Along.step (.relationshipExists _ _ _) fun existing _ => ?_
  refine Along.step (.relationship _ _ r _ hr hf hg) fun _ _ => ?_
  refine Along.bind (Q := fun _ => True) ?_ fun sum _ => ?_
  · unfold recordAddition
    split_ifs
    · trivial
    · exact (insertChange_issued hf (by simp [changeTypes]) _ _ _).bind fun _ _ => trivial
  refine Along.step (.relationshipSource r _ _ hr) fun _ _ => ?_
  exact Along.step (.relationshipObservation r _ _ hr) fun _ _ => trivial

theorem markMissing_issued (order : MapOrder) (n : ℕ) (sum : Summary) :
    (markMissing order s n sum).Along R (Issued s N) fun _ => True := by
  refine Along.step .absences fun _ _ => ?_
  refine Along.step (.identitiesMissing n) fun missing hmissing => ?_
  refine Along.bind (Q := fun _ => True) (Along.foldlM (fun sum a ha _ => ?_) trivial) fun sum _ => ?_
  · refine Along.step (.lapse a) fun _ _ => ?_
    refine (updateEffectiveAsset_issued a).bind fun _ _ => ?_
    refine Along.step (.assetMissing a) fun affected _ => ?_
    have hnamed := hN.missing _ _ hmissing a ((order.missing_perm _).mem_iff.mp ha)
    split_ifs
    · exact (insertChange_issued hnamed (by simp [changeTypes]) _ _ _).bind fun _ _ => trivial
    · trivial
  refine Along.step .relationshipAbsences fun _ _ => ?_
  refine Along.step (.sourcesRemoved n) fun removed _ => ?_
  refine Along.foldlM (fun sum id _ _ => ?_) trivial
  exact Along.step (.relationshipRemoved id) fun _ _ => trivial

theorem applyPostgres_issued (order : MapOrder) (clock : Time) (threshold : ℤ) :
    (applyPostgres order clock s threshold).Along R (Issued s N) fun _ => True := by
  refine Along.failIf fun _ => ?_
  refine (Along.foldlM (fun st o ho hst => observe_issued hN order _ ho hst) (by simp)).bind fun st hst => ?_
  refine Along.bind (Q := fun _ => True) (Along.foldlM (fun sum r hr _ => relate_issued _ hst sum hr) trivial)
    fun sum _ => ?_
  refine (markMissing_issued hN order _ sum).bind fun sum _ => ?_
  exact Along.step (.run _ rfl rfl rfl) fun _ _ => trivial

end

theorem names_any (s : SnapshotEnvelope) : Names s (fun _ => True) fun _ _ => True :=
  ⟨fun _ _ => trivial, fun _ _ _ _ _ => trivial, fun _ _ _ _ _ _ => trivial, fun _ _ _ _ _ => trivial⟩

def Write.IsInventory : Write → Prop
  | .snapshot _ => False
  | .auditEvent _ => False
  | _ => True

def Write.IsAudit (w : Write) : Prop := ∃ r, w = .auditEvent r

omit [Hashes] in
theorem insertChangeRow_writes {P : Write → Prop} {r : ChangeRow} (h : P (.change r)) :
    (exec (insertChangeRow r)).Writes P := by
  apply Writes.exec
  intro d d' u ws he w hw
  simp only [insertChangeRow] at he
  split_ifs at he
  · cases he
    cases hw
  · cases he
    rw [List.mem_singleton.mp hw]
    exact h

theorem Issued.writes {s : SnapshotEnvelope} {N : String → Prop} {β : Type} {st : Sql β} (h : Issued s N st) :
    (exec st).Writes Write.IsInventory := by
  cases h with
  | sourceIdentity | strongIdentity | authority | effectiveValue | conflict | relationshipExists =>
    exact Writes.select
  | assetStatus => exact Writes.selectForUpdate
  | newAsset | observation | claim | relationshipObservation | run => exact Writes.insert fun _ => trivial
  | identity | strong | relationship | relationshipSource => exact Writes.upsert fun _ => trivial
  | touch | supersede | effective | absences | identitiesMissing | lapse | assetMissing | relationshipAbsences
  | sourcesRemoved | relationshipRemoved => exact Writes.update fun _ => trivial
  | change => exact insertChangeRow_writes trivial

theorem applyPostgres_writes (order : MapOrder) (clock : Time) (s : SnapshotEnvelope) (threshold : ℤ) :
    (applyPostgres order clock s threshold).Writes Write.IsInventory :=
  (applyPostgres_issued (names_any s) order clock threshold).writes Issued.writes

theorem append_writes (clock : Time) (e : AuditEvent) : (append clock e).Writes Write.IsAudit := by
  refine Writes.failIf.bind fun _ => Writes.bind (Writes.exec ?_) fun _ => ?_
  · rintro d d' u ws ⟨⟩ w hw
    cases hw
  refine Writes.bind (Writes.exec ?_) fun previous => Writes.insert fun r => ⟨r, rfl⟩
  rintro d d' u ws ⟨⟩ w hw
  cases hw

end Infragraph
