import Infragraph.Proofs.Resolution
import Infragraph.Proofs.Transitions
import Infragraph.Sanity.Contract

/-! Where one iteration of `ApplyPostgres` can stop. What the contract accepts passes
the checks that repeat it, and a row whose ID is free violates no constraint; what
is left are an unknown asset type, a long attribute key, and a strong identity that
is bound to another asset. -/

namespace Infragraph

open Relational ReadCommitted Prog

variable {a : String} {now : Time}

section

variable {s : SnapshotEnvelope} {d : Db} {err : Error} {sum : Summary}

theorem run_removed_ne_error {l : List String} : (l.foldlM (removedRelationship s) sum).run d ≠ .error err :=
  run_foldlM_ne_error fun _ _ _ _ h => run_update_ne_error (run_bind_ret_eq_error.mp h)

def Db.Marks (d : Db) (org a : String) : Prop :=
  (∃ r, d.assets.get a = some r ∧ r.organizationID = org) ∧ d.anyActive a = false

/-- The slot of the row is free, and its ID is taken. -/
def Db.Blocks (d : Db) (r : ChangeRow) : Prop := (∀ x ∈ d.changes, x.slot ≠ r.slot) ∧ (d.changes.get r.id).isSome

theorem run_updateEffectiveAsset_ne_error {org : String} : (updateEffectiveAsset org a).run d ≠ .error err := by
  intro h
  have hupdate : (exec (updateEffective _ _ _ a org) >>= fun _ => ret (d.conflict org a)).run d = .error err := h
  exact run_update_ne_error (run_bind_ret_eq_error.mp hupdate)

theorem run_insertChangeRow_error {r : ChangeRow}
    (h : (exec (insertChangeRow r)).run d = .error err) : err = .unique .changes ∧ d.Blocks r := by
  simp only [exec, run, insertChangeRow] at h
  by_cases htaken : (d.changes.rows.any fun c => c.organizationID = r.organizationID ∧
      c.logicalIdentity = r.logicalIdentity) = true
  · rw [if_pos htaken] at h
    cases h
  · rw [if_neg htaken] at h
    by_cases hid : (d.changes.get r.id).isSome = true
    · rw [if_pos hid] at h
      cases h
      refine ⟨rfl, fun x hx he => htaken (List.any_eq_true.mpr ⟨x, hx, ?_⟩), hid⟩
      simpa [ChangeRow.slot] using he
    · rw [if_neg hid] at h
      cases h

theorem run_missingAsset_error [Hashes] (h : (missingAsset s sum a).run d = .error err) :
    d.Marks s.organizationID a ∧ d.Blocks (missingRow s a) := by
  obtain ⟨rs, d₁, h1, h⟩ := run_update_bind_error h
  obtain ⟨conflict, d₂, h2, h⟩ := (run_bind_eq_error.mp h).resolve_left run_updateEffectiveAsset_ne_error
  obtain ⟨affected, d₃, h3, h⟩ := run_update_bind_error h
  have hmarks := run_missingAsset_affected h1 h2 h3
  have hchanges : d₃.changes = d.changes := by
    rw [(run_updateAsset (by exact fun _ => rfl) h3).1, (run_updateEffectiveAsset h2).2.1, (run_deactivate h1).1]
  split_ifs at h with hpos
  · have hblocks := (run_insertChangeRow_error (run_bind_ret_eq_error.mp h)).2
    unfold Db.Blocks at hblocks ⊢
    rw [hchanges] at hblocks
    exact ⟨hmarks.mp hpos, hblocks⟩
  · cases h

end

/-- The checks of `ApplyPostgres` that the contract has made. -/
structure SnapshotEnvelope.Fitting (s : SnapshotEnvelope) : Prop where
  named : ¬ (s.organizationID = "" ∨ s.connectorID = "" ∨ s.snapshotID = "")
  bounded : ∀ o ∈ s.assets, ¬ (o.externalID = "" ∨ 1024 < byteLen o.externalID)
  distinct : (externalIDs s.assets).Nodup
  ends : ∀ r ∈ s.relationships, r.externalFromID ∈ externalIDs s.assets ∧ r.externalToID ∈ externalIDs s.assets
  typed : ∀ r ∈ s.relationships, ¬ (r.type = "" ∨ 160 < byteLen r.type)
  apart : (s.relationships.map relationshipKey).Nodup

theorem withinLimits_bounded {o : Observation} (h : o.withinLimits = true) :
    ¬ (o.externalID = "" ∨ 1024 < byteLen o.externalID) := by
  unfold Observation.withinLimits at h
  simp only [Bool.not_eq_true', Bool.or_eq_false_iff, decide_eq_false_iff_not] at h
  rintro (hempty | hlong)
  · exact h.1.1.1.1.1.1.1 hempty
  · exact h.1.1.1.1.1.1.2 hlong

theorem withinLimits_ends {r : RelationshipObservation} {seen : List String} (h : r.withinLimits seen = true) :
    (r.externalFromID ∈ seen ∧ r.externalToID ∈ seen) ∧ ¬ (r.type = "" ∨ 160 < byteLen r.type) := by
  unfold RelationshipObservation.withinLimits at h
  simp only [Bool.not_eq_true', Bool.or_eq_false_iff, decide_eq_false_iff_not, Bool.not_eq_false',
    List.contains_iff_mem] at h
  obtain ⟨⟨⟨⟨⟨⟨-, htype⟩, hlong⟩, -⟩, -⟩, hfrom⟩, hto⟩ := h
  refine ⟨⟨hfrom, hto⟩, ?_⟩
  rintro (hempty | hover)
  · exact htype hempty
  · omega

theorem fitting_of_contract {s : SnapshotEnvelope} (h : validSnapshotContract s = true) : s.Fitting := by
  unfold validSnapshotContract at h
  split_ifs at h with hhead hwarnings hstatistics
  simp only [Bool.or_eq_true, decide_eq_true_eq, not_or] at hhead
  cases hassets : validAssets [] s.assets with
  | none =>
    rw [hassets] at h
    cases h
  | some seen =>
    rw [hassets] at h
    obtain ⟨⟨hall, hnodup⟩, rfl⟩ := validAssets_eq_some.mp hassets
    obtain ⟨hlinks, hkeys⟩ := validRelationships_iff.mp h
    refine ⟨?_, fun o ho => withinLimits_bounded (hall o ho).1, hnodup, fun r hr => ?_,
      fun r hr => (withinLimits_ends (hlinks r hr).1).2, hkeys⟩
    · tauto
    · simpa using (withinLimits_ends (hlinks r hr).1).1

section

variable [Hashes]

/-- A strong identity of the observation is bound to another asset than the one the
observation resolves to. -/
def Bindings.Refuses (b : Bindings) (s : SnapshotEnvelope) (o : Observation) : Prop :=
  ∃ e ∈ strongIdentities o, ∃ a, b.strong e = some a ∧ a ≠ b.resolve s o

/-- The errors that an observation can raise, each with its cause. -/
inductive Refused (s : SnapshotEnvelope) (b : Bindings) (o : Observation) : Error → Prop
  | assetType (h : assetTypeLabels.lookup o.assetType = none) :
      Refused s b o (.errorf "unknown asset type %q" [o.assetType])
  | attributeKey {e : String × Json} (he : e ∈ o.attributes.entries) (h : 200 < byteLen e.1) :
      Refused s b o (.errorf "attribute key exceeds 200 characters" [])
  | conflicting (h : b.Refuses s o) :
      Refused s b o (.errorf "strong identifiers resolve to conflicting canonical assets" [])
  | bound (h : b.Refuses s o) :
      Refused s b o (.errorf "strong identifier is already bound to another canonical asset" [])

variable {s : SnapshotEnvelope} {o : Observation} {d d' : Db} {err : Error} {order : MapOrder} {t : Time}
  {sum : Summary} {assets : List String}

def Apart (kind : String) (values : List (List String)) : Prop :=
  ∀ v ∈ values, ∀ w ∈ values, stableID kind v = stableID kind w → v = w

instance (kind : String) (values : List (List String)) : Decidable (Apart kind values) := by
  unfold Apart
  infer_instance

/-- No row of another slot has the ID of a change of the snapshot to these assets. -/
def Unblocked (s : SnapshotEnvelope) (assets : List String) (changes : Table ChangeRow.id) : Prop :=
  ∀ a ∈ assets, ∀ type ∈ changeTypes, ∀ x ∈ changes,
    x.id = stableID "change" ["|".intercalate [s.snapshotID, a, type]] →
      x.slot = (s.organizationID, "|".intercalate [s.snapshotID, a, type])

theorem Unblocked.not_blocks (h : Unblocked s assets d.changes) {type reason : String} {before after : Json}
    (ha : a ∈ assets) (htype : type ∈ changeTypes) : ¬ d.Blocks (changeRow s a type before after reason) := by
  rintro ⟨hfree, hid⟩
  obtain ⟨x, hx⟩ := Option.isSome_iff_exists.mp hid
  exact hfree x (Table.mem_of_get hx) (h a ha type htype x (Table.mem_of_get hx) (Table.key_of_get hx))

theorem run_insertChange_ne_error {type reason : String} {before after : Json}
    (herr : (insertChange s a type before after reason).run d = .error err) (h : Unblocked s assets d.changes)
    (ha : a ∈ assets) (htype : type ∈ changeTypes) : False :=
  h.not_blocks ha htype (run_insertChangeRow_error herr).2

def Attempts (s : SnapshotEnvelope) (assets : List String) (rows : List ChangeRow) : Prop :=
  ∀ r ∈ rows, ∃ a ∈ assets, ∃ type ∈ changeTypes, ∃ before after reason,
    r = changeRow s a type before after reason

/-- What the call has written itself is in the slot of its ID. -/
theorem Unblocked.logged (h : Unblocked s assets d.changes)
    (hapart : Apart "change" (assets.flatMap fun a => changeTypes.map fun type =>
      ["|".intercalate [s.snapshotID, a, type]])) {rows : List ChangeRow}
    (hlog : Relational.Logged ChangeRow.slot d.changes rows d'.changes) (hrows : Attempts s assets rows) :
    Unblocked s assets d'.changes := by
  intro a ha type htype x hx hid
  rcases hlog.mem_or hx with hx | hx
  · exact h a ha type htype x hx hid
  · obtain ⟨a', ha', type', htype', before, after, reason, rfl⟩ := hrows x hx
    have hmem : ∀ a ∈ assets, ∀ type ∈ changeTypes, ["|".intercalate [s.snapshotID, a, type]] ∈
        assets.flatMap fun a => changeTypes.map fun type => ["|".intercalate [s.snapshotID, a, type]] :=
      fun a ha type htype => List.mem_flatMap.mpr ⟨a, ha, List.mem_map.mpr ⟨type, htype, rfl⟩⟩
    have heq := hapart _ (hmem a' ha' type' htype') _ (hmem a ha type htype) hid
    exact congrArg (Prod.mk s.organizationID) (List.head_eq_of_cons_eq heq)

omit [Hashes] in
theorem strong_of_lookup {e : String × String} (h : d.strongLookup s.organizationID e ≠ "") :
    (d.bindings s).strong e = some (d.strongLookup s.organizationID e) := by
  obtain ⟨x, hx, hxa⟩ := (strongLookup_eq h).mp rfl
  rw [← hxa]
  simp [Db.bindings, Db.strongAssetOf, hx]

/-- Of two assets one is not the one the observation resolves to. -/
theorem refuses_of_lookups {e e' : String × String} (he : e ∈ strongIdentities o) (he' : e' ∈ strongIdentities o)
    (h : d.strongLookup s.organizationID e ≠ "") (h' : d.strongLookup s.organizationID e' ≠ "")
    (hne : d.strongLookup s.organizationID e ≠ d.strongLookup s.organizationID e') : (d.bindings s).Refuses s o := by
  by_cases hres : d.strongLookup s.organizationID e = (d.bindings s).resolve s o
  · exact ⟨e', he', _, strong_of_lookup h', fun heq => hne (hres.trans heq.symm)⟩
  · exact ⟨e, he, _, strong_of_lookup h, hres⟩

theorem run_resolveAsset_error (h : (resolveAsset order s o t sum).run d = .error err) (hwf : Wf d)
    (hasset : d.sourceIdentities.get (s.organizationID, s.connectorID, o.externalID) = none →
      d.assets.get (stableID "asset" [s.organizationID, s.connectorID, o.externalID]) = none)
    (hchanges : Unblocked s assets d.changes) (hnamed : ∀ a, (d.assets.get a).isSome → a ∈ assets) :
    err = .errorf "strong identifiers resolve to conflicting canonical assets" [] ∧ (d.bindings s).Refuses s o := by
  replace h := run_select_bind_eq_error.mp h
  cases hi : d.sourceIdentities.get (s.organizationID, s.connectorID, o.externalID) with
  | none =>
    rw [hi, Option.map_none] at h
    rw [run_bind_eq_error] at h
    rcases h with h | ⟨resolved, d₂, h2, h⟩
    · obtain ⟨rfl, e, he, e', he', hne, hne', hdiff⟩ := resolveStrong_error h
      have hperm := order.resolve_perm o.externalID (strongIdentities o)
      exact ⟨rfl, refuses_of_lookups (hperm.mem_iff.mp he) (hperm.mem_iff.mp he') hne hne' hdiff⟩
    · cases (run_resolveStrong h2).1
      by_cases hempty : resolved = ""
      · rw [if_pos hempty] at h
        have hrefused := run_insert_eq_error.mp (run_bind_ret_eq_error.mp h)
        rw [hasset hi] at hrefused
        cases hrefused
      · rw [if_neg hempty] at h
        exact absurd (run_bind_ret_eq_error.mp h) run_update_ne_error
  | some i =>
    obtain ⟨r, hr, horg⟩ := hwf.identity i (Table.mem_of_get hi)
    have hiorg : i.organizationID = s.organizationID := congrArg Prod.fst (Table.key_of_get hi)
    rw [hi, Option.map_some] at h
    rw [run_bind_eq_error] at h
    rcases h with h | ⟨prior, d₂, h2, h⟩
    · have hnone := (run_selectForUpdate_eq_error.mp h).1
      rw [hr, Option.filter_some_pos (by simpa using horg.trans hiorg)] at hnone
      cases hnone
    obtain ⟨rfl, -⟩ := run_selectAssetStatus h2
    obtain ⟨rs, d₃, h3, h⟩ := run_update_bind_error h
    split_ifs at h
    · replace h := run_bind_ret_eq_error.mp h
      rw [(run_touchAsset h3).1] at h
      exact (run_insertChange_ne_error h hchanges (hnamed i.assetID (by rw [hr]; rfl)) (by simp [changeTypes])).elim
    · cases h

theorem Sighted.named {k : Sighting} (h : Sighted s o d a k) (hwf : Wf d) :
    (d.assets.get a).isSome ∨ a = stableID "asset" [s.organizationID, s.connectorID, o.externalID] := by
  cases hi : d.sourceIdentities.get (s.organizationID, s.connectorID, o.externalID) with
  | some i =>
    obtain ⟨r, hr, -⟩ := h.known i hi
    rw [hr]
    exact .inl rfl
  | none =>
    rcases h.unknown hi with ⟨-, hstrong⟩ | ⟨-, -, -, hid⟩
    · obtain ⟨e, -, he⟩ := List.exists_of_findSome?_eq_some hstrong
      obtain ⟨he, -⟩ := Option.filter_eq_some_iff.mp he
      obtain ⟨x, hx, rfl⟩ := Option.map_eq_some_iff.mp he
      obtain ⟨r, hr, -⟩ := hwf.strong x (Table.mem_of_get hx)
      rw [hr]
      exact .inl rfl
    · exact .inr hid

omit [Hashes] in
theorem run_bindStrong_error {org : String} {l : List (String × String)}
    (h : (bindStrong org a t l).run d = .error err) :
    err = .errorf "strong identifier is already bound to another canonical asset" [] ∧
      ∃ e ∈ l, ∃ b, d.strongAssetOf org e.1 e.2 = some b ∧ b ≠ a := by
  obtain ⟨pre, e, post, u, d₁, rfl, hpre, h⟩ := run_foldlM_error h
  rw [run_bind_eq_error] at h
  rcases h with h | ⟨resolved, d₂, h1, h⟩
  · have hrefused := (run_upsert_eq_error.mp h).2
    cases hrefused
  obtain ⟨x, -, hkey, rfl, hx⟩ := run_upsertStrongIdentity h1
  obtain ⟨hne, rfl⟩ := run_failIf_eq_error.mp h
  refine ⟨rfl, e, by simp, ?_⟩
  rcases hx with ⟨old, hold, rfl⟩ | ⟨-, rfl⟩
  · have hbound : d₁.strongAssetOf org e.1 e.2 = some old.assetID := by
      rw [Db.strongAssetOf, show d₁.strongIdentities.get (org, e.1, e.2) = some old from hold]
      rfl
    rw [(run_bindStrong hpre).2.2] at hbound
    split_ifs at hbound with hmem
    · exact absurd (Option.some.inj hbound).symm hne
    · exact ⟨_, hbound, hne⟩
  · exact absurd rfl hne

theorem run_recordClaims_error {l : List (String × Json)} (hl : (l.map Prod.fst).Nodup)
    (h : (recordClaims s o a t l).run d = .error err)
    (hold : ∀ r ∈ d.claims, ∀ e ∈ l, r.id ≠ stableID "claim" [s.snapshotID, o.externalID, e.1])
    (hnew : ∀ e ∈ l, ∀ e' ∈ l, stableID "claim" [s.snapshotID, o.externalID, e.1] =
      stableID "claim" [s.snapshotID, o.externalID, e'.1] → e.1 = e'.1) :
    err = .errorf "attribute key exceeds 200 characters" [] ∧ ∃ e ∈ l, 200 < byteLen e.1 := by
  obtain ⟨pre, e, post, u, d₁, rfl, hpre, h⟩ := run_foldlM_error h
  obtain ⟨hlong, rfl⟩ | ⟨-, h⟩ := run_failIf_bind_eq_error.mp h
  · exact ⟨rfl, e, by simp, hlong⟩
  obtain ⟨rs, d₃, h3, h⟩ := run_update_bind_error h
  replace h := run_select_bind_eq_error.mp h
  exfalso
  have hrefused := run_insert_eq_error.mp h
  split_ifs at hrefused with hid
  obtain ⟨r, hr⟩ := Option.isSome_iff_exists.mp hid
  -- the row under the ID is older, or it is of another key
  rw [(run_deactivate h3).2] at hr
  obtain ⟨r₁, hr₁, -⟩ := Option.map_eq_some_iff.mp hr
  have hr₁id : r₁.id = stableID "claim" [s.snapshotID, o.externalID, e.1] := Table.key_of_get hr₁
  rw [List.map_append, List.nodup_append] at hl
  rcases ((run_recordClaims hl.1 hpre).2 r₁).mp (Table.mem_of_get hr₁) with ⟨e', he', rfl⟩ | ⟨r₀, hr₀, rfl⟩
  · have hkey := hnew e' (by simp [he']) e (by simp) hr₁id
    exact hl.2.2 e'.1 (List.mem_map_of_mem he') e.1 (by simp) hkey
  · refine hold r₀ hr₀ e (by simp) ?_
    rw [← hr₁id]
    unfold ClaimRow.superseded
    split_ifs <;> rfl

/-- The IDs that the observation is recorded under are free. -/
structure Admits (s : SnapshotEnvelope) (o : Observation) (d : Db) : Prop where
  identity : d.sourceIdentities.get (s.organizationID, s.connectorID, o.externalID) = none →
    ∀ i ∈ d.sourceIdentities, i.id ≠ stableID "identity" [s.organizationID, s.connectorID, o.externalID]
  observation : ∀ q ∈ d.observations, q.id ≠ stableID "observation" [s.snapshotID, o.externalID] ∧
    ¬ (q.snapshotID = s.snapshotID ∧ q.externalID = o.externalID)
  claim : ∀ r ∈ d.claims, ∀ e ∈ o.attributes.entries,
    r.id ≠ stableID "claim" [s.snapshotID, o.externalID, e.1]
  keys : ∀ e ∈ o.attributes.entries, ∀ e' ∈ o.attributes.entries,
    stableID "claim" [s.snapshotID, o.externalID, e.1] = stableID "claim" [s.snapshotID, o.externalID, e'.1] →
      e.1 = e'.1

theorem run_recordObservation_error (h : (recordObservation order s o a t).run d = .error err) (hd : Admits s o d)
    (ha : (d.bindings s).resolve s o = a) : Refused s (d.bindings s) o err := by
  unfold recordObservation at h
  rw [run_bind_eq_error] at h
  rcases h with h | ⟨_, d₁, h1, h⟩
  · obtain ⟨hnone, hrefused⟩ := run_upsert_eq_error.mp h
    split_ifs at hrefused with hany
    obtain ⟨i, hi, hid⟩ := List.any_eq_true.mp hany
    exact absurd (of_decide_eq_true hid) (hd.identity hnone i hi)
  obtain ⟨i, rfl, -⟩ := run_upsertSourceIdentity h1
  rw [run_bind_eq_error] at h
  rcases h with h | ⟨_, d₂, h2, h⟩
  · obtain ⟨rfl, e, he, b, hb, hne⟩ := run_bindStrong_error h
    refine .bound ⟨e, (order.bind_perm _ _).mem_iff.mp he, b, hb, ?_⟩
    rwa [ha]
  rw [(run_bindStrong h2).1] at h
  rw [run_bind_eq_error] at h
  rcases h with h | ⟨_, d₃, h3, h⟩
  · have hrefused := run_insert_eq_error.mp h
    cases (Table.unrefused hd.observation).symm.trans hrefused
  obtain ⟨-, -, rfl⟩ := run_insertObservation h3
  have hperm := order.attributes_perm o.externalID o.attributes.entries
  obtain ⟨rfl, e, he, hlong⟩ := run_recordClaims_error ((hperm.map Prod.fst).nodup_iff.mpr o.attributes.nodup) h
    (fun r hr e he => hd.claim r hr e (hperm.mem_iff.mp he))
    fun e he e' he' => hd.keys e (hperm.mem_iff.mp he) e' (hperm.mem_iff.mp he')
  exact .attributeKey (hperm.mem_iff.mp he) hlong

theorem Sighting.rows_attempts (k : Sighting) (ha : a ∈ assets) : Attempts s assets (k.rows s a) := by
  intro r hr
  cases k with
  | returned prior =>
    rw [List.mem_singleton.mp hr]
    exact ⟨a, ha, _, by simp [changeTypes], _, _, _, rfl⟩
  | unchanged | created => cases hr

theorem conflict_attempts {conflict : Bool} (ha : a ∈ assets) :
    Attempts s assets (if conflict then [conflictRow s a] else []) := by
  intro r hr
  split_ifs at hr
  · rw [List.mem_singleton.mp hr]
    exact ⟨a, ha, _, by simp [changeTypes], _, _, _, rfl⟩
  · cases hr

theorem run_recordConflict_ne_error {conflict : Bool} (h : (recordConflict s a conflict sum).run d = .error err)
    (hchanges : Unblocked s assets d.changes) (ha : a ∈ assets) : False := by
  unfold recordConflict at h
  split_ifs at h
  · exact run_insertChange_ne_error (run_bind_ret_eq_error.mp h) hchanges ha (by simp [changeTypes])
  · cases h

theorem run_recordDiscovery_ne_error {created : Bool} (h : (recordDiscovery s o a created sum).run d = .error err)
    (hchanges : Unblocked s assets d.changes) (ha : a ∈ assets) : False := by
  unfold recordDiscovery at h
  split_ifs at h
  · exact run_insertChange_ne_error (run_bind_ret_eq_error.mp h) hchanges ha (by simp [changeTypes])
  · cases h

theorem run_observe_error {st : Progress} (h : (observe order s now st o).run d = .error err) (hwf : Wf d)
    (hbounded : ¬ (o.externalID = "" ∨ 1024 < byteLen o.externalID)) (hseen : o.externalID ∉ st.seenAssets)
    (hasset : d.sourceIdentities.get (s.organizationID, s.connectorID, o.externalID) = none →
      d.assets.get (stableID "asset" [s.organizationID, s.connectorID, o.externalID]) = none)
    (hd : Admits s o d) (hchanges : Unblocked s assets d.changes)
    (hapart : Apart "change" (assets.flatMap fun a => changeTypes.map fun type =>
      ["|".intercalate [s.snapshotID, a, type]]))
    (hnamed : ∀ a, (d.assets.get a).isSome → a ∈ assets)
    (hnew : stableID "asset" [s.organizationID, s.connectorID, o.externalID] ∈ assets) :
    Refused s (d.bindings s) o err := by
  obtain ⟨hbad, -⟩ | ⟨-, h⟩ := run_failIf_bind_eq_error.mp h
  · exact absurd hbad hbounded
  obtain ⟨htype, rfl⟩ | ⟨-, h⟩ := run_failIf_bind_eq_error.mp h
  · exact .assetType (Option.isNone_iff_eq_none.mp htype)
  obtain ⟨htwice, -⟩ | ⟨-, h⟩ := run_failIf_bind_eq_error.mp h
  · exact absurd htwice hseen
  rw [run_bind_eq_error] at h
  rcases h with h | ⟨res, d₁, h1, h⟩
  · obtain ⟨rfl, hrefuses⟩ := run_resolveAsset_error h hwf hasset hchanges hnamed
    exact .conflicting hrefuses
  obtain ⟨a, created, sum₁⟩ := res
  obtain ⟨hres, -, k, hsighted, -, -, hlogged, -⟩ := run_resolveAsset h1
  have ha : a ∈ assets := by
    rcases hsighted.named hwf with hsome | rfl
    · exact hnamed a hsome
    · exact hnew
  have hchanges₁ := hchanges.logged hapart hlogged (k.rows_attempts ha)
  rw [run_bind_eq_error] at h
  rcases h with h | ⟨_, d₂, h2, h⟩
  · rw [hres.frame] at h
    have hadmits : Admits s o { d with assets := d₁.assets, changes := d₁.changes } :=
      ⟨hd.identity, hd.observation, hd.claim, hd.keys⟩
    have hrefused := run_recordObservation_error h hadmits (hsighted.resolve hres.known)
    exact hrefused
  have hd₂ : d₂.changes = d₁.changes := by
    rw [(run_recordObservation (by rw [hres.frame]; exact hres.known) h2).2.1]
  obtain ⟨conflict, d₃, h3, h⟩ := (run_bind_eq_error.mp h).resolve_left run_updateEffectiveAsset_ne_error
  have hd₃ : d₃.changes = d₁.changes := by rw [(run_updateEffectiveAsset h3).2.1, hd₂]
  have hchanges₃ : Unblocked s assets d₃.changes := by rwa [hd₃]
  rw [run_bind_eq_error] at h
  rcases h with h | ⟨sum₂, d₄, h4, h⟩
  · exact (run_recordConflict_ne_error h hchanges₃ ha).elim
  have hchanges₄ := hchanges₃.logged hapart (run_recordConflict h4).2.2 (conflict_attempts ha)
  exact (run_recordDiscovery_ne_error (run_bind_ret_eq_error.mp h) hchanges₄ ha).elim

theorem run_recordClaims_keys {l : List (String × Json)} {u : Unit}
    (h : (recordClaims s o a t l).run d = .ok (u, d')) : ∀ e ∈ l, byteLen e.1 ≤ 200 := by
  refine run_foldlM (fun pre _ _ => ∀ e ∈ pre, byteLen e.1 ≤ 200) h (by simp) ?_
  intro pre e post _ d _ d' _ ih hrun e' he'
  obtain ⟨_, _, hcheck, -⟩ := run_bind_ok.mp hrun
  rcases List.mem_append.mp he' with he' | he'
  · exact ih e' he'
  · rw [List.mem_singleton.mp he']
    exact not_lt.mp (run_failIf_ok.mp hcheck).1

theorem run_observe_checked {st st' : Progress} (h : (observe order s now st o).run d = .ok (st', d')) :
    assetTypeLabels.lookup o.assetType ≠ none ∧ (∀ e ∈ o.attributes.entries, byteLen e.1 ≤ 200) ∧
      ¬ (d.bindings s).Refuses s o := by
  obtain ⟨x, rfl, -, hturn⟩ := run_observe_turn h
  obtain ⟨htype, -, _, _, _, _, _, _, -, h5, -⟩ := observe_ok h
  refine ⟨htype, fun e he => ?_, ?_⟩
  · simp only [recordObservation, run_bind_ok] at h5
    obtain ⟨_, _, -, _, _, -, _, _, -, hclaims⟩ := h5
    exact run_recordClaims_keys hclaims e ((order.attributes_perm _ _).mem_iff.mpr he)
  · rintro ⟨e, he, b, hb, hne⟩
    obtain ⟨y, hy, rfl⟩ := Option.map_eq_some_iff.mp hb
    obtain ⟨y', hy', hya⟩ := hturn.bound.kept _ y hy
    have hstrong := hturn.strong e
    rw [if_pos he] at hstrong
    obtain ⟨y'', hy'', hya'⟩ := Option.map_eq_some_iff.mp hstrong
    rw [hy'] at hy''
    cases hy''
    exact hne (hya.symm.trans (hya'.trans hturn.bindings.1))

/-- The IDs that the relationship is recorded under are free. -/
structure Joins (s : SnapshotEnvelope) (r : RelationshipObservation) (f g : String) (d : Db) : Prop where
  relationship : d.findRelationship (s.organizationID, f, g, r.type) = none →
    d.relationships.get (relationshipID s.organizationID f g r.type) = none
  source : d.relationshipSources.get
      (s.organizationID, s.connectorID, r.externalFromID, r.externalToID, r.type) = none →
    ∀ y ∈ d.relationshipSources, y.id ≠ stableID "relationship-source"
      [s.organizationID, s.connectorID, r.externalFromID, r.externalToID, r.type]
  observation : ∀ q ∈ d.relationshipObservations, q.id ≠ stableID "relationship-observation"
      [s.snapshotID, r.externalFromID, r.externalToID, r.type] ∧
    ¬ (q.snapshotID = s.snapshotID ∧ q.externalFromID = r.externalFromID ∧ q.externalToID = r.externalToID ∧
      q.type = r.type)

theorem run_relateAssets_error {r : RelationshipObservation} {f g : String}
    (h : (relateAssets s now sum r f g).run d = .error err) (hd : Joins s r f g d)
    (hchanges : Unblocked s assets d.changes) (hf : f ∈ assets) : False := by
  replace h := run_bind_eq_error.mp (run_select_bind_eq_error.mp h)
  rcases h with h | ⟨_, d₁, h2, h⟩
  · obtain ⟨hnone, hrefused⟩ := run_upsert_eq_error.mp h
    split_ifs at hrefused with hsome
    have hget : d.relationships.get (relationshipRow s f g r.type (orNow r.observedAt now)).id = none :=
      hd.relationship hnone
    rw [hget] at hsome
    cases hsome
  obtain ⟨x, rfl, -⟩ := run_upsertRelationship h2
  rw [run_bind_eq_error] at h
  rcases h with h | ⟨sum₁, d₂, h3, h⟩
  · unfold recordAddition at h
    split_ifs at h
    · cases h
    · exact run_insertChange_ne_error (run_bind_ret_eq_error.mp h) hchanges hf (by simp [changeTypes])
  rw [(run_recordAddition h3).1, run_bind_eq_error] at h
  rcases h with h | ⟨_, d₃, h4, h⟩
  · obtain ⟨hnone, hrefused⟩ := run_upsert_eq_error.mp h
    split_ifs at hrefused with hany
    obtain ⟨y, hy, hid⟩ := List.any_eq_true.mp hany
    exact hd.source hnone y hy (of_decide_eq_true hid)
  obtain ⟨y, rfl, -⟩ := run_upsertRelationshipSource h4
  have hrefused := run_insert_eq_error.mp (run_bind_ret_eq_error.mp h)
  cases (Table.unrefused hd.observation).symm.trans hrefused

end

end Infragraph
