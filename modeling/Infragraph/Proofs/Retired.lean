import Infragraph.Proofs.Bindings
import Infragraph.Proofs.Relationships
import Infragraph.Proofs.Absences

/-! A RETIRED asset that no observation leads to. It stays RETIRED unless one of
the connector's own identities expires in the call: the loop over the assets that
lost an identity recomputes the status before it asks whether it was RETIRED. -/

namespace Infragraph

open Relational ReadCommitted Prog

section

variable [Hashes] {db db' : Db} {c : ApplyCall} {a : String}

/-- An ACTIVE identity of the connector, bound to the asset, reaches the threshold
by being absent from the snapshot. -/
def ApplyCall.Expires (c : ApplyCall) (db : Db) (a : String) : Prop :=
  ∃ i ∈ db.sourceIdentities, i.organizationID = c.snapshot.organizationID ∧
    i.connectorID = c.snapshot.connectorID ∧ i.assetID = a ∧ i.status = .active ∧
    effectiveThreshold c.missingThreshold ≤ countAbsence (db.observed c.snapshot.snapshotID i.externalID)
      i.consecutiveAbsences

theorem run_assets_others {order : MapOrder} {s : SnapshotEnvelope} {now : Time} {st : Progress} {l : List Observation}
    (h : (l.foldlM (observe order s now) {}).run db = .ok (st, db')) (a : String) :
    db'.assets.get a = db.assets.get a ∨ ∃ e, (e, a) ∈ st.assets := by
  refine run_foldlM (fun _ st d => d.assets.get a = db.assets.get a ∨ ∃ e, (e, a) ∈ st.assets) h (.inl rfl) ?_
  intro pre o post st d st' d' _ hd hrun
  obtain ⟨-, -, b, -, hassets, hrec, -⟩ := run_observe hrun
  rw [hassets]
  by_cases hab : a = b
  · exact .inr ⟨o.externalID, by rw [hab]; exact .head _⟩
  · rw [hrec.others a hab]
    exact hd.imp id fun he => he.imp fun e he => .tail _ he

omit [Hashes] in
theorem sweptAsset_not_retired (d : Db) (r : AssetRow) : (d.sweptAsset r).status ≠ .retired := by
  unfold Db.sweptAsset Db.effectiveRow
  split_ifs <;> simp

/-- The loop over the assets that lost an identity: the asset is recomputed if it is
one of them, and kept otherwise. -/
theorem run_missing_asset {s : SnapshotEnvelope} {sum sum' : Summary} {l : List String}
    (h : (l.foldlM (missingAsset s) sum).run db = .ok (sum', db')) {r : AssetRow} (hr : db.assets.get a = some r) :
    if a ∈ l ∧ r.organizationID = s.organizationID then
      ∃ r', db'.assets.get a = some r' ∧ r'.organizationID = s.organizationID ∧ r'.status ≠ .retired
    else db'.assets.get a = some r := by
  refine run_foldlM (fun pre _ d => if a ∈ pre ∧ r.organizationID = s.organizationID then
      ∃ r', d.assets.get a = some r' ∧ r'.organizationID = s.organizationID ∧ r'.status ≠ .retired
    else d.assets.get a = some r) h (by simpa using hr) ?_
  intro pre b post sum d sum' d' _ hd hrun
  have hdrop := run_missingAsset hrun
  by_cases hab : b = a ∧ r.organizationID = s.organizationID
  · rw [if_pos (by simp [hab])]
    -- whatever the row was, it is now the recomputed one
    have hrow : ∃ r₁, d.assets.get a = some r₁ ∧ r₁.organizationID = s.organizationID := by
      split_ifs at hd with hpre
      · exact hd.imp fun _ h => ⟨h.1, h.2.1⟩
      · exact ⟨r, hd, hab.2⟩
    obtain ⟨r₁, hr₁, horg⟩ := hrow
    have hid₁ : r₁.id = b := (Table.key_of_get hr₁).trans hab.1.symm
    refine ⟨_, by rw [hdrop.assets, hr₁, Option.map_some, if_pos ⟨hid₁, horg⟩], ?_, sweptAsset_not_retired _ _⟩
    simpa [horg] using (sweptAsset_id True _ r₁).2
  · have hsame : d'.assets.get a = d.assets.get a := by
      rw [hdrop.assets]
      cases hg : d.assets.get a with
      | none => rfl
      | some r₁ =>
        rw [Option.map_some, if_neg]
        intro hcond
        have hba : b = a := hcond.1.symm.trans (Table.key_of_get hg)
        split_ifs at hd with hpre
        · exact hab ⟨hba, hpre.2⟩
        · rw [hg] at hd
          cases hd
          exact hab ⟨hba, hcond.2⟩
    have hmem : (a ∈ pre ++ [b] ∧ r.organizationID = s.organizationID) ↔
        (a ∈ pre ∧ r.organizationID = s.organizationID) := by
      rw [List.mem_append, List.mem_singleton]
      constructor
      · intro hor
        exact ⟨hor.1.resolve_right fun hb => hab ⟨hb.symm, hor.2⟩, hor.2⟩
      · exact fun hpre => ⟨.inl hpre.1, hpre.2⟩
    rw [hsame]
    simpa only [hmem] using hd

omit [Hashes] in
theorem IdentitiesSwept.mem_missing {missing : List String}
    (h : IdentitiesSwept c.snapshot.organizationID c.snapshot.connectorID c.snapshot.snapshotID
      (effectiveThreshold c.missingThreshold) db db' missing) : a ∈ missing ↔ c.Expires db a := by
  rw [h.missing_iff]
  refine exists_congr fun i => and_congr_right fun _ => ?_
  by_cases hmine : i.organizationID = c.snapshot.organizationID ∧ i.connectorID = c.snapshot.connectorID
  · rw [Ne, SourceIdentityRow.swept_active hmine]
    constructor
    · intro hparts
      obtain ⟨hactive, ha, hexpired⟩ := hparts
      exact ⟨hmine.1, hmine.2, ha, hactive, not_lt.mp fun hlt => hexpired ⟨hactive, hlt⟩⟩
    · intro hparts
      obtain ⟨_, _, ha, hactive, hexpired⟩ := hparts
      exact ⟨hactive, ha, fun hkept => absurd hkept.2 (not_lt.mpr hexpired)⟩
  · rw [SourceIdentityRow.swept_of_ne hmine]
    exact iff_of_false (fun h => h.2.2 h.1) fun h => hmine ⟨h.1, h.2.1⟩

/-- An identity of an asset that no observation leads to is untouched by the asset loop. -/
theorem Loaded.expires_iff {now : Time} {assets : List (String × String)} {d : Db}
    (h : Loaded c.snapshot now c.snapshot.assets assets db d) (hunresolved : ∀ o ∈ c.snapshot.assets,
      d.assetOf c.snapshot.organizationID c.snapshot.connectorID o.externalID ≠ some a) :
    c.Expires d a ↔ c.Expires db a := by
  have hobserved : ∀ e, (∀ o ∈ c.snapshot.assets, o.externalID ≠ e) →
      d.observed c.snapshot.snapshotID e = db.observed c.snapshot.snapshotID e := by
    intro e he
    rw [Bool.eq_iff_iff, observed_iff, observed_iff]
    constructor
    · intro hparts
      obtain ⟨r, hr, hs, hre⟩ := hparts
      rcases (h.observations r).mp hr with hr | ⟨o, ho, rfl⟩
      · exact ⟨r, hr, hs, hre⟩
      · exact absurd hre (he o ho)
    · intro hparts
      obtain ⟨r, hr, hrest⟩ := hparts
      exact ⟨r, (h.observations r).mpr (.inl hr), hrest⟩
  have habsent : ∀ i, i.organizationID = c.snapshot.organizationID → i.connectorID = c.snapshot.connectorID →
      i.assetID = a → (i ∈ d.sourceIdentities ∨ i ∈ db.sourceIdentities) →
      ∀ o ∈ c.snapshot.assets, o.externalID ≠ i.externalID := by
    intro i horg hconnector ha hmem o ho he
    have hkey : i.key = (c.snapshot.organizationID, c.snapshot.connectorID, o.externalID) := by
      rw [SourceIdentityRow.key, horg, hconnector, he]
    have hbound : ∃ j, d.sourceIdentities.get (c.snapshot.organizationID, c.snapshot.connectorID, o.externalID) =
        some j ∧ j.assetID = a := by
      rcases hmem with hmem | hmem
      · exact ⟨i, by rw [← hkey]; exact Table.mem_iff_get.mp hmem, ha⟩
      · obtain ⟨j, hj, hja⟩ := h.kept.identity _ i (Table.mem_iff_get.mp hmem)
        exact ⟨j, by rw [← hkey]; exact hj, hja.trans ha⟩
    obtain ⟨j, hj, hja⟩ := hbound
    apply hunresolved o ho
    rw [Db.assetOf, hj, Option.map_some, hja]
  have hsame : ∀ i, (∀ o ∈ c.snapshot.assets, o.externalID ≠ i.externalID) →
      (i ∈ d.sourceIdentities ↔ i ∈ db.sourceIdentities) := by
    intro i he
    have hget := h.unseen i.key fun o ho hkey => he o ho (congrArg (fun k => k.2.2) hkey).symm
    rw [Table.mem_iff_get, Table.mem_iff_get, hget]
  constructor
  · intro hparts
    obtain ⟨i, hi, horg, hconnector, ha, hactive, hexpired⟩ := hparts
    have he := habsent i horg hconnector ha (.inl hi)
    rw [hobserved _ he] at hexpired
    exact ⟨i, (hsame i he).mp hi, horg, hconnector, ha, hactive, hexpired⟩
  · intro hparts
    obtain ⟨i, hi, horg, hconnector, ha, hactive, hexpired⟩ := hparts
    have he := habsent i horg hconnector ha (.inr hi)
    rw [← hobserved _ he] at hexpired
    exact ⟨i, (hsame i he).mpr hi, horg, hconnector, ha, hactive, hexpired⟩

/-- A RETIRED asset that no observation of the snapshot resolves to stays RETIRED
exactly when none of the connector's identities on it expires. -/
theorem retired_stays_iff {sum : Summary} (hc : c.run db = .ok (sum, db')) {r : AssetRow}
    (hr : db.assets.get a = some r) (hretired : r.status = .retired) (hunresolved : ∀ o ∈ c.snapshot.assets,
      db'.assetOf c.snapshot.organizationID c.snapshot.connectorID o.externalID ≠ some a) :
    (db'.assets.get a).map (·.status) = some .retired ↔
      ¬ (r.organizationID = c.snapshot.organizationID ∧ c.Expires db a) := by
  obtain ⟨st, d₁, d₂, d₃, sum₂, h⟩ := ApplyCall.run_ok hc
  have hloaded := run_assets h.observe rfl
  have hunresolved₁ : ∀ o ∈ c.snapshot.assets,
      d₁.assetOf c.snapshot.organizationID c.snapshot.connectorID o.externalID ≠ some a :=
    fun o ho hbound => hunresolved o ho (h.kept.2.assetOf hbound)
  -- neither loop over the snapshot writes the asset
  have hasset₁ : d₁.assets.get a = some r := by
    rcases run_assets_others h.observe a with hsame | ⟨e, he⟩
    · rw [hsame, hr]
    · obtain ⟨o, ho, rfl⟩ := hloaded.names e a he
      obtain ⟨i, hi, hia⟩ := hloaded.entry _ a he
      exact absurd (by rw [Db.assetOf, hi, Option.map_some, hia]) (hunresolved₁ o ho)
  obtain ⟨missing, e₁, sum₁, e₂, removed, e₃, h1, h2, h3, h4⟩ := run_markMissing h.sweep
  have hd₂ := run_relationships_frame h.relate
  have hasset : e₁.assets.get a = some r := by
    rw [h1.frame, hd₂]
    exact hasset₁
  have hexpires : a ∈ c.order.missing missing ↔ c.Expires db a := by
    rw [(c.order.missing_perm missing).mem_iff, h1.mem_missing, ← hloaded.expires_iff hunresolved₁, hd₂]
    rfl
  have hafter : db'.assets = e₂.assets := by rw [h.frame, run_removed_frame h4, h3.frame]
  have hloop := run_missing_asset h2 hasset
  rw [hafter, ← hexpires, and_comm]
  split_ifs at hloop with hlost
  · obtain ⟨r', hr', -, hstatus⟩ := hloop
    rw [hr']
    exact iff_of_false (fun h => hstatus (Option.some.inj h)) fun h => h hlost
  · rw [hloop]
    exact iff_of_true (congrArg some hretired) hlost

end

def retiredAsset : AssetRow :=
  { id := "old", organizationID := "org", canonicalName := "old", displayName := "old", assetType := "APPLICATION"
    status := .retired, environment := none, firstSeenAt := 0, lastSeenAt := 0 }

def retiredIdentity : SourceIdentityRow :=
  { id := "identity", organizationID := "org", assetID := "old", connectorID := "one", externalID := "app"
    externalType := "APPLICATION", firstSeenAt := 0, lastSeenAt := 0, status := .active, consecutiveAbsences := 0 }

def retiredDb : Db :=
  { emptyDb with assets := emptyDb.assets.put retiredAsset
                 sourceIdentities := emptyDb.sourceIdentities.put retiredIdentity }

def patientCall : ApplyCall := { emptyCall with missingThreshold := 2 }

theorem retired_stays_patient : ∃ sum db', @ApplyCall.run toy patientCall retiredDb = .ok (sum, db') ∧
    (db'.assets.get "old").map (·.status) = some .retired := by
  have hok : succeeds patientCall retiredDb (fun _ => true) = true := by decide +kernel
  obtain ⟨sum, db', hrun, -⟩ := run_of_succeeds hok
  refine ⟨sum, db', hrun, (@retired_stays_iff toy _ _ _ "old" _ hrun retiredAsset rfl rfl (by simp [patientCall,
    emptyCall, callOf, snapshotOf])).mpr ?_⟩
  intro hparts
  obtain ⟨_, i, hi, _, _, _, _, hexpired⟩ := hparts
  have hall : (retiredDb.sourceIdentities.rows.all fun i => countAbsence (retiredDb.observed "empty" i.externalID)
      i.consecutiveAbsences < 2) = true := by decide +kernel
  exact absurd (of_decide_eq_true (List.all_eq_true.mp hall i hi)) (not_lt.mpr hexpired)

/-- One absence, and the RETIRED asset is MISSING. -/
theorem retired_asset_goes_missing :
    (emptyCall.snapshot.assets = [] ∧ (retiredDb.assets.get "old").map (·.status) = some .retired) ∧
    ∃ sum db', @ApplyCall.run toy emptyCall retiredDb = .ok (sum, db') ∧
      (db'.assets.get "old").map (·.status) = some .missing := by
  refine ⟨⟨rfl, rfl⟩, ?_⟩
  have hok : succeeds emptyCall retiredDb
      (fun out => decide ((out.2.assets.get "old").map (·.status) = some .missing)) = true := by decide +kernel
  obtain ⟨sum, db', hrun, hmissing⟩ := run_of_succeeds hok
  exact ⟨sum, db', hrun, of_decide_eq_true hmissing⟩

end Infragraph
