import Infragraph.Proofs.ImportCSV

/-! When a preview can be applied. The two imports check that asset types are known, and
the import of JSON that external IDs are not empty; that external IDs are bounded and
distinct is left to the input. -/

namespace Infragraph

section

variable [UpperCasing] {t : CsvTable} {r : Source} {l : ImportLimits}

/-- The record of a row that parses and has a known type. -/
def CsvTable.takenRow (t : CsvTable) : Except Csv.ParseError (List String) → Option (List String)
  | .error _ => none
  | .ok record => if (assetTypeLabels.lookup (t.type record)).isNone then none else some record

def CsvTable.taken (t : CsvTable) : List (List String) := t.rows.filterMap t.takenRow

theorem getLeft_outcome (t : CsvTable) (row : ℕ) (x : Except Csv.ParseError (List String)) :
    (t.outcome row x).getLeft? = (t.takenRow x).map t.asset := by
  cases x with
  | error e => rfl
  | ok record =>
    rw [CsvTable.outcome, CsvTable.takenRow]
    split_ifs <;> rfl

theorem assets_outcomesFrom (t : CsvTable) (row : ℕ) (rows : List (Except Csv.ParseError (List String))) :
    (t.outcomesFrom row rows).filterMap Sum.getLeft? = (rows.filterMap t.takenRow).map t.asset := by
  induction rows generalizing row with
  | nil => rfl
  | cons x rows ih =>
    rw [outcomesFrom_cons, List.filterMap_cons, List.filterMap_cons, getLeft_outcome, ih]
    cases t.takenRow x <;> rfl

theorem assets_outcomes (t : CsvTable) : t.outcomes.filterMap Sum.getLeft? = t.taken.map t.asset := by
  rw [outcomes_eq, assets_outcomesFrom]
  rfl

/-- The external IDs in the rows that are taken. -/
structure CsvTable.Identified (t : CsvTable) : Prop where
  bounded : ∀ record ∈ t.taken, t.cell record "external_id" ≠ "" ∧ byteLen (t.cell record "external_id") ≤ 1024
  distinct : (t.taken.map fun record => t.cell record "external_id").Nodup

theorem known_taken {record : List String} (h : record ∈ t.taken) :
    (assetTypeLabels.lookup (t.asset record).assetType).isSome = true := by
  obtain ⟨x, -, hx⟩ := List.mem_filterMap.mp h
  cases x with
  | error e => cases hx
  | ok record' =>
    rw [CsvTable.takenRow] at hx
    split_ifs at hx with htype
    cases hx
    rwa [← Option.not_isNone, Bool.not_eq_true', ← Bool.not_eq_true]

theorem applicable_taken_iff : Applicable (t.taken.map t.asset) ↔ t.Identified := by
  have hids : (t.taken.map t.asset).map (·.externalID) = t.taken.map fun record => t.cell record "external_id" := by
    rw [List.map_map]
    rfl
  refine ⟨fun h => ⟨fun record hrecord => h.bounded _ (List.mem_map_of_mem hrecord), ?_⟩, fun h => ⟨?_, ?_, ?_⟩⟩
  · rw [← hids]
    exact h.distinct
  · intro a ha
    obtain ⟨record, hrecord, rfl⟩ := List.mem_map.mp ha
    exact h.bounded record hrecord
  · intro a ha
    obtain ⟨record, hrecord, rfl⟩ := List.mem_map.mp ha
    exact known_taken hrecord
  · rw [hids]
    exact h.distinct

theorem csv_applicable_iff : (∀ p, importCSV r l = .ok p → Applicable p.assets) ↔
    ∀ t, csvTable r l = .ok t → ¬ Overrun (orDefault l.maxRows 10000) 1 t.rows → t.Identified := by
  refine ⟨fun h t ht hrows => ?_, fun h p hp => ?_⟩
  · have happlicable := h _ (importCSV_of_within ht hrows)
    rw [assets_outcomes] at happlicable
    exact applicable_taken_iff.mp happlicable
  · cases ht : csvTable r l with
    | error e =>
      rw [importCSV, ht] at hp
      cases hp
    | ok t =>
      by_cases hrows : Overrun (orDefault l.maxRows 10000) 1 t.rows
      · rw [importCSV_of_overrun ht hrows] at hp
        cases hp
      · rw [importCSV_of_within ht hrows, assets_outcomes] at hp
        cases hp
        exact applicable_taken_iff.mpr (h t ht hrows)

end

structure JSONDocument.Accepted (d : JSONDocument) (maxItems : ℤ) : Prop where
  items : (d.assets.length + d.relationships.length : ℤ) ≤ maxItems
  checked : ∀ a ∈ d.assets, a.externalID ≠ "" ∧ (assetTypeLabels.lookup a.assetType).isSome = true

structure JSONDocument.Identified (d : JSONDocument) : Prop where
  bounded : ∀ a ∈ d.assets, byteLen a.externalID ≤ 1024
  distinct : (d.assets.map (·.externalID)).Nodup

theorem checkAssets_iff {as : List Observation} : checkAssets as = .ok () ↔
    ∀ a ∈ as, a.externalID ≠ "" ∧ (assetTypeLabels.lookup a.assetType).isSome = true := by
  induction as with
  | nil => simp [checkAssets]
  | cons a as ih =>
    rw [checkAssets, List.forall_mem_cons, ← ih]
    by_cases hid : a.externalID = ""
    · simp [hid]
    · rw [if_neg hid]
      cases htype : assetTypeLabels.lookup a.assetType with
      | none => simp
      | some label => simp [hid]

section

variable [InventoryDecoder] {r : Source} {l : ImportLimits}

theorem importJSON_ok_iff {p : Preview} : importJSON r l = .ok p ↔
    ∃ d, documentOf r l = .ok d ∧ d.Accepted (orDefault l.maxItems 10000) ∧ ⟨d.assets, d.relationships, []⟩ = p := by
  unfold importJSON
  cases hd : documentOf r l with
  | error e => simp
  | ok d =>
    dsimp only
    by_cases hitems : orDefault l.maxItems 10000 < d.assets.length + d.relationships.length
    · rw [if_pos hitems]
      refine ⟨fun h => (by cases h), ?_⟩
      rintro ⟨d', hd', haccepted, -⟩
      cases hd'
      exact absurd haccepted.items (not_le.mpr hitems)
    · rw [if_neg hitems]
      cases hcheck : checkAssets d.assets with
      | error e =>
        refine ⟨fun h => (by cases h), ?_⟩
        rintro ⟨d', hd', haccepted, -⟩
        cases hd'
        rw [checkAssets_iff.mpr haccepted.checked] at hcheck
        cases hcheck
      | ok u =>
        refine ⟨fun h => ⟨d, rfl, ⟨not_lt.mp hitems, checkAssets_iff.mp hcheck⟩, Except.ok.inj h⟩, ?_⟩
        rintro ⟨d', hd', -, rfl⟩
        cases hd'
        rfl

theorem json_applicable_iff : (∀ p, importJSON r l = .ok p → Applicable p.assets) ↔
    ∀ d, documentOf r l = .ok d → d.Accepted (orDefault l.maxItems 10000) → d.Identified := by
  refine ⟨fun h d hd haccepted => ?_, fun h p hp => ?_⟩
  · have happlicable := h _ (importJSON_ok_iff.mpr ⟨d, hd, haccepted, rfl⟩)
    exact ⟨fun a ha => (happlicable.bounded a ha).2, happlicable.distinct⟩
  · obtain ⟨d, hd, haccepted, rfl⟩ := importJSON_ok_iff.mp hp
    have hidentified := h d hd haccepted
    exact ⟨fun a ha => ⟨(haccepted.checked a ha).1, hidentified.bounded a ha⟩,
      fun a ha => (haccepted.checked a ha).2, hidentified.distinct⟩

end

/-- What the imports return can be applied just when the external IDs of the rows taken
are bounded and distinct and not empty, and those of the document bounded and distinct. -/
theorem previews_applicable_iff [UpperCasing] [InventoryDecoder] (r : Source) (l : ImportLimits) :
    ((∀ p, importCSV r l = .ok p → Applicable p.assets) ↔
      ∀ t, csvTable r l = .ok t → ¬ Overrun (orDefault l.maxRows 10000) 1 t.rows → t.Identified) ∧
    ((∀ p, importJSON r l = .ok p → Applicable p.assets) ↔
      ∀ d, documentOf r l = .ok d → d.Accepted (orDefault l.maxItems 10000) → d.Identified) :=
  ⟨csv_applicable_iff, json_applicable_iff⟩

def blankText : String := "external_id,asset_type,name\n ,SERVICE,web\n"

def blankTable : CsvTable := ⟨indexesOf plainHeader, [.ok [" ", "SERVICE", "web"]]⟩

theorem tableOf_blankText : tableOf blankText = .ok blankTable := by
  have hrecords : Csv.records blankText = [⟨1, .ok plainHeader⟩, ⟨2, .ok [" ", "SERVICE", "web"]⟩] := by decide
  exact tableOf_of_records hrecords columns_plainHeader

/-- A row with a blank external ID is taken without an error. -/
theorem blank_id_taken : letI := plainUpper
    ∃ p, importCSV ⟨bytesOf blankText, none⟩ (rowLimit 0) = .ok p ∧ p.errors = [] ∧ ¬ Applicable p.assets := by
  let _ := plainUpper
  have htable : csvTable ⟨bytesOf blankText, none⟩ (rowLimit 0) = .ok blankTable :=
    (csvTable_bytesOf (by decide) (by decide)).trans tableOf_blankText
  have hrows : ¬ Overrun (orDefault (rowLimit 0).maxRows 10000) 1 blankTable.rows := by
    rintro ⟨i, record, hrecord, hi⟩
    rcases i with _ | i
    · exact absurd hi (by decide)
    · cases hrecord
  refine ⟨_, importCSV_of_within htable hrows, by decide, ?_⟩
  rw [assets_outcomes, applicable_taken_iff]
  intro hidentified
  have hblank : blankTable.cell [" ", "SERVICE", "web"] "external_id" = "" := by decide
  have htaken : [" ", "SERVICE", "web"] ∈ blankTable.taken := by decide
  exact (hidentified.bounded _ htaken).1 hblank

end Infragraph
