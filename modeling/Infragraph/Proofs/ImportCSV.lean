import Infragraph.Spec.ImportCSV

/-! What the loop over the rows returns: the outcomes of all rows, unless a row that
parses stands beyond the limit. Rows that do not parse are never held against it. -/

namespace Infragraph

variable {maxRows : ℤ}
variable {row : ℕ} {rows : List (Except Csv.ParseError (List String))} {text : String}

/-- A row that parses is beyond the limit. -/
def Overrun (maxRows : ℤ) (row : ℕ) (rows : List (Except Csv.ParseError (List String))) : Prop :=
  ∃ (i : ℕ) (record : List String), rows[i]? = some (.ok record) ∧ maxRows < row + i

theorem overrun_cons {x : Except Csv.ParseError (List String)} :
    Overrun maxRows row (x :: rows) ↔ (∃ record, x = .ok record ∧ maxRows < row) ∨ Overrun maxRows (row + 1) rows := by
  refine ⟨?_, ?_⟩
  · rintro ⟨i, record, hrecord, hi⟩
    cases i with
    | zero => exact .inl ⟨record, by simpa using hrecord, by simpa using hi⟩
    | succ i =>
      refine .inr ⟨i, record, by simpa using hrecord, ?_⟩
      omega
  · rintro (⟨record, rfl, hrow⟩ | ⟨i, record, hrecord, hi⟩)
    · exact ⟨0, record, rfl, by simpa using hrow⟩
    · refine ⟨i + 1, record, by simpa using hrecord, ?_⟩
      omega

theorem overrun_one_iff : Overrun maxRows 1 rows ↔
    ∃ (i : ℕ) (record : List String), maxRows ≤ i ∧ rows[i]? = some (.ok record) := by
  refine exists_congr fun i => exists_congr fun record => ?_
  rw [and_comm]
  refine and_congr_left fun _ => ?_
  omega

theorem length_le_size (cs : List Char) : cs.length ≤ cs.utf8Encode.size := by
  induction cs with
  | nil => exact Nat.zero_le _
  | cons c cs ih =>
    have hpos := c.utf8Size_pos
    have hsize : [c].utf8Encode.size = c.utf8Size := by simp [List.utf8Encode_singleton]
    rw [List.utf8Encode_cons, ByteArray.size_append, List.length_cons, hsize]
    omega

theorem length_textOf_le {raw : List UInt8} (h : textOf raw = some text) : text.toList.length ≤ raw.length := by
  unfold textOf String.fromUTF8? at h
  split_ifs at h with hvalid
  cases h
  have hle := length_le_size (String.fromUTF8 ⟨raw.toArray⟩ hvalid).toList
  rw [String.utf8Encode_toList] at hle
  exact hle

theorem length_readBounded_le {r : Source} {maxBytes : ℤ} {exceeded : String} {raw : List UInt8}
    (h : r.readBounded maxBytes exceeded = .ok raw) : raw.length ≤ r.bytes.length := by
  have hread : ∀ {limit : ℤ} {raw : List UInt8}, r.readAll limit = .ok raw → raw.length ≤ r.bytes.length := by
    intro limit raw hraw
    unfold Source.readAll at hraw
    split_ifs at hraw
    · cases hraw
      rw [List.length_take]
      exact min_le_right _ _
    · cases hfailure : r.failure with
      | some e =>
        rw [hfailure] at hraw
        cases hraw
      | none =>
        rw [hfailure] at hraw
        cases hraw
        exact le_rfl
  unfold Source.readBounded at h
  cases hraw : r.readAll (int64 (maxBytes + 1)) with
  | error e =>
    rw [hraw] at h
    cases h
  | ok bytes =>
    rw [hraw] at h
    dsimp only at h
    split_ifs at h
    cases h
    exact hread hraw

theorem csvTable_ok {r : Source} {l : ImportLimits} {t : CsvTable} (h : csvTable r l = .ok t) :
    ∃ raw text, r.readBounded (orDefault l.maxBytes (10 * 2 ^ 20)) "CSV exceeds byte limit" = .ok raw ∧
      textOf raw = some text ∧ tableOf text = .ok t := by
  unfold csvTable at h
  split at h
  · cases h
  · rename_i raw hraw
    split at h
    · cases h
    · rename_i text htext
      exact ⟨raw, text, hraw, htext, h⟩

theorem tableOf_ok {t : CsvTable} (h : tableOf text = .ok t) :
    ∃ first records header, Csv.records text = first :: records ∧ first.fields = .ok header ∧
      t = ⟨indexesOf header, records.map (Csv.Record.expect header.length)⟩ := by
  unfold tableOf at h
  split at h
  · cases h
  · rename_i first records hrecords
    split at h
    · cases h
    · rename_i header hheader
      split at h
      · cases h
      · cases h
        exact ⟨first, records, header, hrecords, hheader, rfl⟩

theorem tableOf_of_records {line : ℕ} {header : List String} {records : List Csv.Record}
    (hrecords : Csv.records text = ⟨line, .ok header⟩ :: records)
    (hcolumns : ∀ required ∈ requiredColumns, ((indexesOf header).get required).isSome = true) :
    tableOf text = .ok ⟨indexesOf header, records.map (Csv.Record.expect header.length)⟩ := by
  have hnone : (requiredColumns.find? fun required => ((indexesOf header).get required).isNone) = none := by
    refine List.find?_eq_none.mpr fun required hmem hmissing => ?_
    have hsome := hcolumns required hmem
    rw [← Option.not_isNone, hmissing] at hsome
    cases hsome
  unfold tableOf
  rw [hrecords]
  dsimp only
  rw [hnone]

theorem length_rows_le {r : Source} {l : ImportLimits} {t : CsvTable} (h : csvTable r l = .ok t) :
    t.rows.length ≤ r.bytes.length := by
  obtain ⟨raw, text, hraw, htext, htable⟩ := csvTable_ok h
  obtain ⟨first, records, header, hrecords, -, rfl⟩ := tableOf_ok htable
  have hlength := Csv.length_records_le text
  have hchars := length_textOf_le htext
  have hbytes := length_readBounded_le hraw
  rw [hrecords, List.length_cons] at hlength
  rw [List.length_map]
  omega

def bytesOf (text : String) : List UInt8 := text.toUTF8.data.toList

theorem textOf_bytesOf (text : String) : textOf (bytesOf text) = some text := by
  have hbytes : (⟨(bytesOf text).toArray⟩ : ByteArray) = text.toByteArray := by simp [bytesOf]
  unfold textOf String.fromUTF8?
  rw [hbytes, dif_pos text.isValidUTF8]
  exact congrArg some (String.toByteArray_inj.mp rfl)

theorem readBounded_of_le {bytes : List UInt8} {maxBytes : ℤ} (exceeded : String) (hmin : (bytes.length : ℤ) ≤ maxBytes)
    (hmax : maxBytes < 2 ^ 63 - 1) : Source.readBounded ⟨bytes, none⟩ maxBytes exceeded = .ok bytes := by
  have hlimit : int64 (maxBytes + 1) = maxBytes + 1 := by
    unfold int64
    omega
  unfold Source.readBounded Source.readAll
  simp only [hlimit, show ¬ maxBytes + 1 ≤ (bytes.length : ℤ) by omega, if_false, not_lt.mpr hmin]

theorem csvTable_bytesOf {l : ImportLimits} (hmin : ((bytesOf text).length : ℤ) ≤ orDefault l.maxBytes (10 * 2 ^ 20))
    (hmax : orDefault l.maxBytes (10 * 2 ^ 20) < 2 ^ 63 - 1) : csvTable ⟨bytesOf text, none⟩ l = tableOf text := by
  unfold csvTable
  rw [readBounded_of_le _ hmin hmax]
  dsimp only
  rw [textOf_bytesOf]

def Preview.extend (p : Preview) (outcomes : List (Observation ⊕ String)) : Preview where
  assets := p.assets ++ outcomes.filterMap Sum.getLeft?
  relationships := p.relationships
  errors := p.errors ++ outcomes.filterMap Sum.getRight?

theorem extend_inl (p : Preview) (a : Observation) : p.extend [.inl a] = { p with assets := p.assets ++ [a] } := by
  simp [Preview.extend, List.filterMap_cons]

theorem extend_inr (p : Preview) (e : String) : p.extend [.inr e] = { p with errors := p.errors ++ [e] } := by
  simp [Preview.extend, List.filterMap_cons]

theorem extend_cons (p : Preview) (x : Observation ⊕ String) (xs : List (Observation ⊕ String)) :
    (p.extend [x]).extend xs = p.extend (x :: xs) := by
  cases x <;> simp [Preview.extend, List.filterMap_cons]

section

variable [UpperCasing] {t : CsvTable}

def CsvTable.outcomesFrom (t : CsvTable) (row : ℕ) (rows : List (Except Csv.ParseError (List String))) :
    List (Observation ⊕ String) := rows.mapIdx fun i x => t.outcome (row + i) x

theorem outcomesFrom_cons (t : CsvTable) (row : ℕ) (x : Except Csv.ParseError (List String))
    (rows : List (Except Csv.ParseError (List String))) :
    t.outcomesFrom row (x :: rows) = t.outcome row x :: t.outcomesFrom (row + 1) rows := by
  have hshift : (fun i x => t.outcome (row + (i + 1)) x) = fun i x => t.outcome (row + 1 + i) x := by
    funext i x
    rw [Nat.add_right_comm, Nat.add_assoc]
  unfold CsvTable.outcomesFrom
  rw [List.mapIdx_cons, hshift]
  rfl

theorem loop_cons (t : CsvTable) (maxRows : ℤ) (row : ℕ) (p : Preview) (x : Except Csv.ParseError (List String))
    (rows : List (Except Csv.ParseError (List String))) (h : ¬ ∃ record, x = .ok record ∧ maxRows < row) :
    t.loop maxRows row p (x :: rows) = t.loop maxRows (row + 1) (p.extend [t.outcome row x]) rows := by
  cases x with
  | error e =>
    rw [CsvTable.outcome, extend_inr]
    rfl
  | ok record =>
    have hrow : ¬ maxRows < row := fun hrow => h ⟨record, rfl, hrow⟩
    rw [CsvTable.loop, if_neg hrow, CsvTable.outcome]
    by_cases htype : (assetTypeLabels.lookup (t.type record)).isNone = true
    · rw [if_pos htype, if_pos htype, extend_inr]
      rfl
    · rw [if_neg htype, if_neg htype, extend_inl]

theorem loop_of_overrun (h : Overrun maxRows row rows) (t : CsvTable)
    (p : Preview) : t.loop maxRows row p rows = .error "CSV exceeds row limit" := by
  induction rows generalizing row p with
  | nil =>
    obtain ⟨i, record, hrecord, -⟩ := h
    simp at hrecord
  | cons x rows ih =>
    by_cases hfirst : ∃ record, x = .ok record ∧ maxRows < row
    · obtain ⟨record, rfl, hrow⟩ := hfirst
      rw [CsvTable.loop, if_pos hrow]
    · rw [loop_cons t maxRows row p x rows hfirst]
      exact ih ((overrun_cons.mp h).resolve_left hfirst) _

theorem loop_of_within (h : ¬ Overrun maxRows row rows) (t : CsvTable)
    (p : Preview) : t.loop maxRows row p rows = .ok (p.extend (t.outcomesFrom row rows)) := by
  induction rows generalizing row p with
  | nil => simp [CsvTable.loop, CsvTable.outcomesFrom, Preview.extend]
  | cons x rows ih =>
    rw [overrun_cons, not_or] at h
    rw [loop_cons t maxRows row p x rows h.1, ih h.2, extend_cons, outcomesFrom_cons]

theorem outcomes_eq (t : CsvTable) : t.outcomes = t.outcomesFrom 1 t.rows := by
  unfold CsvTable.outcomes CsvTable.outcomesFrom
  simp only [Nat.add_comm]

variable {r : Source} {l : ImportLimits}

section

variable (h : csvTable r l = .ok t)
include h

theorem importCSV_of_table : importCSV r l = t.loop (orDefault l.maxRows 10000) 1 ⟨[], [], []⟩ t.rows := by
  unfold importCSV
  rw [h]

theorem importCSV_of_within (hrows : ¬ Overrun (orDefault l.maxRows 10000) 1 t.rows) :
    importCSV r l = .ok ⟨t.outcomes.filterMap Sum.getLeft?, [], t.outcomes.filterMap Sum.getRight?⟩ := by
  rw [importCSV_of_table h, loop_of_within hrows, outcomes_eq]
  rfl

theorem importCSV_of_overrun (hrows : Overrun (orDefault l.maxRows 10000) 1 t.rows) :
    importCSV r l = .error "CSV exceeds row limit" := by
  rw [importCSV_of_table h, loop_of_overrun hrows]

theorem accounted_iff : t.Accounted (orDefault l.maxRows 10000) (importCSV r l) ↔
      (orDefault l.maxRows 10000 < t.rows.length → ∃ (i : ℕ) (record : List String),
        orDefault l.maxRows 10000 ≤ i ∧ t.rows[i]? = some (.ok record)) := by
  rw [← overrun_one_iff]
  by_cases hrows : Overrun (orDefault l.maxRows 10000) 1 t.rows
  · have hresult := importCSV_of_overrun h hrows
    refine ⟨fun _ _ => hrows, fun _ => ⟨fun p hp => ?_, fun _ => hresult⟩⟩
    rw [hresult] at hp
    cases hp
  · have hresult := importCSV_of_within h hrows
    refine ⟨fun haccounted hmany => ?_, fun hlimit => ⟨fun p hp => ?_, fun hmany => ?_⟩⟩
    · have hlimited := haccounted.limited hmany
      rw [hresult] at hlimited
      cases hlimited
    · rw [hresult] at hp
      cases hp
      exact ⟨rfl, rfl, not_lt.mp fun hmany => hrows (hlimit hmany)⟩
    · exact absurd (hlimit hmany) hrows

end

/-- The loop ends, for there are no more rows than bytes. What it returns accounts for
the rows and keeps to the limit just when a row that parses stands beyond the limit, or
none does. -/
theorem csv_rows_iff (r : Source) (l : ImportLimits) : (∀ t, csvTable r l = .ok t → t.rows.length ≤ r.bytes.length) ∧
    ((∀ t, csvTable r l = .ok t → t.Accounted (orDefault l.maxRows 10000) (importCSV r l)) ↔
      ∀ t, csvTable r l = .ok t → orDefault l.maxRows 10000 < t.rows.length →
        ∃ (i : ℕ) (record : List String), orDefault l.maxRows 10000 ≤ i ∧ t.rows[i]? = some (.ok record)) :=
  ⟨fun _ => length_rows_le, forall_congr' fun _ => forall_congr' fun h => accounted_iff h⟩

end

def rowLimit (maxRows : ℤ) : ImportLimits := ⟨0, 0, 0, maxRows⟩

abbrev plainUpper : UpperCasing := ⟨fun s => String.ofList (s.toList.map Char.toUpper)⟩

def plainHeader : List String := ["external_id", "asset_type", "name"]

theorem columns_plainHeader : ∀ required ∈ requiredColumns, ((indexesOf plainHeader).get required).isSome = true := by
  decide

def brokenText : String := "external_id,asset_type,name\na,SERVICE,web\nb\nc\n"

def brokenTable : CsvTable where
  indexes := indexesOf plainHeader
  rows := [.ok ["a", "SERVICE", "web"], .error ⟨3, 3, 1, .fieldCount⟩, .error ⟨4, 4, 1, .fieldCount⟩]

theorem tableOf_brokenText : tableOf brokenText = .ok brokenTable := by
  have hrecords : Csv.records brokenText = [⟨1, .ok plainHeader⟩, ⟨2, .ok ["a", "SERVICE", "web"]⟩,
      ⟨3, .ok ["b"]⟩, ⟨4, .ok ["c"]⟩] := by decide
  exact tableOf_of_records hrecords columns_plainHeader

/-- With a limit of one row the three rows are taken without an error. -/
theorem broken_rows_unlimited : letI := plainUpper
    csvTable ⟨bytesOf brokenText, none⟩ (rowLimit 1) = .ok brokenTable ∧
      ¬ brokenTable.Accounted 1 (importCSV ⟨bytesOf brokenText, none⟩ (rowLimit 1)) := by
  let _ := plainUpper
  have htable : csvTable ⟨bytesOf brokenText, none⟩ (rowLimit 1) = .ok brokenTable :=
    (csvTable_bytesOf (by decide) (by decide)).trans tableOf_brokenText
  refine ⟨htable, fun haccounted => ?_⟩
  obtain ⟨i, record, hi, hrecord⟩ := (accounted_iff htable).mp haccounted (by decide)
  rcases i with _ | _ | _ | i
  · exact absurd hi (by decide)
  all_goals cases hrecord

end Infragraph
