import Mathlib.Data.List.TakeWhile
import Mathlib.Data.String.Basic
import Infragraph.Spec.Collector

/-! The texts of the collector's files: a sequence reads back as it was written,
and spool names are ordered like the sequences in them. -/

namespace Infragraph

open Relational

theorem toString_toList {n : ℤ} (h : 0 ≤ n) : (toString n).toList = Nat.toDigits 10 n.toNat := by
  obtain ⟨m, rfl⟩ := Int.eq_ofNat_of_zero_le h
  have : toString (m : ℤ) = toString m := rfl
  rw [this]
  simp

theorem isSpace_digit {c : Char} (h : c.isDigit = true) : isSpace c = false := by
  simp only [Char.isDigit, Bool.and_eq_true, decide_eq_true_iff] at h
  have h1 : 48 ≤ c.toNat := h.1
  have h2 : c.toNat ≤ 57 := h.2
  simp only [isSpace, List.contains_eq_mem, decide_eq_false_iff_not, List.mem_cons, List.not_mem_nil, or_false]
  omega

theorem dropWhile_digits {ds : List Char} (h : ∀ c ∈ ds, c.isDigit = true) : ds.dropWhile isSpace = ds := by
  cases ds with
  | nil => rfl
  | cons c ds => simp [isSpace_digit (h c (.head _))]

theorem trimSpace_digits {s : String} (h : ∀ c ∈ s.toList, c.isDigit = true) : trimSpace s = s := by
  unfold trimSpace
  rw [dropWhile_digits h, dropWhile_digits fun c hc => h c (List.mem_reverse.mp hc)]
  simp

theorem parseDigits_toDigits (n : ℕ) : parseDigits (Nat.toDigits 10 n) = some n := by
  unfold parseDigits
  rw [if_pos, Nat.ofDigitChars_ten_toDigits]
  refine ⟨Nat.toDigits_ne_nil, List.all_eq_true.mpr fun c hc => ?_⟩
  exact Nat.isDigit_of_mem_toDigits (by omega) le_rfl hc

theorem parseUint_eq_some {ds : List Char} {n : ℕ} (h : n < 2 ^ 64 - 1) :
    parseUint ds = some n ↔ parseDigits ds = some n := by
  unfold parseUint
  split_ifs with hover
  · have hne : ¬ 2 ^ 64 - 1 = n := by omega
    simp only [Option.some.injEq, hne, false_iff]
    unfold parseDigits
    split_ifs with hdigits
    · rw [List.takeWhile_eq_self_iff.mpr (List.all_eq_true.mp hdigits.2)] at hover
      simp only [Option.some.injEq]
      omega
    · simp
  · rfl

/-- In range, `ParseInt` reads the decimal. -/
theorem signed_parseUint {s : String} {v : ℤ} (hlow : -2 ^ 63 ≤ v) (hhigh : v < 2 ^ 63) :
    signed parseUint s = some v ↔ decimal s = some v := by
  unfold decimal signed
  split <;> simp only [Option.map_eq_some_iff] <;> refine exists_congr fun n => and_congr_left fun hv => ?_ <;>
    exact parseUint_eq_some (by omega)

theorem decimal_digits {s : String} (h : ∀ c ∈ s.toList, c.isDigit = true) :
    decimal s = (parseDigits s.toList).map fun n : ℕ => (n : ℤ) := by
  unfold decimal signed
  split
  · rename_i ds hds
    have := h '-' (by rw [hds]; exact .head _)
    exact absurd this (by decide)
  · rename_i ds hds
    have := h '+' (by rw [hds]; exact .head _)
    exact absurd this (by decide)
  · rfl

theorem decimal_toString {n : ℤ} (h : 0 ≤ n) : decimal (trimSpace (toString n)) = some n := by
  have hdigit : ∀ c ∈ (toString n).toList, c.isDigit = true := by
    intro c hc
    rw [toString_toList h] at hc
    exact Nat.isDigit_of_mem_toDigits (by omega) le_rfl hc
  rw [trimSpace_digits hdigit, decimal_digits hdigit, toString_toList h, parseDigits_toDigits, Option.map_some,
    Int.toNat_of_nonneg h]

theorem previousSequence_toString {n : ℤ} (h0 : 0 ≤ n) (h : n < 2 ^ 63) :
    previousSequence (some (toString n)) = n := by
  simp only [previousSequence, parseInt]
  rw [(signed_parseUint (by omega) h).mpr (decimal_toString h0)]
  dsimp only
  omega

theorem lt_sequenceAfter {file : Option String} {now : ℤ} (h0 : 0 ≤ previousSequence file)
    (h : previousSequence file < sequenceBound) : previousSequence file < sequenceAfter file now := by
  unfold sequenceAfter
  dsimp only
  unfold sequenceBound at h
  split_ifs with hle
  · unfold int64
    omega
  · omega

theorem zeroPadded_lt {a b : ℤ} (ha : 0 ≤ a) (hab : a < b) (hb : b < 10 ^ 20) (l m : List Char) :
    zeroPadded a ++ l < zeroPadded b ++ m := by
  unfold zeroPadded
  rw [if_neg (by omega), if_neg (by omega)]
  exact Decimal.append_lt_append (by simp) (Decimal.digits_lt (by omega) (by omega)) l m

theorem spoolName_toList (s : SnapshotEnvelope) :
    (spoolName s).toList = zeroPadded s.sequence ++ '-' :: s.snapshotID.toList ++ ".json".toList :=
  String.toList_ofList

theorem spoolName_lt {s t : SnapshotEnvelope} (h0 : 0 ≤ s.sequence) (h : s.sequence < t.sequence)
    (hb : t.sequence < 10 ^ 20) : spoolName s < spoolName t := by
  rw [String.lt_iff_toList_lt, spoolName_toList, spoolName_toList, List.append_assoc, List.append_assoc]
  exact zeroPadded_lt h0 h hb _ _

theorem isJson_spoolName (s : SnapshotEnvelope) : isJson (spoolName s) = true := by
  rw [isJson, spoolName_toList, List.isSuffixOf_iff_suffix]
  exact List.suffix_append _ _

theorem isJson_pendingName (s : SnapshotEnvelope) : isJson (pendingName s) = false := by
  rw [Bool.eq_false_iff, ne_eq, isJson, pendingName, List.isSuffixOf_iff_suffix]
  rintro ⟨l, hl⟩
  -- the last characters differ
  have := congrArg List.getLast? hl
  simp at this

theorem spoolName_ne_pendingName (s t : SnapshotEnvelope) : pendingName s ≠ spoolName t := by
  intro h
  have := isJson_pendingName s
  rw [h, isJson_spoolName] at this
  cases this

/-- The listing: the names of the complete files, in order. -/
theorem mem_listed {disk : Disk} {name : String} :
    name ∈ disk.listed ↔ (∃ f ∈ disk.spool, f.name = name) ∧ isJson name = true := by
  simp [Disk.listed, List.mem_filter, (List.perm_insertionSort _ _).mem_iff, Table.mem_rows]

theorem listed_sorted (disk : Disk) : disk.listed.Pairwise (· < ·) := by
  have hsorted := List.pairwise_insertionSort (· ≤ ·) (disk.spool.rows.map (·.name))
  have hnodup : ((disk.spool.rows.map (·.name)).insertionSort (· ≤ ·)).Nodup :=
    (List.perm_insertionSort _ _).nodup_iff.mpr disk.spool.nodup
  have := (hsorted.and hnodup).imp fun {a b} h => lt_of_le_of_ne h.1 h.2
  exact this.filter _

end Infragraph
