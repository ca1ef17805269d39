import Infragraph.Sanity.Collector

/-! The sequence file over a series of `nextSequence` calls. A call advances the
file unless it already holds the largest int64, a decimal beyond it, or digits worth
2^64 or more before anything else: then the next number wraps around. -/

namespace Infragraph

/-- The integer that the file is the decimal of; of digits worth 2^64 or more, with
whatever behind them, the largest uint64. -/
def numeral (file : Option String) : Option ℤ := file.bind fun raw => signed parseUint (trimSpace raw)

def held (file : Option String) : Option ℤ := file.bind fun raw => atoi (trimSpace raw)

/-- The file is no decimal from the largest int64 on, and starts with no digits worth
2^64 or more. -/
def BelowTop (file : Option String) : Prop := ∀ n, numeral file = some n → n < 2 ^ 63 - 1

/-- The number is positive, above what the file held, and what it holds then. -/
structure Advances (file : Option String) (n : ℤ) (file' : Option String) : Prop where
  positive : 1 ≤ n
  above : ∀ v, held file = some v → v < n
  holds : held file' = some n

variable {file : Option String} {disk : Disk} {now n v : ℤ}

theorem previousSequence_eq (file : Option String) :
    previousSequence file = (numeral file).elim 0 fun n => max (-2 ^ 63) (min n (2 ^ 63 - 1)) := by
  cases file with
  | none => rfl
  | some raw =>
    unfold previousSequence numeral parseInt
    dsimp only
    rw [Option.bind_some]
    cases signed parseUint (trimSpace raw) <;> rfl

theorem held_eq_some : held file = some v ↔ numeral file = some v ∧ -2 ^ 63 ≤ v ∧ v < 2 ^ 63 := by
  cases file with
  | none => simp [held, numeral]
  | some raw =>
    unfold held numeral atoi
    simp only [Option.bind_some, Option.filter_eq_some_iff, decide_eq_true_eq]
    exact and_congr_left fun hv => (signed_parseUint hv.1 hv.2).symm

theorem previousSequence_le (file : Option String) : previousSequence file ≤ 2 ^ 63 - 1 := by
  rw [previousSequence_eq]
  cases numeral file with
  | none => decide
  | some n =>
    simp only [Option.elim_some]
    omega

theorem previousSequence_lt_iff : previousSequence file < 2 ^ 63 - 1 ↔ BelowTop file := by
  rw [previousSequence_eq]
  unfold BelowTop
  cases numeral file with
  | none => simp
  | some m =>
    simp only [Option.elim_some, Option.some.injEq, forall_eq']
    omega

theorem previousSequence_of_held (h : held file = some v) : previousSequence file = v := by
  obtain ⟨hnumeral, hlow, hhigh⟩ := held_eq_some.mp h
  rw [previousSequence_eq, hnumeral, Option.elim_some]
  omega

theorem held_toString (h0 : 0 ≤ n) (h : n < 2 ^ 63) : held (some (toString n)) = some n := by
  unfold held atoi
  rw [Option.bind_some, decimal_toString h0, Option.filter_some, if_pos (decide_eq_true ⟨by omega, h⟩)]

theorem sequenceAfter_eq (hnow : 1 ≤ now) (h : BelowTop file) :
    sequenceAfter file now = max now (previousSequence file + 1) := by
  have hlt := previousSequence_lt_iff.mpr h
  unfold sequenceAfter
  dsimp only
  split_ifs with hle
  · unfold int64
    omega
  · omega

theorem sequenceAfter_top (hnow : now ≤ 2 ^ 63 - 1) (h : ¬ BelowTop file) : sequenceAfter file now = -2 ^ 63 := by
  have hle := previousSequence_le file
  have hlt := mt previousSequence_lt_iff.mp h
  unfold sequenceAfter
  dsimp only
  unfold int64
  omega

theorem advances_iff (hlow : 1 ≤ now) (hhigh : now ≤ 2 ^ 63 - 1) :
    Advances file (sequenceAfter file now) (some (toString (sequenceAfter file now))) ↔ BelowTop file := by
  constructor
  · intro h
    by_contra htop
    have hpositive := h.positive
    rw [sequenceAfter_top hhigh htop] at hpositive
    omega
  · intro h
    have hlt := previousSequence_lt_iff.mpr h
    rw [sequenceAfter_eq hlow h]
    refine ⟨by omega, ?_, held_toString (by omega) (by omega)⟩
    intro v hv
    rw [previousSequence_of_held hv]
    omega

/-- The numbers that calls return one after the other, each with a clock reading and
the outcome of its file operations, and the disk after them. -/
def nextSequences (disk : Disk) : List (ℤ × SequenceWrite) → List ℤ × Disk
  | [] => ([], disk)
  | call :: calls =>
    let out := nextSequence disk call.1 call.2
    let rest := nextSequences out.2 calls
    (out.1.toList ++ rest.1, rest.2)

def InRange (calls : List (ℤ × SequenceWrite)) : Prop := ∀ call ∈ calls, 1 ≤ call.1 ∧ call.1 ≤ 2 ^ 63 - 1

def StaysBelow (disk : Disk) (calls : List (ℤ × SequenceWrite)) : Prop :=
  ∀ k, k < calls.length → BelowTop (nextSequences disk (calls.take k)).2.sequence

theorem StaysBelow.head {call : ℤ × SequenceWrite} {calls : List (ℤ × SequenceWrite)}
    (h : StaysBelow disk (call :: calls)) : BelowTop disk.sequence := h 0 (by simp)

theorem StaysBelow.tail {call : ℤ × SequenceWrite} {calls : List (ℤ × SequenceWrite)}
    (h : StaysBelow disk (call :: calls)) : StaysBelow (nextSequence disk call.1 call.2).2 calls := by
  intro k hk
  exact h (k + 1) (by simpa using hk)

/-- Whatever is returned is above what the file held, and each number above those before it. -/
theorem nextSequences_increase {calls : List (ℤ × SequenceWrite)} (hrange : InRange calls)
    (hbelow : StaysBelow disk calls) : (nextSequences disk calls).1.Pairwise (· < ·) ∧
      ∀ n ∈ (nextSequences disk calls).1, 1 ≤ n ∧ ∀ v, held disk.sequence = some v → v < n := by
  induction calls generalizing disk with
  | nil => simp [nextSequences]
  | cons call calls ih =>
    obtain ⟨now, outcome⟩ := call
    obtain ⟨hsorted, habove⟩ := ih (fun c hc => hrange c (.tail _ hc)) hbelow.tail
    cases outcome with
    | writeFailed left => exact ⟨hsorted, habove⟩
    | renameFailed => exact ⟨hsorted, habove⟩
    | done =>
      obtain ⟨hlow, hhigh⟩ := hrange _ (.head _)
      have hone := (advances_iff hlow hhigh).mpr hbelow.head
      have hnext : ∀ n ∈ (nextSequences (nextSequence disk now .done).2 calls).1,
          sequenceAfter disk.sequence now < n :=
        fun n hn => (habove n hn).2 _ hone.holds
      refine ⟨List.pairwise_cons.mpr ⟨hnext, hsorted⟩, List.forall_mem_cons.mpr ⟨⟨hone.positive, hone.above⟩, ?_⟩⟩
      intro n hn
      refine ⟨(habove n hn).1, fun v hv => ?_⟩
      exact (hone.above v hv).trans (hnext n hn)

/-- A successful call advances the file exactly when it is below the top; over a
series of calls that all find it there, the numbers strictly increase. -/
theorem nextSequence_advances_iff (disk : Disk) : (∀ now, 1 ≤ now → now ≤ 2 ^ 63 - 1 →
        ((∀ n disk', nextSequence disk now .done = (some n, disk') → Advances disk.sequence n disk'.sequence) ↔
          BelowTop disk.sequence)) ∧
      ∀ calls, InRange calls → StaysBelow disk calls → (nextSequences disk calls).1.Pairwise (· < ·) := by
  refine ⟨fun now hlow hhigh => ?_, fun calls hrange hbelow => (nextSequences_increase hrange hbelow).1⟩
  rw [← advances_iff hlow hhigh]
  constructor
  · exact fun h => h _ _ rfl
  · rintro h n disk' heq
    cases heq
    exact h

def fullDisk : Disk := ⟨some "9223372036854775807\n", none, .empty⟩

theorem sequence_wraps_around : held fullDisk.sequence = some (2 ^ 63 - 1) ∧
    (nextSequences fullDisk [(1, .done), (1, .done)]).1 = [-2 ^ 63, 1] := by
  decide +kernel

end Infragraph
