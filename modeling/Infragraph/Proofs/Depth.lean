import Infragraph.Lib.JsonText
import Infragraph.Spec.Imports

/-! The depth scanner against the grammar. Over a value the scanner comes back to the
state it was in, and has seen as many brackets open as the value nests, whatever stands
in the strings of the value. -/

namespace Infragraph

open JsonText

variable {t t' : List UInt8} {d : ℕ}

/-- Outside of strings the scanner passes over the text, `d` brackets deep. -/
def Passes (t : List UInt8) (d : ℕ) : Prop :=
  ∀ level top : ℤ, level ≤ top →
    t.foldl DepthScan.step ⟨level, top, false, false⟩ = ⟨level, max top (level + d), false, false⟩

def PassesQuoted (t : List UInt8) : Prop :=
  ∀ level top : ℤ, t.foldl DepthScan.step ⟨level, top, true, false⟩ = ⟨level, top, true, false⟩

def marks : List UInt8 := [0x22, 0x7B, 0x5B, 0x7D, 0x5D]

theorem Passes.append {d' : ℕ} (h : Passes t d) (h' : Passes t' d') : Passes (t ++ t') (max d d') := by
  intro level top hle
  rw [List.foldl_append, h level top hle, h' level _ (le_max_of_le_left hle)]
  congr 1
  omega

theorem Passes.append_flat (h : Passes t d) (h' : Passes t' 0) : Passes (t ++ t') d := by
  simpa using h.append h'

theorem Passes.flat_append (h : Passes t 0) (h' : Passes t' d) : Passes (t ++ t') d := by
  simpa using h.append h'

theorem passes_of_unmarked (h : ∀ b ∈ t, b ∉ marks) : Passes t 0 := by
  intro level top hle
  have htop : max top (level + (0 : ℕ)) = top := by simpa using hle
  rw [htop]
  induction t with
  | nil => rfl
  | cons b t ih =>
    obtain ⟨hb, ht⟩ := List.forall_mem_cons.mp h
    simp only [marks, List.mem_cons, List.not_mem_nil, or_false, not_or] at hb
    have hstep : DepthScan.step ⟨level, top, false, false⟩ b = ⟨level, top, false, false⟩ := by
      simp [DepthScan.step, hb]
    rw [List.foldl_cons, hstep, ih ht]

theorem step_open {c : UInt8} (h : c ∈ [0x7B, 0x5B]) (level top : ℤ) :
    DepthScan.step ⟨level, top, false, false⟩ c = ⟨level + 1, max top (level + 1), false, false⟩ := by
  have hmax : (if top ≤ level then level + 1 else top) = max top (level + 1) := by omega
  simp only [List.mem_cons, List.not_mem_nil, or_false] at h
  rcases h with rfl | rfl <;> simp [DepthScan.step, hmax]

theorem step_close {c : UInt8} (h : c ∈ [0x7D, 0x5D]) (level top : ℤ) :
    DepthScan.step ⟨level, top, false, false⟩ c = ⟨level - 1, top, false, false⟩ := by
  simp only [List.mem_cons, List.not_mem_nil, or_false] at h
  rcases h with rfl | rfl <;> simp [DepthScan.step]

theorem Passes.brackets (h : Passes t d) {opening closing : UInt8} (hopen : opening ∈ [0x7B, 0x5B])
    (hclose : closing ∈ [0x7D, 0x5D]) : Passes (opening :: t ++ [closing]) (d + 1) := by
  intro level top hle
  rw [List.cons_append, List.foldl_cons, step_open hopen, List.foldl_append, h _ _ (le_max_right _ _), List.foldl_cons,
    List.foldl_nil, step_close hclose]
  congr 1
  · omega
  · omega

theorem passes_of_blank (h : Blank t) : Passes t 0 := by
  refine passes_of_unmarked fun b hb hmark => ?_
  have hapart : ∀ b ∈ blanks, b ∉ marks := by decide +kernel
  exact hapart b (h b hb) hmark

theorem digit_unmarked {b : UInt8} (h : isDigit b = true) : b ∉ marks := by
  intro hmark
  have hapart : ∀ b ∈ marks, isDigit b = false := by decide +kernel
  rw [hapart b hmark] at h
  cases h

theorem number_unmarked (h : JsonText.Number t) : ∀ b ∈ t, b ∉ marks := by
  obtain ⟨signs, hsigns, hinteger, hfraction, hexponent⟩ := h
  simp only [List.forall_mem_append]
  refine ⟨⟨⟨?_, ?_⟩, ?_⟩, ?_⟩
  · have hsign : ∀ signs ∈ [[], [0x2D]], ∀ b ∈ signs, b ∉ marks := by decide +kernel
    exact hsign signs hsigns
  · cases hinteger with
    | zero => decide +kernel
    | digits hdigits => exact fun b hb => digit_unmarked (hdigits.digits b hb)
  · cases hfraction with
    | none => simp
    | some hdigits =>
      refine List.forall_mem_cons.mpr ⟨by decide, fun b hb => digit_unmarked (hdigits.digits b hb)⟩
  · cases hexponent with
    | none => simp
    | some signs hletter hsigns hdigits =>
      have hletters : ∀ b ∈ ([0x65, 0x45] : List UInt8), b ∉ marks := by decide +kernel
      have hsign : ∀ signs ∈ ([[], [0x2B], [0x2D]] : List (List UInt8)), ∀ b ∈ signs, b ∉ marks := by decide +kernel
      refine List.forall_mem_append.mpr ⟨List.forall_mem_cons.mpr ⟨hletters _ hletter, hsign _ hsigns⟩, ?_⟩
      exact fun b hb => digit_unmarked (hdigits.digits b hb)

theorem literal_unmarked (h : t ∈ literals) : ∀ b ∈ t, b ∉ marks := by
  have hliterals : ∀ t ∈ literals, ∀ b ∈ t, b ∉ marks := by decide +kernel
  exact hliterals t h

theorem PassesQuoted.append (h : PassesQuoted t) (h' : PassesQuoted t') : PassesQuoted (t ++ t') := by
  intro level top
  rw [List.foldl_append, h, h']

theorem passesQuoted_byte {b : UInt8} (hquote : b ≠ 0x22) (hescape : b ≠ 0x5C) : PassesQuoted [b] := by
  intro level top
  simp [DepthScan.step, hquote, hescape]

theorem passesQuoted_escape (b : UInt8) : PassesQuoted [0x5C, b] := by
  intro level top
  simp [DepthScan.step]

theorem passesQuoted_hex {hex : List UInt8} (h : ∀ b ∈ hex, isHex b = true) : PassesQuoted hex := by
  induction hex with
  | nil => exact fun _ _ => rfl
  | cons b hex ih =>
    obtain ⟨hb, hhex⟩ := List.forall_mem_cons.mp h
    refine (passesQuoted_byte (fun heq => ?_) fun heq => ?_).append (ih hhex)
    · rw [heq] at hb
      exact absurd hb (by decide)
    · rw [heq] at hb
      exact absurd hb (by decide)

theorem passesQuoted_characters (h : Characters t) : PassesQuoted t := by
  induction h with
  | nil => exact fun _ _ => rfl
  | plain _ hquote hescape _ ih => exact (passesQuoted_byte hquote hescape).append ih
  | escape _ _ ih => exact (passesQuoted_escape _).append ih
  | unicode _ hhex _ ih => exact ((passesQuoted_escape _).append (passesQuoted_hex hhex)).append ih

theorem passes_quoted (h : Quoted t) : Passes t 0 := by
  obtain ⟨ht⟩ := h
  intro level top hle
  have htop : max top (level + (0 : ℕ)) = top := by simpa using hle
  have hin : DepthScan.step ⟨level, top, false, false⟩ 0x22 = ⟨level, top, true, false⟩ := rfl
  have hout : DepthScan.step ⟨level, top, true, false⟩ 0x22 = ⟨level, top, false, false⟩ := rfl
  rw [List.cons_append, List.foldl_cons, hin, List.foldl_append, passesQuoted_characters ht, List.foldl_cons, hout,
    List.foldl_nil, htop]

/-- The induction is on the derivation of the value, its elements and its members. -/
theorem passes_value (h : Value t d) : Passes t d := by
  have hcomma : Passes [0x2C] 0 := passes_of_unmarked (by decide +kernel)
  have hcolon : Passes [0x3A] 0 := passes_of_unmarked (by decide +kernel)
  -- the key of a member, up to its value
  have hkey : ∀ {s k s₁ s₂ : List UInt8}, Blank s → Quoted k → Blank s₁ → Blank s₂ →
      Passes (s ++ k ++ s₁ ++ 0x3A :: s₂) 0 := by
    intro s k s₁ s₂ hs hk hs₁ hs₂
    exact (((passes_of_blank hs).append_flat (passes_quoted hk)).append_flat (passes_of_blank hs₁)).append_flat
      (hcolon.append_flat (passes_of_blank hs₂))
  refine @Value.rec (fun t d _ => Passes t d) (fun t d _ => Passes t d) (fun t d _ => Passes t d)
    ?_ ?_ ?_ ?_ ?_ ?_ ?_ ?_ ?_ ?_ ?_ t d h
  · intro t ht
    exact passes_of_unmarked (literal_unmarked ht)
  · intro t ht
    exact passes_of_unmarked (number_unmarked ht)
  · intro t ht
    exact passes_quoted ht
  · intro s hs
    exact (passes_of_blank hs).brackets (by decide) (by decide)
  · intro t d _ ht
    exact ht.brackets (by decide) (by decide)
  · intro s hs
    exact (passes_of_blank hs).brackets (by decide) (by decide)
  · intro t d _ ht
    exact ht.brackets (by decide) (by decide)
  · intro s t s' d hs _ hs' ht
    exact ((passes_of_blank hs).flat_append ht).append_flat (passes_of_blank hs')
  · intro s t s' ts d e hs _ hs' _ ht hts
    have hfirst := ((passes_of_blank hs).flat_append ht).append_flat (passes_of_blank hs')
    exact hfirst.append (hcomma.flat_append hts)
  · intro s k s₁ s₂ t s' d hs hk hs₁ hs₂ _ hs' ht
    exact ((hkey hs hk hs₁ hs₂).flat_append ht).append_flat (passes_of_blank hs')
  · intro s k s₁ s₂ t s' ts d e hs hk hs₁ hs₂ _ hs' _ ht hts
    have hfirst := ((hkey hs hk hs₁ hs₂).flat_append ht).append_flat (passes_of_blank hs')
    exact hfirst.append (hcomma.flat_append hts)

theorem step_max_le (s : DepthScan) (c : UInt8) : s.max ≤ (s.step c).max := by
  unfold DepthScan.step
  split_ifs <;> simp only [le_refl]
  omega

theorem foldl_max_le (t : List UInt8) (s : DepthScan) : s.max ≤ (t.foldl DepthScan.step s).max := by
  induction t generalizing s with
  | nil => exact le_rfl
  | cons c t ih => exact (step_max_le s c).trans (ih _)

theorem depth_append {s rest : List UInt8} (hs : Blank s) (ht : Value t d) :
    depth (s ++ t ++ rest) = (rest.foldl DepthScan.step ⟨0, d, false, false⟩).max := by
  unfold depth
  rw [List.foldl_append, (passes_of_blank hs).flat_append (passes_value ht) 0 0 le_rfl]
  simp

/-- The scanner sees a value that begins the input at least as deep as it is nested,
and exactly so if only white space follows; so what `JSON` decodes is within the limit. -/
theorem depth_covers_value {s t rest : List UInt8} {d : ℕ} (hs : Blank s) (ht : Value t d) :
    (d : ℤ) ≤ depth (s ++ t ++ rest) ∧ (Blank rest → depth (s ++ t ++ rest) = d) ∧
      ∀ [InventoryDecoder] (r : Source) (l : ImportLimits) (doc : JSONDocument),
        r.readBounded (orDefault l.maxBytes (10 * 2 ^ 20)) "JSON exceeds byte limit" = .ok (s ++ t ++ rest) →
        documentOf r l = .ok doc → (d : ℤ) ≤ orDefault l.maxDepth 16 := by
  have hle : (d : ℤ) ≤ depth (s ++ t ++ rest) := by
    rw [depth_append hs ht]
    exact foldl_max_le rest _
  refine ⟨hle, fun hrest => ?_, fun r l doc hread hdoc => ?_⟩
  · rw [depth_append hs ht, passes_of_blank hrest 0 d (by omega)]
    simp
  · unfold documentOf at hdoc
    rw [hread] at hdoc
    by_contra hdeep
    have hlimit : orDefault l.maxDepth 16 < depth (s ++ t ++ rest) := by omega
    simp only [hlimit, if_true] at hdoc
    cases hdoc

def inventoryText : List UInt8 :=
  [0x7B, 0x22, 0x61, 0x73, 0x73, 0x65, 0x74, 0x73, 0x22, 0x3A, 0x5B, 0x5D, 0x7D]

theorem value_inventoryText : Value inventoryText 2 := by
  have hkey : Quoted [0x22, 0x61, 0x73, 0x73, 0x65, 0x74, 0x73, 0x22] := by
    refine .mk (t := [0x61, 0x73, 0x73, 0x65, 0x74, 0x73]) ?_
    repeat refine .plain (by decide) (by decide) (by decide) ?_
    exact .nil
  have hblank : Blank [] := by simp [Blank]
  exact .object (.last hblank hkey hblank hblank (.emptyArray hblank) hblank)

abbrev inventoryDecoder : InventoryDecoder :=
  ⟨fun raw => if raw = [0x0A] ++ inventoryText ++ [0x20] then .ok ⟨[], []⟩ else .error "invalid character"⟩

theorem depth_covers_nested : (2 : ℤ) ≤ depth ([0x0A] ++ inventoryText ++ [0x5D, 0x22]) ∧
    depth ([0x0A] ++ inventoryText ++ [0x20]) = 2 ∧ (2 : ℤ) ≤ orDefault 2 16 :=
  ⟨(depth_covers_value (by decide) value_inventoryText).1,
    (depth_covers_value (by decide) value_inventoryText).2.1 (by decide),
    letI := inventoryDecoder
    (depth_covers_value (by decide) value_inventoryText).2.2 ⟨[0x0A] ++ inventoryText ++ [0x20], none⟩ ⟨0, 0, 2, 0⟩
      ⟨[], []⟩ rfl rfl⟩

end Infragraph
