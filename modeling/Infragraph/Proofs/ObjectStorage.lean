import Mathlib.Data.List.Infix
import Infragraph.Sanity.Apply
import Infragraph.Spec.ObjectStorage

/-! Where objects are kept. A key that passes the filter adds its names to the root, so
whatever is done for it is done below the root, if it has a name at all; a key of dots
and slashes stands for the root itself. -/

namespace Infragraph

open Path

def AcceptedKey (key : String) : Prop := key ≠ "" ∧ contains key ".." = false ∧ isAbs key.toList = false

/-- The key has a component besides dots. -/
def Named (key : String) : Prop := ∃ c ∈ components key.toList, c ≠ [] ∧ c ≠ ['.']

instance (key : String) : Decidable (AcceptedKey key) := inferInstanceAs (Decidable (_ ∧ _ ∧ _))

instance (key : String) : Decidable (Named key) :=
  inferInstanceAs (Decidable (∃ c ∈ components key.toList, c ≠ [] ∧ c ≠ ['.']))

variable {l : Local} {key : String}

theorem contains_of_infix {v part : String} {c : List Char} (h : c <:+: v.toList) (hc : part.toList <+: c) :
    contains v part = true := by
  obtain ⟨s, t, heq⟩ := h
  refine List.any_eq_true.mpr ⟨c ++ t, ?_, ?_⟩
  · rw [List.mem_tails, ← heq, List.append_assoc]
    exact List.suffix_append _ _
  · exact List.isPrefixOf_iff_prefix.mpr (hc.trans (List.prefix_append _ _))

theorem AcceptedKey.component (h : AcceptedKey key) {c : Text} (hc : c ∈ components key.toList) :
    ¬ ['.', '.'] <+: c := by
  intro hdots
  have hcontains : contains key ".." = true := contains_of_infix (infix_of_component hc) hdots
  rw [h.2.1] at hcontains
  cases hcontains

theorem AcceptedKey.dots (h : AcceptedKey key) : ['.', '.'] ∉ components key.toList :=
  fun hmem => h.component hmem List.prefix_rfl

theorem Local.root_eq (l : Local) : render true (resolve l.root) = l.root := by
  have hclean : render (isAbs l.root) (resolve l.root) = l.root := l.cleaned
  rwa [l.absolute] at hclean

def Local.place (l : Local) (key : String) : List Text := resolve l.root ++ kept (components key.toList)

/-- What `Put`, `Get` and `Delete` may do for an accepted key. -/
def Local.ops (l : Local) (key : String) : List FileOp :=
  let p := render true (l.place key)
  let tmp := p ++ ".pending".toList
  [.mkdirAll (dir p), .create tmp, .rename tmp p, .remove tmp, .openRead p, .remove p]

theorem Local.place_names (h : AcceptedKey key) : ∀ c ∈ l.place key, Name c := names_append l.absolute h.dots

theorem Local.rel_eq (h : AcceptedKey key) :
    ∃ rel, Path.rel l.root (render true (l.place key)) = some rel ∧ ['.', '.'].isPrefixOf rel = false := by
  by_cases hkept : kept (components key.toList) = []
  · refine ⟨['.'], ?_, rfl⟩
    rw [Local.place, hkept, List.append_nil, l.root_eq, Path.rel, if_pos rfl]
  · have hrel := rel_render (Local.place_names (l := l) h) hkept
    rw [l.root_eq] at hrel
    refine ⟨_, hrel, ?_⟩
    by_contra hdots
    rw [Bool.not_eq_false, List.isPrefixOf_iff_prefix] at hdots
    obtain ⟨c, cs, hcs⟩ := List.exists_cons_of_ne_nil hkept
    have hc : c ∈ kept (components key.toList) := by
      rw [hcs]
      exact .head _
    rw [hcs] at hdots
    exact h.component (List.mem_of_mem_filter hc)
      (dots_prefix_intercalate (Local.place_names (l := l) h c (List.mem_append_right _ hc)) hdots)

theorem Local.file_eq (l : Local) (h : AcceptedKey key) : l.file key = .ok (render true (l.place key)) := by
  obtain ⟨rel, hrel, hdots⟩ := Local.rel_eq (l := l) h
  have hkey : key.toList ≠ [] := fun hempty => h.1 (String.toList_injective hempty)
  have hjoin : join [l.root, key.toList] = render true (l.place key) := join_eq l.absolute hkey h.dots
  unfold Local.file
  simp only [hjoin, hrel, hdots, h.1, h.2.1, h.2.2, decide_false, Bool.or_self, Bool.false_eq_true, if_false]

theorem Local.file_error (l : Local) (h : ¬ AcceptedKey key) : l.file key = .error "invalid object key" := by
  unfold Local.file
  rw [if_pos]
  by_contra hno
  simp only [Bool.or_eq_true, decide_eq_true_eq, not_or, Bool.not_eq_true] at hno
  exact h ⟨hno.1.1, hno.1.2, hno.2⟩

theorem below_of_ne_nil (h : kept (components key.toList) ≠ []) : Below (resolve l.root) (l.place key) := ⟨_, h, rfl⟩

/-- The place of a key with a name is a directory below the root and a last name. -/
theorem Local.place_concat (h : AcceptedKey key) (hkept : kept (components key.toList) ≠ []) :
    ∃ cs c, l.place key = resolve l.root ++ (cs ++ [c]) ∧ (∀ d ∈ resolve l.root ++ cs, Name d) ∧ Name c := by
  obtain ⟨cs, c, hcs⟩ := (List.eq_nil_or_concat' (kept (components key.toList))).resolve_left hkept
  have hplace : l.place key = resolve l.root ++ (cs ++ [c]) := by rw [Local.place, hcs]
  have hnames := Local.place_names (l := l) h
  rw [hplace, ← List.append_assoc] at hnames
  exact ⟨cs, c, hplace, fun d hd => hnames d (List.mem_append_left _ hd), hnames c (by simp)⟩

/-- With the root in place, `MkdirAll` creates only directories below it. -/
theorem below_of_missing {root cs d : List Text} {dirs : List Text → Bool} (hdirs : ∀ d ∈ root.inits, dirs d = true)
    (hd : d ∈ (root ++ cs).inits) (hmissing : dirs d = false) : Below root d := by
  rw [List.mem_inits] at hd
  simp only [List.mem_inits] at hdirs
  rcases List.prefix_or_prefix_of_prefix hd (List.prefix_append root cs) with h | h
  · rw [hdirs d h] at hmissing
    cases hmissing
  · obtain ⟨t, ht⟩ := h
    subst ht
    refine ⟨t, fun hempty => ?_, rfl⟩
    subst hempty
    rw [hdirs _ (by simp)] at hmissing
    cases hmissing

section

variable {dirs : List Text → Bool} (hdirs : ∀ d ∈ (resolve l.root).inits, dirs d = true)
include hdirs

/-- Every operation of the three on a key stays below the root if the key has a name. -/
theorem Local.ops_below (h : AcceptedKey key) (hkept : kept (components key.toList) ≠ []) {op : FileOp}
    (hop : op ∈ l.ops key) : ∀ place ∈ op.places dirs, Below (resolve l.root) place := by
  obtain ⟨cs, c, hplace, hdir, hc⟩ := Local.place_concat (l := l) h hkept
  have hpending : Name (c ++ ".pending".toList) := hc.append (by decide) (by decide)
  have hp : resolve (render true (l.place key)) = l.place key := resolve_render (Local.place_names h)
  have htmp : resolve (render true (l.place key) ++ ".pending".toList) =
      resolve l.root ++ (cs ++ [c ++ ".pending".toList]) := by
    rw [hplace, ← List.append_assoc, render_concat, resolve_render, List.append_assoc]
    exact List.forall_mem_append.mpr ⟨hdir, by simpa using hpending⟩
  have hparent : resolve (dir (render true (l.place key))) = resolve l.root ++ cs := by
    rw [hplace, ← List.append_assoc, resolve_dir hdir hc]
  have hbelow : Below (resolve l.root) (l.place key) := below_of_ne_nil hkept
  have hbelow' : Below (resolve l.root) (resolve l.root ++ (cs ++ [c ++ ".pending".toList])) := ⟨_, by simp, rfl⟩
  simp only [Local.ops, List.mem_cons, List.not_mem_nil, or_false] at hop
  rcases hop with rfl | rfl | rfl | rfl | rfl | rfl
  · intro place hmem
    obtain ⟨hinit, hmissing⟩ := List.mem_filter.mp hmem
    rw [hparent] at hinit
    exact below_of_missing hdirs hinit (by simpa using hmissing)
  · intro place hmem
    rw [List.mem_singleton.mp hmem, htmp]
    exact hbelow'
  · refine List.forall_mem_cons.mpr ⟨?_, List.forall_mem_singleton.mpr ?_⟩
    · rw [htmp]
      exact hbelow'
    · rw [hp]
      exact hbelow
  · intro place hmem
    rw [List.mem_singleton.mp hmem, htmp]
    exact hbelow'
  · intro place hmem
    rw [List.mem_singleton.mp hmem, hp]
    exact hbelow
  · intro place hmem
    rw [List.mem_singleton.mp hmem, hp]
    exact hbelow

end

theorem Local.put_ops [Hashes] (h : AcceptedKey key) (content : List UInt8) (size : ℤ) (media : String)
    (errors : PutErrors) : (l.put key content size media errors).2 ⊆ l.ops key := by
  unfold Local.put Local.ops
  rw [l.file_eq h]
  dsimp only
  split
  · simp
  · split
    · simp
    · split
      · simp
      · split <;> simp

theorem Local.get_eq (h : AcceptedKey key) (error : Option String) :
    (l.get key error).2 = [.openRead (render true (l.place key))] := by
  unfold Local.get
  rw [l.file_eq h]

theorem Local.delete_eq (h : AcceptedKey key) (error : Option RemoveError) :
    (l.delete key error).2 = [.remove (render true (l.place key))] := by
  unfold Local.delete
  rw [l.file_eq h]

theorem kept_ne_nil_iff : kept (components key.toList) ≠ [] ↔ Named key := by
  simp [kept, Named, List.filter_eq_nil_iff]

/-- Every operation on a key stays below the storage root unless the key passes the
filter and names nothing. -/
theorem Local.confines_iff [Hashes] (l : Local) (key : String) : l.Confines key ↔ (AcceptedKey key → Named key) := by
  refine ⟨fun hconfines h => ?_, fun hnamed dirs hdirs => ?_⟩
  · rw [← kept_ne_nil_iff]
    intro hempty
    -- the key stands for the root, which `Get` opens
    have hplace : resolve (render true (l.place key)) = resolve l.root := by
      rw [resolve_render (Local.place_names h), Local.place, hempty, List.append_nil]
    rcases (hconfines (fun _ => true) (fun _ _ => rfl)).2.1 none with hrefused | hbelow
    · obtain ⟨e, he⟩ := hrefused
      have hops := Local.get_eq (l := l) h none
      rw [he] at hops
      cases hops
    · rw [Local.get_eq h] at hbelow
      obtain ⟨cs, hne, hcs⟩ := hbelow _ (.head _) _ (.head _)
      rw [hplace] at hcs
      exact hne (List.append_right_eq_self.mp hcs.symm)
  · by_cases h : AcceptedKey key
    · have hbelow : ∀ op ∈ l.ops key, ∀ place ∈ op.places dirs, Below (resolve l.root) place :=
        fun op hop => Local.ops_below hdirs h (kept_ne_nil_iff.mpr (hnamed h)) hop
      refine ⟨fun content size media errors => .inr fun op hop => ?_, fun error => .inr fun op hop => ?_,
        fun error => .inr fun op hop => ?_⟩
      · exact hbelow op (Local.put_ops h content size media errors hop)
      · rw [Local.get_eq h] at hop
        exact hbelow op (by simp [Local.ops, List.mem_singleton.mp hop])
      · rw [Local.delete_eq h] at hop
        exact hbelow op (by simp [Local.ops, List.mem_singleton.mp hop])
    · refine ⟨fun _ _ _ _ => .inl ⟨"invalid object key", ?_⟩, fun _ => .inl ⟨"invalid object key", ?_⟩,
        fun _ => .inl ⟨"invalid object key", ?_⟩⟩
      · unfold Local.put
        rw [l.file_error h]
      · unfold Local.get
        rw [l.file_error h]
      · unfold Local.delete
        rw [l.file_error h]

def objects : Local := ⟨"/srv/objects".toList, by decide, by decide⟩

def noErrors : PutErrors := ⟨none, none, none, none, none⟩

/-- The temporary file of the key of one dot is created next to the root. -/
theorem dot_escapes : (@Local.put toy objects "." [] 0 "text/plain" noErrors).2 =
      [.mkdirAll "/srv".toList, .create "/srv/objects.pending".toList,
        .rename "/srv/objects.pending".toList "/srv/objects".toList] ∧
    ¬ Below (resolve "/srv/objects".toList) (resolve "/srv/objects.pending".toList) ∧
    ¬ @Local.Confines toy objects "." := by
  have hops : (@Local.put toy objects "." [] 0 "text/plain" noErrors).2 =
      [.mkdirAll "/srv".toList, .create "/srv/objects.pending".toList,
        .rename "/srv/objects.pending".toList "/srv/objects".toList] := by decide +kernel
  have hbeside : ¬ Below (resolve "/srv/objects".toList) (resolve "/srv/objects.pending".toList) := by
    intro hbelow
    obtain ⟨cs, -, hcs⟩ := hbelow
    have hpre : resolve "/srv/objects".toList <+: resolve "/srv/objects.pending".toList := ⟨cs, hcs.symm⟩
    exact absurd hpre (by decide)
  refine ⟨hops, hbeside, fun hconfines => ?_⟩
  rcases (hconfines (fun _ => true) (fun _ _ => rfl)).1 [] 0 "text/plain" noErrors with hrefused | hbelow
  · obtain ⟨e, he⟩ := hrefused
    rw [he] at hops
    cases hops
  · rw [hops] at hbelow
    exact hbeside (hbelow (.create "/srv/objects.pending".toList) (by simp) _ (.head _))

end Infragraph
