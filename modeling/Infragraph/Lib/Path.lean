import Mathlib.Tactic

/-! Slash-separated paths and their lexical cleaning. A path names the list of the
components it resolves to: empty components and dots are left out, and two dots take
back the component before them, above the root nothing. -/

namespace Path

variable {c p root key : Text} {cs : List Text}

abbrev Text := List Char

def isAbs : Text → Bool
  | '/' :: _ => true
  | _ => false

def components (p : Text) : List Text := p.splitOn '/'

def push (rooted : Bool) (stack : List Text) (c : Text) : List Text :=
  if c = [] ∨ c = ['.'] then stack
  else if c = ['.', '.'] then
    match stack with
    | [] => if rooted then [] else [c]
    | top :: rest => if top = ['.', '.'] then c :: stack else rest
  else c :: stack

def resolve (p : Text) : List Text := ((components p).foldl (push (isAbs p)) []).reverse

def render (rooted : Bool) (cs : List Text) : Text :=
  if rooted then '/' :: ['/'].intercalate cs
  else if cs = [] then ['.'] else ['/'].intercalate cs

def clean (p : Text) : Text := render (isAbs p) (resolve p)

/-- The elements that are not empty, joined and cleaned. -/
def join (elements : List Text) : Text :=
  let present := elements.filter (· ≠ [])
  if present = [] then [] else clean (['/'].intercalate present)

def dir (p : Text) : Text := clean (p.reverse.dropWhile (· ≠ '/')).reverse

def strip : List Text → List Text → List Text × List Text
  | a :: as, b :: bs => if a = b then strip as bs else (a :: as, b :: bs)
  | as, bs => (as, bs)

/-- The way from one path to another, if cleaning can tell it. -/
def rel (base target : Text) : Option Text :=
  if clean target = clean base then some ['.']
  else if isAbs base ≠ isAbs target then none
  else
    let (up, down) := strip (resolve base) (resolve target)
    if up.head? = some ['.', '.'] then none
    else some (['/'].intercalate (List.replicate up.length ['.', '.'] ++ down))

def Below (root place : List Text) : Prop := ∃ cs, cs ≠ [] ∧ place = root ++ cs

structure Name (c : Text) : Prop where
  nonempty : c ≠ []
  dot : c ≠ ['.']
  dots : c ≠ ['.', '.']
  slash : '/' ∉ c

theorem Name.append {e : Text} (hc : Name c) (hslash : '/' ∉ e) (hlong : 2 < e.length) : Name (c ++ e) := by
  have hlength : ∀ d : Text, d.length ≤ 2 → c ++ e ≠ d := by
    intro d hd heq
    have := congrArg List.length heq
    rw [List.length_append] at this
    omega
  refine ⟨hlength _ (by simp), hlength _ (by simp), hlength _ (by simp), fun hmem => ?_⟩
  exact (List.mem_append.mp hmem).elim hc.slash hslash

theorem components_append (p q : Text) : components (p ++ '/' :: q) = components p ++ components q :=
  List.splitOn_append_cons_self ..

theorem slash_notMem (h : c ∈ components p) : '/' ∉ c := by
  unfold components at h
  induction p generalizing c with
  | nil => simp_all
  | cons x p ih =>
    rw [List.splitOn_cons_eq_if_modifyHead] at h
    by_cases hx : x = '/'
    · simp only [hx, beq_self_eq_true, if_true, List.mem_cons] at h
      rcases h with rfl | h
      · simp
      · exact ih h
    · simp only [beq_iff_eq, hx, if_false] at h
      cases hp : p.splitOn '/' with
      | nil => exact absurd hp (List.splitOn_ne_nil _ _)
      | cons d ds =>
        rw [hp] at h ih
        rcases List.mem_cons.mp h with rfl | h
        · exact fun hmem => (List.mem_cons.mp hmem).elim (fun heq => hx heq.symm) (ih (.head _))
        · exact ih (.tail _ h)

theorem infix_intercalate (h : c ∈ cs) : c <:+: ['/'].intercalate cs := by
  induction cs with
  | nil => cases h
  | cons d cs ih =>
    by_cases hcs : cs = []
    · subst hcs
      rw [List.mem_singleton.mp h]
      simp [List.intercalate]
    · rw [List.intercalate_cons_of_ne_nil hcs]
      rcases List.mem_cons.mp h with heq | h
      · subst heq
        exact ⟨[], _, by rw [List.nil_append, ← List.append_assoc]⟩
      · exact (ih h).trans (List.suffix_append _ _).isInfix

theorem infix_of_component (h : c ∈ components p) : c <:+: p := by
  have hinfix := infix_intercalate h
  rwa [components, List.intercalate_splitOn] at hinfix

theorem components_render (h : ∀ c ∈ cs, Name c) (hne : cs ≠ []) : components (['/'].intercalate cs) = cs :=
  List.splitOn_intercalate _ (fun c hc => (h c hc).slash) hne

theorem push_name (h : Name c) (rooted : Bool) (stack : List Text) : push rooted stack c = c :: stack := by
  simp [push, h.nonempty, h.dot, h.dots]

theorem push_blank (h : c = [] ∨ c = ['.']) (rooted : Bool) (stack : List Text) :
    push rooted stack c = stack := if_pos h

/-- What cleaning keeps of components without two dots. -/
def kept (cs : List Text) : List Text := cs.filter fun c => ¬ (c = [] ∨ c = ['.'])

theorem kept_of_names (h : ∀ c ∈ cs, Name c) : kept cs = cs := by
  refine List.filter_eq_self.mpr fun c hc => ?_
  simp [(h c hc).nonempty, (h c hc).dot]

/-- Without two dots, components are only added. -/
theorem foldl_push (h : ['.', '.'] ∉ cs) (rooted : Bool) (stack : List Text) :
    cs.foldl (push rooted) stack = (kept cs).reverse ++ stack := by
  induction cs generalizing stack with
  | nil => rfl
  | cons c cs ih =>
    rw [List.mem_cons, not_or] at h
    rw [List.foldl_cons, ih h.2]
    by_cases hblank : c = [] ∨ c = ['.']
    · have hkept : kept (c :: cs) = kept cs :=
        List.filter_cons_of_neg (by simp only [decide_eq_true_eq, not_not]; exact hblank)
      rw [push_blank hblank, hkept]
    · have hkept : kept (c :: cs) = c :: kept cs := List.filter_cons_of_pos (by simpa using hblank)
      have hpush : push rooted stack c = c :: stack := by
        simp [push, hblank, Ne.symm h.1]
      rw [hpush, hkept, List.reverse_cons, List.append_assoc]
      rfl

theorem dots_notMem (h : ∀ c ∈ cs, Name c) : ['.', '.'] ∉ cs := fun hmem => (h _ hmem).dots rfl

/-- Below the root there are only names. -/
theorem push_names {stack : List Text} (h : ∀ d ∈ stack, Name d) (hc : '/' ∉ c) :
    ∀ d ∈ push true stack c, Name d := by
  by_cases hblank : c = [] ∨ c = ['.']
  · rw [push_blank hblank]
    exact h
  by_cases hdots : c = ['.', '.']
  · subst hdots
    cases stack with
    | nil => simp [push]
    | cons top rest =>
      obtain ⟨htop, hrest⟩ := List.forall_mem_cons.mp h
      simpa [push, htop.dots] using hrest
  · rw [not_or] at hblank
    have hname : Name c := ⟨hblank.1, hblank.2, hdots, hc⟩
    rw [push_name hname]
    exact List.forall_mem_cons.mpr ⟨hname, h⟩

theorem resolve_names (h : isAbs p = true) : ∀ c ∈ resolve p, Name c := by
  have hfold : ∀ (cs : List Text) (stack : List Text), (∀ c ∈ cs, '/' ∉ c) → (∀ d ∈ stack, Name d) →
      ∀ d ∈ cs.foldl (push true) stack, Name d := by
    intro cs
    induction cs with
    | nil => intro stack _ hstack; exact hstack
    | cons c cs ih =>
      intro stack hcs hstack
      obtain ⟨hc, hcs⟩ := List.forall_mem_cons.mp hcs
      exact ih _ hcs (push_names hstack hc)
  intro c hc
  unfold resolve at hc
  rw [h] at hc
  exact hfold _ _ (fun c hc => slash_notMem hc) (by simp) c (List.mem_reverse.mp hc)

/-- A rendered path resolves to what was rendered. -/
theorem resolve_render (h : ∀ c ∈ cs, Name c) : resolve (render true cs) = cs := by
  have habs : isAbs (render true cs) = true := rfl
  have hsplit : components (render true cs) = [] :: components (['/'].intercalate cs) :=
    components_append [] _
  unfold resolve
  rw [habs, hsplit, List.foldl_cons, push_blank (.inl rfl)]
  by_cases hne : cs = []
  · subst hne
    rfl
  · rw [components_render h hne, foldl_push (dots_notMem h), kept_of_names h, List.append_nil, List.reverse_reverse]

theorem clean_render (h : ∀ c ∈ cs, Name c) : clean (render true cs) = render true cs := by
  have habs : isAbs (render true cs) = true := rfl
  unfold clean
  rw [habs, resolve_render h]

section

variable (h : isAbs root = true)
include h

theorem isAbs_append (p : Text) : isAbs (root ++ p) = true := by
  cases root with
  | nil => cases h
  | cons x root =>
    unfold isAbs at h ⊢
    split at h
    · rename_i heq
      cases heq
      rfl
    · cases h

/-- A key without two dots adds its names to those of the root. -/
theorem resolve_append (hdots : ['.', '.'] ∉ components key) :
    resolve (root ++ '/' :: key) = resolve root ++ kept (components key) := by
  unfold resolve
  rw [isAbs_append h, h, components_append, List.foldl_append, foldl_push hdots, List.reverse_append,
    List.reverse_reverse]

theorem join_eq (hkey : key ≠ []) (hdots : ['.', '.'] ∉ components key) :
    join [root, key] = render true (resolve root ++ kept (components key)) := by
  have hroot : root ≠ [] := by
    intro hempty
    subst hempty
    cases h
  have hpresent : [root, key].filter (· ≠ []) = [root, key] := by simp [hroot, hkey]
  have htext : ['/'].intercalate [root, key] = root ++ '/' :: key := by simp [List.intercalate]
  unfold join
  rw [hpresent]
  simp only [List.cons_ne_nil, if_false, htext, clean, isAbs_append h, resolve_append h hdots]

theorem names_append (hdots : ['.', '.'] ∉ components key) : ∀ c ∈ resolve root ++ kept (components key), Name c := by
  intro c hc
  rcases List.mem_append.mp hc with hc | hc
  · exact resolve_names h c hc
  · obtain ⟨hmem, hkept⟩ := List.mem_filter.mp hc
    simp only [not_or, decide_eq_true_eq] at hkept
    exact ⟨hkept.1, hkept.2, fun heq => hdots (heq ▸ hmem), slash_notMem hmem⟩

end

theorem intercalate_concat (h : cs ≠ []) (c : Text) :
    ['/'].intercalate (cs ++ [c]) = ['/'].intercalate cs ++ '/' :: c := by
  induction cs with
  | nil => exact absurd rfl h
  | cons d cs ih =>
    by_cases hcs : cs = []
    · subst hcs
      simp [List.intercalate]
    · rw [List.cons_append, List.intercalate_cons_of_ne_nil (by simp), List.intercalate_cons_of_ne_nil hcs, ih hcs,
        List.append_assoc, List.append_assoc, List.append_assoc]

theorem render_concat_of_ne_nil (h : cs ≠ []) (c : Text) : render true (cs ++ [c]) = render true cs ++ '/' :: c := by
  unfold render
  rw [if_pos rfl, if_pos rfl, intercalate_concat h, List.cons_append]

/-- A suffix belongs to the last component. -/
theorem render_concat (cs : List Text) (c e : Text) : render true (cs ++ [c]) ++ e = render true (cs ++ [c ++ e]) := by
  by_cases hcs : cs = []
  · subst hcs
    simp [render, List.intercalate]
  · rw [render_concat_of_ne_nil hcs, render_concat_of_ne_nil hcs, List.append_assoc, List.cons_append]

theorem dir_append (p : Text) (hc : '/' ∉ c) : dir (p ++ '/' :: c) = clean (p ++ ['/']) := by
  have hdrop : ∀ x ∈ c.reverse, decide (x ≠ '/') = true := by
    intro x hx
    rw [decide_eq_true_iff]
    exact fun heq => hc (heq ▸ List.mem_reverse.mp hx)
  unfold dir
  rw [List.reverse_append, List.reverse_cons, List.append_assoc, List.dropWhile_append_of_pos hdrop]
  simp

theorem resolve_dir (h : ∀ d ∈ cs, Name d) (hc : Name c) : resolve (dir (render true (cs ++ [c]))) = cs := by
  by_cases hcs : cs = []
  · subst hcs
    have htext : render true ([] ++ [c]) = [] ++ '/' :: c := by simp [render, List.intercalate]
    rw [htext, dir_append _ hc.slash]
    rfl
  · have habs : isAbs (render true cs) = true := rfl
    have hblank : ['.', '.'] ∉ components [] := by decide
    rw [render_concat_of_ne_nil hcs, dir_append _ hc.slash, clean, isAbs_append habs, resolve_append habs hblank,
      resolve_render h, show kept (components []) = [] from rfl, List.append_nil, resolve_render h]

theorem strip_append (cs ds : List Text) : strip cs (cs ++ ds) = ([], ds) := by
  induction cs with
  | nil => cases ds <;> rfl
  | cons c cs ih => simp [strip, ih]

theorem rel_render {ds : List Text} (h : ∀ c ∈ cs ++ ds, Name c) (hne : ds ≠ []) :
    rel (render true cs) (render true (cs ++ ds)) = some (['/'].intercalate ds) := by
  have hcs : ∀ c ∈ cs, Name c := fun c hc => h c (List.mem_append_left _ hc)
  have hdiff : clean (render true (cs ++ ds)) ≠ clean (render true cs) := by
    rw [clean_render h, clean_render hcs]
    intro heq
    have hresolved := congrArg resolve heq
    rw [resolve_render h, resolve_render hcs] at hresolved
    exact hne (List.append_right_eq_self.mp hresolved)
  have habs : isAbs (render true cs) = isAbs (render true (cs ++ ds)) := rfl
  unfold rel
  rw [if_neg hdiff, if_neg (not_not_intro habs), resolve_render hcs, resolve_render h, strip_append]
  simp

/-- A relative path begins with two dots only where its first name does. -/
theorem dots_prefix_intercalate (hc : Name c)
    (h : ['.', '.'] <+: ['/'].intercalate (c :: cs)) : ['.', '.'] <+: c := by
  obtain ⟨t, ht⟩ : ∃ t, ['/'].intercalate (c :: cs) = c ++ t := by
    by_cases hcs : cs = []
    · exact ⟨[], by simp [hcs, List.intercalate]⟩
    · exact ⟨_, by rw [List.intercalate_cons_of_ne_nil hcs, List.append_assoc]⟩
  rw [ht] at h
  rcases c with _ | ⟨x, _ | ⟨y, c⟩⟩
  · exact absurd rfl hc.nonempty
  · have hx : '.' = x := (List.cons_prefix_cons.mp h).1
    exact absurd (by rw [hx]) hc.dot
  · obtain ⟨hx, h⟩ := List.cons_prefix_cons.mp h
    obtain ⟨hy, -⟩ := List.cons_prefix_cons.mp h
    rw [← hx, ← hy]
    exact ⟨c, rfl⟩

end Path
