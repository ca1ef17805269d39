import Mathlib.Tactic

/-! Delimited text. A scanner that follows quotes and brackets knows where a
value ends: at the first comma or closing bracket that is not inside. Texts that
leave the scanner where they found it can be cut apart again after they were
joined, and so can the code words of a prefix code. -/

namespace Delimited

variable {α β : Type}
variable {t t' : List Char}

inductive Mode where
  | plain | quoted | escaped

/-- The number of open brackets, and the mode inside; `none` at the end of the
value. -/
def step : ℕ × Mode → Char → Option (ℕ × Mode)
  | (d, .quoted), c => some (d, if c = '"' then .plain else if c = '\\' then .escaped else .quoted)
  | (d, .escaped), _ => some (d, .quoted)
  | (d, .plain), c =>
    if c = '"' then some (d, .quoted)
    else if c = '[' ∨ c = '\x7b' then some (d + 1, .plain)
    else if c = ']' ∨ c = '\x7d' then (if d = 0 then none else some (d - 1, .plain))
    else if c = ',' ∧ d = 0 then none
    else some (d, .plain)

def scan (s : ℕ × Mode) (t : List Char) : Option (ℕ × Mode) := t.foldlM step s

def value (s : ℕ × Mode) : List Char → List Char
  | [] => []
  | c :: t => match step s c with
    | none => []
    | some s' => c :: value s' t

theorem scan_append {s s' : ℕ × Mode} (h : scan s t = some s') (r : List Char) : scan s (t ++ r) = scan s' r := by
  rw [scan, List.foldlM_append, show t.foldlM step s = some s' from h]
  rfl

/-- A text between two marks, the second of which undoes the first. -/
theorem scan_between {a b : Char} {s s' : ℕ × Mode} (ha : scan s [a] = some s') (h : scan s' t = some s')
    (hb : scan s' [b] = some s) : scan s (a :: t ++ [b]) = some s := by
  rw [List.cons_append, ← List.singleton_append, scan_append ha, scan_append h, hb]

theorem value_append {s s' : ℕ × Mode} (h : scan s t = some s') (r : List Char) :
    value s (t ++ r) = t ++ value s' r := by
  induction t generalizing s with
  | nil =>
    cases h
    rfl
  | cons c t ih =>
    obtain ⟨s₁, hstep, hscan⟩ := Option.bind_eq_some_iff.mp h
    rw [List.cons_append, value, hstep]
    exact congrArg (c :: ·) (ih hscan)

/-- The text leaves the scanner where it found it, outside of quotes. -/
def Closed (t : List Char) : Prop := ∀ d, scan (d, .plain) t = some (d, .plain)

/-- The same inside of brackets, where a comma does not end anything. -/
def Inner (t : List Char) : Prop := ∀ d, scan (d + 1, .plain) t = some (d + 1, .plain)

/-- The same inside of quotes. -/
def Quoted (t : List Char) : Prop := ∀ d, scan (d, .quoted) t = some (d, .quoted)

def special : List Char := ['"', '[', '\x7b', ']', '\x7d', ',']

def terminators : List Char := [',', ']', '\x7d']

theorem Closed.nil : Closed [] := fun _ => rfl

theorem Closed.append (h : Closed t) (h' : Closed t') : Closed (t ++ t') :=
  fun d => (scan_append (h d) t').trans (h' d)

theorem Quoted.append (h : Quoted t) (h' : Quoted t') : Quoted (t ++ t') :=
  fun d => (scan_append (h d) t').trans (h' d)

theorem Quoted.flatMap {f : α → List Char} (h : ∀ a, Quoted (f a)) (s : List α) : Quoted (s.flatMap f) := by
  induction s with
  | nil => exact fun _ => rfl
  | cons a s ih => exact (h a).append ih

theorem Quoted.chars (h : ∀ c ∈ t, c ≠ '"' ∧ c ≠ '\\') : Quoted t := by
  intro d
  induction t with
  | nil => rfl
  | cons c t ih =>
    have hc : step (d, .quoted) c = some (d, .quoted) := by
      obtain ⟨hq, he⟩ := h c (.head _)
      simp [step, hq, he]
    rw [scan, List.foldlM_cons, hc]
    exact ih fun c' hc' => h c' (.tail _ hc')

/-- Two characters, the first an escape. -/
theorem Quoted.escape (c : Char) : Quoted ['\\', c] := fun _ => rfl

theorem Closed.quote (h : Quoted t) : Closed ('"' :: t ++ ['"']) := by
  intro d
  refine scan_between ?_ (h d) ?_ <;> rfl

def Plain (t : List Char) : Prop := ∀ c ∈ t, c ∉ special

instance (t : List Char) : Decidable (Plain t) := List.decidableBAll (fun c => c ∉ special) t

theorem Plain.append (h : Plain t) (h' : Plain t') : Plain (t ++ t') := by
  intro c hc
  rcases List.mem_append.mp hc with hc | hc
  · exact h c hc
  · exact h' c hc

theorem Plain.sub (h : Plain t) (hs : t' ⊆ t) : Plain t' := fun c hc => h c (hs hc)

theorem Plain.closed (h : Plain t) : Closed t := by
  intro d
  induction t with
  | nil => rfl
  | cons c t ih =>
    have hc : step (d, .plain) c = some (d, .plain) := by
      have hspecial := h c (.head _)
      simp only [special, List.mem_cons, List.not_mem_nil, or_false, not_or] at hspecial
      obtain ⟨h1, h2, h3, h4, h5, h6⟩ := hspecial
      simp [step, h1, h2, h3, h4, h5, h6]
    rw [scan, List.foldlM_cons, hc]
    exact ih fun c' hc' => h c' (.tail _ hc')

theorem Closed.inner (h : Closed t) : Inner t := fun d => h (d + 1)

theorem Inner.comma (h : Inner t) (h' : Inner t') : Inner (t ++ ',' :: t') := by
  intro d
  have hcomma : scan (d + 1, .plain) [','] = some (d + 1, .plain) := by simp [scan, step]
  rw [scan_append (h d), ← List.singleton_append, scan_append hcomma, h' d]

theorem Closed.brackets (h : Inner t) : Closed ('[' :: t ++ [']']) := by
  intro d
  refine scan_between ?_ (h d) ?_ <;> rfl

theorem Closed.braces (h : Inner t) : Closed ('\x7b' :: t ++ ['\x7d']) := by
  intro d
  refine scan_between ?_ (h d) ?_ <;> rfl

/-- A closed text is read back as a value, up to a terminator or the end. -/
theorem Closed.value_eq {r : List Char} (h : Closed t) (hr : ∀ c ∈ r.head?, c ∈ terminators) :
    value (0, .plain) (t ++ r) = t := by
  rw [value_append (h 0)]
  cases r with
  | nil => exact List.append_nil t
  | cons c r =>
    have hc : step (0, .plain) c = none := by
      have := hr c rfl
      simp only [terminators, List.mem_cons, List.not_mem_nil, or_false] at this
      rcases this with rfl | rfl | rfl <;> rfl
    rw [value, hc, List.append_nil]

theorem Closed.append_inj {r r' : List Char} (h : Closed t) (h' : Closed t') (hr : ∀ c ∈ r.head?, c ∈ terminators)
    (hr' : ∀ c ∈ r'.head?, c ∈ terminators) (heq : t ++ r = t' ++ r') : t = t' ∧ r = r' := by
  have ht : t = t' := by rw [← h.value_eq hr, heq, h'.value_eq hr']
  subst ht
  exact ⟨rfl, List.append_cancel_left heq⟩

/-- Two texts joined by a mark that neither of the first parts contains. -/
theorem mark_inj {mark : α} {x x' y y' : List α} (hx : mark ∉ x) (hx' : mark ∉ x')
    (h : x ++ mark :: y = x' ++ mark :: y') : x = x' ∧ y = y' := by
  induction x generalizing x' with
  | nil =>
    cases x' with
    | nil => exact ⟨rfl, (List.cons.inj h).2⟩
    | cons a x' =>
      obtain rfl : mark = a := (List.cons.inj h).1
      exact absurd (.head _) hx'
  | cons a x ih =>
    cases x' with
    | nil =>
      obtain rfl : a = mark := (List.cons.inj h).1
      exact absurd (.head _) hx
    | cons a' x' =>
      obtain ⟨rfl, hrest⟩ := List.cons.inj h
      obtain ⟨rfl, rfl⟩ := ih (fun hm => hx (.tail _ hm))
        (fun hm => hx' (.tail _ hm)) hrest
      exact ⟨rfl, rfl⟩

/-- The same from the other end. -/
theorem mark_inj_last {mark : α} {x x' y y' : List α} (hy : mark ∉ y) (hy' : mark ∉ y')
    (h : x ++ mark :: y = x' ++ mark :: y') : x = x' ∧ y = y' := by
  have hrev := congrArg List.reverse h
  simp only [List.reverse_append, List.reverse_cons, List.append_assoc, List.singleton_append] at hrev
  obtain ⟨h1, h2⟩ := mark_inj (by simpa using hy) (by simpa using hy') hrev
  exact ⟨List.reverse_injective h2, List.reverse_injective h1⟩

/-- No code word begins another. -/
def PrefixFree (f : α → List β) : Prop := ∀ a b, f a <+: f b → a = b

theorem PrefixFree.append_inj {f : α → List β} (hf : PrefixFree f) {a b : α} {x y : List β}
    (h : f a ++ x = f b ++ y) : a = b ∧ x = y := by
  have hab : a = b := by
    rcases List.append_eq_append_iff.mp h with ⟨z, hz, -⟩ | ⟨z, hz, -⟩
    · exact hf a b ⟨z, hz.symm⟩
    · exact (hf b a ⟨z, hz.symm⟩).symm
  subst hab
  exact ⟨rfl, List.append_cancel_left h⟩

/-- Code words up to a mark that begins none of them. -/
theorem PrefixFree.flatMap_inj {f : α → List β} (hf : PrefixFree f) {mark : β} (hmark : ∀ a x y, f a ++ x ≠ mark :: y)
    {s s' : List α} {r r' : List β}
    (h : s.flatMap f ++ mark :: r = s'.flatMap f ++ mark :: r') : s = s' ∧ r = r' := by
  induction s generalizing s' with
  | nil =>
    cases s' with
    | nil => exact ⟨rfl, (List.cons.inj h).2⟩
    | cons b s' =>
      rw [List.flatMap_cons, List.append_assoc] at h
      exact absurd h.symm (hmark b _ _)
  | cons a s ih =>
    cases s' with
    | nil =>
      rw [List.flatMap_cons, List.append_assoc] at h
      exact absurd h (hmark a _ _)
    | cons b s' =>
      rw [List.flatMap_cons, List.flatMap_cons, List.append_assoc, List.append_assoc] at h
      obtain ⟨rfl, hrest⟩ := hf.append_inj h
      obtain ⟨rfl, rfl⟩ := ih hrest
      exact ⟨rfl, rfl⟩

end Delimited
