import Mathlib.Data.List.Perm.Basic
import Mathlib.Data.List.Nodup
import Mathlib.Tactic

/-! Keyed tables. A table is the list of its rows in physical order together
with the fact that no two rows share the key, so a lookup by key is a partial
function and `put` (replace or append) is a function update. Every later fact
about a table is read off `get`. -/

namespace Relational

structure Table {ρ κ : Type} (key : ρ → κ) where
  rows : List ρ
  nodup : (rows.map key).Nodup

namespace Table

variable {ρ κ : Type} {key : ρ → κ} {t t' : Table key} {r r' x : ρ} {k : κ} {f g : ρ → ρ} {p q : ρ → Bool}

instance : Membership ρ (Table key) := ⟨fun t r => r ∈ t.rows⟩

instance {p : ρ → Prop} [DecidablePred p] : Decidable (∀ r ∈ t, p r) := inferInstanceAs (Decidable (∀ r ∈ t.rows, p r))

instance {p : ρ → Prop} [DecidablePred p] : Decidable (∃ r ∈ t, p r) := inferInstanceAs (Decidable (∃ r ∈ t.rows, p r))

theorem mem_rows : r ∈ t.rows ↔ r ∈ t := Iff.rfl

def empty : Table key := ⟨[], List.nodup_nil⟩

@[simp] theorem not_mem_empty (r : ρ) : r ∉ (empty : Table key) := List.not_mem_nil

theorem eq_of_key (h : r ∈ t) (h' : r' ∈ t) (hk : key r = key r') : r = r' :=
  List.inj_on_of_nodup_map t.nodup h h' hk

variable [DecidableEq κ]

def get (t : Table key) (k : κ) : Option ρ := t.rows.find? fun r => key r = k

theorem get_eq_some : t.get k = some r ↔ r ∈ t ∧ key r = k := by
  constructor
  · intro h
    exact ⟨List.mem_of_find?_eq_some h, by simpa using List.find?_some h⟩
  · rintro ⟨hr, rfl⟩
    cases h : t.get (key r) with
    | none =>
      have := List.find?_eq_none.mp h r hr
      simp at this
    | some r' =>
      have hr' : r' ∈ t := List.mem_of_find?_eq_some h
      have hk : key r' = key r := by simpa using List.find?_some h
      rw [eq_of_key hr' hr hk]

theorem get_eq_none : t.get k = none ↔ ∀ r ∈ t, key r ≠ k := by
  simp [get, List.find?_eq_none, mem_rows]

theorem mem_iff_get : r ∈ t ↔ t.get (key r) = some r := by
  rw [get_eq_some]; simp

theorem mem_of_get (h : t.get k = some r) : r ∈ t :=
  (get_eq_some.mp h).1

theorem key_of_get (h : t.get k = some r) : key r = k :=
  (get_eq_some.mp h).2

@[simp] theorem get_empty (k : κ) : (empty : Table key).get k = none := rfl

/-- Replace the row with the key of `r`, or append `r`. -/
def putRows (key : ρ → κ) (r : ρ) : List ρ → List ρ
  | [] => [r]
  | x :: xs => if key x = key r then r :: xs else x :: putRows key r xs

theorem map_key_putRows (r : ρ) (l : List ρ) :
    (putRows key r l).map key = if key r ∈ l.map key then l.map key else l.map key ++ [key r] := by
  induction l with
  | nil => simp [putRows]
  | cons x xs ih =>
    by_cases hx : key x = key r
    · simp [putRows, hx]
    · have hx' : key r ≠ key x := fun h => hx h.symm
      simp only [putRows, hx, ite_false, List.map_cons, ih, List.mem_cons, hx', false_or]
      split_ifs <;> simp

def put (t : Table key) (r : ρ) : Table key where
  rows := putRows key r t.rows
  nodup := by
    rw [map_key_putRows]
    split_ifs with h
    · exact t.nodup
    · rw [← List.concat_eq_append, List.nodup_concat]
      exact ⟨h, t.nodup⟩

theorem find_putRows (r : ρ) (l : List ρ) (k : κ) : (putRows key r l).find? (fun x => key x = k) =
      if key r = k then some r else l.find? fun x => key x = k := by
  induction l with
  | nil => by_cases h : key r = k <;> simp [putRows, h]
  | cons x xs ih =>
    by_cases hx : key x = key r
    · by_cases h : key r = k <;> simp [putRows, hx, h]
    · simp only [putRows, hx, ite_false, List.find?_cons, ih]
      by_cases h : key r = k
      · have : key x ≠ k := fun h' => hx (h'.trans h.symm)
        simp [this, h]
      · simp [h]

theorem get_put (t : Table key) (r : ρ) (k : κ) : (t.put r).get k = if key r = k then some r else t.get k :=
  find_putRows r t.rows k

@[simp] theorem get_put_self (t : Table key) (r : ρ) : (t.put r).get (key r) = some r := by
  simp [get_put]

theorem get_put_of_ne (t : Table key) (h : key r ≠ k) : (t.put r).get k = t.get k := by
  simp [get_put, h]

theorem mem_put : x ∈ t.put r ↔ x = r ∨ x ∈ t ∧ key x ≠ key r := by
  rw [mem_iff_get, get_put]
  by_cases h : key r = key x
  · simp only [h, ite_true, Option.some.injEq, ne_eq, not_true_eq_false, and_false, or_false]
    exact eq_comm
  · have h' : key x ≠ key r := fun he => h he.symm
    have hne : x ≠ r := fun he => h (he ▸ rfl)
    simp [h, h', hne, mem_iff_get]

theorem mem_put_fresh (h : t.get (key r) = none) : x ∈ t.put r ↔ x = r ∨ x ∈ t := by
  rw [mem_put]
  refine or_congr_right ⟨And.left, fun hx => ⟨hx, ?_⟩⟩
  exact get_eq_none.mp h x hx

/-- A row whose key is free, and which no row matches, violates neither constraint. -/
theorem unrefused {ε : Type} {P : ρ → Prop} [DecidablePred P] {e e' : ε} (h : ∀ x ∈ t, key x ≠ k ∧ ¬ P x) :
    (if (t.get k).isSome then some e else if t.rows.any (fun x => P x) then some e' else none) = none := by
  have hget : t.get k = none := get_eq_none.mpr fun x hx => (h x hx).1
  simpa [hget, mem_rows] using fun x hx => (h x hx).2

theorem rows_put_fresh (h : t.get (key r) = none) : (t.put r).rows = t.rows ++ [r] := by
  have hne : ∀ x ∈ t.rows, key x ≠ key r := get_eq_none.mp h
  show putRows key r t.rows = _
  generalize t.rows = rows at hne
  induction rows with
  | nil => rfl
  | cons x rows ih =>
    rw [putRows, if_neg (hne x (.head _)), ih fun y hy => hne y (.tail _ hy),
      List.cons_append]

def erase (t : Table key) (k : κ) : Table key where
  rows := t.rows.filter fun r => key r ≠ k
  nodup := t.nodup.sublist (List.filter_sublist.map key)

theorem mem_erase : r ∈ t.erase k ↔ r ∈ t ∧ key r ≠ k := by
  simp [← mem_rows, erase]

theorem get_erase_of_ne (t : Table key) {k k' : κ} (h : k ≠ k') : (t.erase k).get k' = t.get k' := by
  cases hg : t.get k' with
  | none =>
    rw [get_eq_none] at hg ⊢
    exact fun r hr => hg r (mem_erase.mp hr).1
  | some r =>
    rw [get_eq_some] at hg ⊢
    exact ⟨mem_erase.mpr ⟨hg.1, fun hk => h (hk.symm.trans hg.2)⟩, hg.2⟩

section

variable (hg : ∀ r, key (g r) = key r) (h : ∀ k, t'.get k = (t.get k).map g)
include hg h

/-- A table whose rows are those of `t`, each changed by `g` in place. -/
theorem mem_of_get_map : x ∈ t' ↔ ∃ r ∈ t, g r = x := by
  rw [mem_iff_get, h, Option.map_eq_some_iff]
  constructor
  · rintro ⟨r, hr, rfl⟩
    exact ⟨r, mem_of_get hr, rfl⟩
  · rintro ⟨r, hr, rfl⟩
    exact ⟨r, by rw [hg]; exact mem_iff_get.mp hr, rfl⟩

theorem rows_perm_map : t'.rows.Perm (t.rows.map g) := by
  have hnodup : ((t.rows.map g).map key).Nodup := by
    rw [List.map_map, show key ∘ g = key from funext hg]
    exact t.nodup
  rw [List.perm_ext_iff_of_nodup (List.Nodup.of_map key t'.nodup) (List.Nodup.of_map key hnodup)]
  intro x
  rw [mem_rows, mem_of_get_map hg h, List.mem_map]
  rfl

end

def putAll (t : Table key) (rs : List ρ) : Table key := rs.foldl put t

@[simp] theorem putAll_nil (t : Table key) : t.putAll [] = t := rfl

@[simp] theorem putAll_cons (t : Table key) (r : ρ) (rs : List ρ) : t.putAll (r :: rs) = (t.put r).putAll rs := rfl

theorem get_putAll_of_not_mem (t : Table key) (rs : List ρ) (h : ∀ r ∈ rs, key r ≠ k) :
    (t.putAll rs).get k = t.get k := by
  induction rs generalizing t with
  | nil => rfl
  | cons r rs ih =>
    rw [putAll_cons, ih _ fun x hx => h x (.tail _ hx),
      get_put_of_ne _ (h r (.head _))]

/-- Two tables that agree at `k` still agree there after the same puts. -/
theorem get_putAll_congr (h : t.get k = t'.get k) (rs : List ρ) : (t.putAll rs).get k = (t'.putAll rs).get k := by
  induction rs generalizing t t' with
  | nil => exact h
  | cons r rs ih => exact ih (by rw [get_put, get_put, h])

/-- Where a list puts a row with key `k`, the last such row is found. -/
theorem get_putAll_written {rs : List ρ} (h : ∃ r ∈ rs, key r = k) :
    ∃ x ∈ rs, key x = k ∧ ∀ t : Table key, (t.putAll rs).get k = some x := by
  induction rs with
  | nil => simp at h
  | cons y ys ih =>
    by_cases hys : ∃ z ∈ ys, key z = k
    · obtain ⟨x, hx, hxk, hget⟩ := ih hys
      exact ⟨x, .tail _ hx, hxk, fun t => hget _⟩
    · push Not at hys
      have hyk : key y = k := by
        obtain ⟨r, hr, hk⟩ := h
        rcases List.mem_cons.mp hr with rfl | hr
        · exact hk
        · exact absurd hk (hys r hr)
      refine ⟨y, .head _, hyk, fun t => ?_⟩
      rw [putAll_cons, get_putAll_of_not_mem _ _ hys, get_put, if_pos hyk]

/-- The rows an `UPDATE` writes: those satisfying `p`, changed by `f`. -/
def changed (t : Table key) (p : ρ → Bool) (f : ρ → ρ) : List ρ := (t.rows.filter p).map f

theorem get_putAll_map (hf : ∀ r, key (f r) = key r) (l : List ρ) (hl : (l.map key).Nodup) (t : Table key) (k : κ) :
    (t.putAll (l.map f)).get k =
      match l.find? (fun r => key r = k) with
      | some r => some (f r)
      | none => t.get k := by
  induction l generalizing t with
  | nil => rfl
  | cons x xs ih =>
    rw [List.map_cons, List.nodup_cons] at hl
    rw [List.map_cons, putAll_cons, ih hl.2]
    by_cases hx : key x = k
    · have hnone : xs.find? (fun r => key r = k) = none := by
        rw [List.find?_eq_none]
        intro y hy hyk
        exact hl.1 (List.mem_map.mpr ⟨y, hy, by simpa [hx] using hyk⟩)
      simp [hnone, hx, get_put, hf]
    · simp [hx, get_put, hf]

/-- An `UPDATE` changes the rows it selects and no other. -/
theorem get_changed (t : Table key) (p : ρ → Bool) (hf : ∀ r, key (f r) = key r) (k : κ) :
    (t.putAll (t.changed p f)).get k = (t.get k).map fun r => if p r then f r else r := by
  have hl : ((t.rows.filter p).map key).Nodup := t.nodup.sublist (List.filter_sublist.map key)
  rw [changed, get_putAll_map hf _ hl]
  cases h : (t.rows.filter p).find? (fun r => key r = k) with
  | some r =>
    have hmem := List.mem_filter.mp (List.mem_of_find?_eq_some h)
    have hk : key r = k := by simpa using List.find?_some h
    rw [show t.get k = some r from get_eq_some.mpr ⟨hmem.1, hk⟩]
    simp [hmem.2]
  | none =>
    cases hg : t.get k with
    | none => rfl
    | some r =>
      have hp : ¬ p r := by
        intro hp
        have := List.find?_eq_none.mp h r (List.mem_filter.mpr ⟨mem_of_get hg, hp⟩)
        simp [key_of_get hg] at this
      simp [hp]

theorem filter_key (t : Table key) (k : κ) : t.rows.filter (fun r => key r = k) = (t.get k).toList := by
  obtain ⟨rows, nodup⟩ := t
  simp only [get]
  induction rows with
  | nil => rfl
  | cons x xs ih =>
    rw [List.map_cons, List.nodup_cons] at nodup
    by_cases hx : key x = k
    · have hnone : xs.filter (fun r => key r = k) = [] := by
        rw [List.filter_eq_nil_iff]
        intro y hy hyk
        exact nodup.1 (List.mem_map.mpr ⟨y, hy, by simpa [hx] using hyk⟩)
      simp [hx, hnone]
    · simpa [hx] using ih nodup.2

/-- An `UPDATE` by key writes at most one row. -/
theorem changed_key (t : Table key) (k : κ) (q : ρ → Bool) (f : ρ → ρ) :
    t.changed (fun r => key r = k && q r) f = ((t.get k).filter q).toList.map f := by
  have h : t.rows.filter (fun r => key r = k && q r) = (t.rows.filter (fun r => key r = k)).filter q := by
    rw [List.filter_filter]
    apply List.filter_congr
    intro r _
    exact Bool.and_comm _ _
  rw [changed, h, filter_key]
  cases t.get k with
  | none => rfl
  | some r => cases hq : q r <;> simp [hq, Option.filter]

omit [DecidableEq κ] in
theorem mem_changed : x ∈ t.changed p f ↔ ∃ r ∈ t, p r = true ∧ f r = x := by
  simp [changed, mem_rows, and_assoc]

/-- Every key has the row it had, or one that `ok` allows in its place. -/
def Evolves (ok : Option ρ → ρ → Prop) (t t' : Table key) : Prop :=
  ∀ k, t'.get k = t.get k ∨ ∃ r, t'.get k = some r ∧ ok (t.get k) r

section

variable {ok : Option ρ → ρ → Prop} {t₂ : Table key}

theorem Evolves.refl (t : Table key) : Evolves ok t t := fun _ => .inl rfl

theorem Evolves.trans (hok : ∀ o r r', ok o r → ok (some r) r' → ok o r') (h : Evolves ok t t')
    (h' : Evolves ok t' t₂) : Evolves ok t t₂ := by
  intro k
  rcases h k with he | ⟨r, hr, hrk⟩
  · rw [← he]
    exact h' k
  · rcases h' k with he' | ⟨r', hr', hrk'⟩
    · exact .inr ⟨r, he'.trans hr, hrk⟩
    · exact .inr ⟨r', hr', hok _ r r' hrk (hr ▸ hrk')⟩

theorem evolves_put (h : ok (t.get (key r)) r) : Evolves ok t (t.put r) := by
  intro k
  rw [get_put]
  split_ifs with hk
  · exact .inr ⟨r, rfl, hk ▸ h⟩
  · exact .inl rfl

theorem evolves_map (h : ∀ k, t'.get k = (t.get k).map g)
    (hg : ∀ r ∈ t, g r = r ∨ ok (some r) (g r)) : Evolves ok t t' := by
  intro k
  rw [h]
  cases hk : t.get k with
  | none => exact .inl rfl
  | some r =>
    rcases hg r (mem_of_get hk) with he | hok
    · exact .inl (congrArg some he)
    · exact .inr ⟨g r, rfl, hok⟩

theorem Evolves.mem (h : Evolves ok t t') (hr : r ∈ t) (hno : ∀ r', ¬ ok (some r) r') : r ∈ t' := by
  rw [mem_iff_get] at hr ⊢
  rcases h (key r) with he | ⟨r', -, hok⟩
  · rw [he, hr]
  · rw [hr] at hok
    exact absurd hok (hno r')

/-- A row that may neither appear nor be replaced is there after iff before. -/
theorem Evolves.mem_iff (h : Evolves ok t t') (hno : ∀ r', ¬ ok (some r) r')
    (hnew : ∀ o, ¬ ok o r) : r ∈ t' ↔ r ∈ t := by
  refine ⟨fun hr => ?_, fun hr => h.mem hr hno⟩
  rw [mem_iff_get] at hr ⊢
  rcases h (key r) with he | ⟨r', hr', hok⟩
  · rw [← he, hr]
  · cases hr.symm.trans hr'
    exact absurd hok (hnew _)

end

section

def restrict (t : Table key) (q : ρ → Bool) : Table key where
  rows := t.rows.filter q
  nodup := t.nodup.sublist (List.filter_sublist.map key)

omit [DecidableEq κ] in
theorem mem_restrict : r ∈ t.restrict q ↔ r ∈ t ∧ q r = true := by
  simp [← mem_rows, restrict]

omit [DecidableEq κ] in
theorem mem_restrict_or (hr : r ∈ t) (h : r ∉ t.restrict fun r => !q r) : q r = true := by
  by_contra hq
  exact h (mem_restrict.mpr ⟨hr, by simpa using hq⟩)

/-- Putting the row adds or replaces a row of the owner. -/
def Owned (q : ρ → Bool) (t : Table key) (r : ρ) : Prop :=
  q r = true ∧ ∀ x, t.get (key r) = some x → q x = true

theorem Owned.put (h : Owned q t r) (h' : Owned q t r') : Owned q (t.put r) r' := by
  refine ⟨h'.1, fun x hx => ?_⟩
  rw [get_put] at hx
  split_ifs at hx with hk
  · cases hx
    exact h.1
  · exact h'.2 x hx

theorem filter_putRows {l : List ρ} (h : ∀ x ∈ l, key x = key r → q x = q r) :
    (putRows key r l).filter q = if q r then putRows key r (l.filter q) else l.filter q := by
  induction l with
  | nil => cases hr : q r <;> simp [putRows, hr]
  | cons x xs ih =>
    have ih := ih fun y hy => h y (List.mem_cons_of_mem x hy)
    by_cases hx : key x = key r
    · cases hr : q r <;> simp [putRows, hx, hr, h x (.head _) hx]
    · cases hr : q r <;> cases hq : q x <;> simp_all [putRows]

theorem restrict_put_other (h : Owned q t r) : (t.put r).restrict (fun r => !q r) = t.restrict fun r => !q r := by
  simp only [restrict, put, mk.injEq]
  rw [filter_putRows fun x hx hk => by rw [h.2 x (get_eq_some.mpr ⟨hx, hk⟩), h.1], if_neg (by simp [h.1])]

theorem owned_of_old {r old : ρ} (hold : t.get (key r) = some old) (ho : q old = true)
    (hr : q r = true) : Owned q t r := by
  refine ⟨hr, fun x hx => ?_⟩
  cases hold.symm.trans hx
  exact ho

theorem owned_of_fresh (hr : q r = true) (h : t.get (key r) = none) : Owned q t r :=
  ⟨hr, fun x hx => by simp [h] at hx⟩

omit [DecidableEq κ] in
theorem any_restrict (h : ∀ r ∈ t, p r = true → q r = true) : (t.restrict q).rows.any p = t.rows.any p := by
  rw [Bool.eq_iff_iff, List.any_eq_true, List.any_eq_true]
  constructor
  · rintro ⟨r, hr, hp⟩
    exact ⟨r, (mem_restrict.mp hr).1, hp⟩
  · rintro ⟨r, hr, hp⟩
    exact ⟨r, mem_restrict.mpr ⟨hr, h r hr hp⟩, hp⟩

omit [DecidableEq κ] in
theorem any_restrict_unless (h : ∀ r ∈ t.restrict fun r => !q r, p r ≠ true) :
    (t.restrict q).rows.any p = t.rows.any p :=
  any_restrict fun r hr hp => mem_restrict_or hr fun hf => h r hf hp

end

end Table

end Relational
