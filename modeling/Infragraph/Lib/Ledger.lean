import Infragraph.Lib.Table
import Infragraph.Lib.Trace

/-! A table written by `INSERT ... ON CONFLICT (slot) DO NOTHING`: a row whose
slot is taken is dropped, so the rows written are some of the rows attempted.
They are all of them exactly when no two share a slot and none is taken. -/

namespace Relational

variable {ρ κ σ : Type} {key : ρ → κ} [DecidableEq κ]

namespace Table

variable {t t' : Table key}

def newRows (t t' : Table key) : List ρ := t'.rows.filter fun r => (t.get (key r)).isNone

theorem mem_newRows {r : ρ} : r ∈ t.newRows t' ↔ r ∈ t' ∧ t.get (key r) = none := by
  simp [newRows, mem_rows]

theorem nodup_newRows : ((t.newRows t').map key).Nodup :=
  t'.nodup.sublist (List.filter_sublist.map key)

/-- The new rows are as many as any list of the new keys without repetition. -/
theorem length_newRows {keys : List κ} (hnodup : keys.Nodup)
    (hmem : ∀ k, k ∈ keys ↔ t.get k = none ∧ (t'.get k).isSome) : (t.newRows t').length = keys.length := by
  have hperm : ((t.newRows t').map key).Perm keys := by
    rw [List.perm_ext_iff_of_nodup nodup_newRows hnodup]
    intro k
    rw [hmem, List.mem_map]
    constructor
    · intro h
      obtain ⟨r, hr, hk⟩ := h
      rw [mem_newRows, hk, mem_iff_get, hk] at hr
      exact ⟨hr.2, by rw [hr.1]; rfl⟩
    · intro h
      obtain ⟨r, hr⟩ := Option.isSome_iff_exists.mp h.2
      have hk := key_of_get hr
      exact ⟨r, mem_newRows.mpr ⟨mem_of_get hr, by rw [hk]; exact h.1⟩, hk⟩
  rw [← hperm.length_eq, List.length_map]

theorem newRows_append {added : List ρ} (h : t'.rows = t.rows ++ added) : t.newRows t' = added := by
  have hnodup := t'.nodup
  rw [h, List.map_append, List.nodup_append] at hnodup
  unfold newRows
  rw [h, List.filter_append, List.filter_eq_nil_iff.mpr, List.nil_append, List.filter_eq_self]
  · intro r hr
    rw [Option.isNone_iff_eq_none, get_eq_none]
    exact fun x hx => hnodup.2.2 (key x) (List.mem_map_of_mem hx) (key r) (List.mem_map_of_mem hr)
  · intro r hr
    rw [mem_iff_get.mp (mem_rows.mp hr)]
    simp

end Table

/-- The rows of the list were attempted on `t`, one after the other. -/
inductive Logged (slot : ρ → σ) (t : Table key) : List ρ → Table key → Prop
  | nil : Logged slot t [] t
  | taken {l t' r} : Logged slot t l t' → (∃ x ∈ t', slot x = slot r) → Logged slot t (l ++ [r]) t'
  | added {l t' r} : Logged slot t l t' → (∀ x ∈ t', slot x ≠ slot r) → t'.get (key r) = none →
      Logged slot t (l ++ [r]) (t'.put r)

namespace Logged

variable {slot : ρ → σ} {t t' t₂ : Table key} {l l' : List ρ}

theorem append (h : Logged slot t l t') (h' : Logged slot t' l' t₂) : Logged slot t (l ++ l') t₂ := by
  induction h' with
  | nil => rwa [List.append_nil]
  | taken _ htaken ih =>
    rw [← List.append_assoc]
    exact ih.taken htaken
  | added _ hfree hkey ih =>
    rw [← List.append_assoc]
    exact ih.added hfree hkey

section

variable (h : Logged slot t l t')
include h

/-- What was written: some of the attempts, each the first in its slot. -/
theorem rows : ∃ added, t'.rows = t.rows ++ added ∧ added.Sublist l ∧
    (added.map slot).Nodup ∧ ∀ r ∈ added, ∀ x ∈ t, slot x ≠ slot r := by
  induction h with
  | nil => exact ⟨[], by simp⟩
  | taken _ _ ih =>
    obtain ⟨added, hrows, hsub, hnodup, hfree⟩ := ih
    exact ⟨added, hrows, hsub.trans (List.sublist_append_left _ _), hnodup, hfree⟩
  | @added l t' r _ hfresh hkey ih =>
    obtain ⟨added, hrows, hsub, hnodup, hfree⟩ := ih
    have hmem : ∀ x, x ∈ t' ↔ x ∈ t.rows ∨ x ∈ added := fun x => by
      rw [← Table.mem_rows, hrows, List.mem_append]
    refine ⟨added ++ [r], ?_, hsub.append (List.Sublist.refl [r]), ?_, fun y hy x hx => ?_⟩
    · rw [Table.rows_put_fresh hkey, hrows, List.append_assoc]
    · rw [List.map_append, List.map_singleton, ← List.concat_eq_append, List.nodup_concat]
      refine ⟨fun hv => ?_, hnodup⟩
      obtain ⟨x, hx, hkey⟩ := List.mem_map.mp hv
      exact hfresh x ((hmem x).mpr (.inr hx)) hkey
    · rcases List.mem_append.mp hy with hy | hy
      · exact hfree y hy x hx
      · rw [List.mem_singleton.mp hy]
        exact hfresh x ((hmem x).mpr (.inl hx))

theorem newRows_sublist : (t.newRows t').Sublist l := by
  obtain ⟨added, hrows, hsub, -⟩ := h.rows
  rwa [Table.newRows_append hrows]

theorem mem_or {r : ρ} (hr : r ∈ t') : r ∈ t ∨ r ∈ l := by
  obtain ⟨added, hrows, hsub, -⟩ := h.rows
  rw [← Table.mem_rows, hrows, List.mem_append] at hr
  exact hr.imp_right fun hr => hsub.subset hr

theorem kept {r : ρ} (hr : r ∈ t) : r ∈ t' := by
  obtain ⟨added, hrows, -⟩ := h.rows
  rw [← Table.mem_rows, hrows]
  exact List.mem_append_left _ hr

theorem slot_taken {r : ρ} (hr : r ∈ l) : ∃ x ∈ t', slot x = slot r := by
  induction h with
  | nil => simp at hr
  | taken _ htaken ih =>
    rcases List.mem_append.mp hr with hr | hr
    · exact ih hr
    · rwa [List.mem_singleton.mp hr]
  | added _ _ hkey ih =>
    rcases List.mem_append.mp hr with hr | hr
    · obtain ⟨x, hx, hs⟩ := ih hr
      exact ⟨x, (Table.mem_put_fresh hkey).mpr (.inr hx), hs⟩
    · exact ⟨_, (Table.mem_put_fresh hkey).mpr (.inl rfl), by rw [List.mem_singleton.mp hr]⟩

/-- The first attempt in a free slot is written. -/
theorem mem_of_first {pre post : List ρ} {r : ρ} (hl : l = pre ++ r :: post) (hpre : ∀ x ∈ pre, slot x ≠ slot r)
    (hfree : ∀ x ∈ t, slot x ≠ slot r) : r ∈ t' := by
  induction h generalizing post with
  | nil => simp at hl
  | taken hlog htaken ih =>
    rcases ReadCommitted.split_concat hl with ⟨rfl, rfl, -⟩ | ⟨post, -, hl⟩
    · obtain ⟨x, hx, hs⟩ := htaken
      rcases hlog.mem_or hx with hx | hx
      · exact absurd hs (hfree x hx)
      · exact absurd hs (hpre x hx)
    · exact ih hl
  | added hlog hfresh hkey ih =>
    rw [Table.mem_put_fresh hkey]
    rcases ReadCommitted.split_concat hl with ⟨-, rfl, -⟩ | ⟨post, -, hl⟩
    · exact .inl rfl
    · exact .inr (ih hl)

/-- The attempts of a kind that the slot determines are all written exactly when
no two of them share a slot and none is taken. -/
theorem newRows_filter_eq_iff {p : ρ → Bool} (hp : ∀ r ∈ l, ∀ r' ∈ l, slot r = slot r' → p r = true → p r' = true) :
    ((t.newRows t').filter p).length = (l.filter p).length ↔
      ((l.filter p).map slot).Nodup ∧ ∀ r ∈ l.filter p, ∀ x ∈ t, slot x ≠ slot r := by
  obtain ⟨added, hrows, hsub, hnodup, hfree⟩ := h.rows
  rw [Table.newRows_append hrows]
  constructor
  · intro hlen
    have heq := (hsub.filter p).eq_of_length hlen
    rw [← heq]
    exact ⟨hnodup.sublist (List.filter_sublist.map slot), fun r hr => hfree r (List.mem_filter.mp hr).1⟩
  · intro hparts
    obtain ⟨hl, hnone⟩ := hparts
    refine le_antisymm (hsub.filter p).length_le ?_
    -- every attempt of the kind is the first in its slot, so it was written
    have hall : ∀ r ∈ l.filter p, r ∈ added.filter p := by
      intro r hr
      obtain ⟨hrl, hpr⟩ := List.mem_filter.mp hr
      obtain ⟨pre, post, rfl⟩ := List.append_of_mem hrl
      have hpre : ∀ x ∈ pre, slot x ≠ slot r := by
        intro x hx hs
        have hpx := hp r (by simp) x (by simp [hx]) hs.symm hpr
        rw [List.filter_append, List.filter_cons_of_pos hpr, List.map_append, List.nodup_append] at hl
        exact hl.2.2 _ (List.mem_map_of_mem (List.mem_filter.mpr ⟨hx, hpx⟩)) _ (by simp) hs
      have hmem := h.mem_of_first rfl hpre (hnone r hr)
      rw [← Table.mem_rows, hrows, List.mem_append] at hmem
      exact List.mem_filter.mpr ⟨hmem.resolve_left fun ht => hnone r hr r ht rfl, hpr⟩
    exact (List.subperm_of_subset (List.Nodup.of_map slot hl) hall).length_le

end

end Logged

end Relational
