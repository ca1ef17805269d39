import Mathlib.Data.Prod.Lex
import Infragraph.Spec.Memory

/-! `Effective` of the in-memory engine for any list of claims: which claims it
returns and in which order, where its value comes from, when it reports a
conflict, and that neither depends on the order of the list. -/

namespace Infragraph.Memory

variable {policy : Policy} {attributeKey : String} {claims claims' : List AttributeClaim}

/-- What claims of an attribute are compared by: authority rank, then time. -/
def Policy.standing (p : Policy) (attributeKey : String) (c : AttributeClaim) : ℕ ×ₗ ℤ :=
  toLex (rank (p.authority c.connectorID attributeKey), c.observedAt)

theorem Policy.less_iff (p : Policy) (attributeKey : String) (a b : AttributeClaim) :
    p.less attributeKey a b ↔ p.standing attributeKey b < p.standing attributeKey a := by
  unfold Policy.less Policy.standing
  rw [Prod.Lex.toLex_lt_toLex]
  simp only
  split_ifs with h
  · have hne := Ne.symm h
    simp [hne]
  · rw [not_not] at h
    simp [h]

instance (p : Policy) (attributeKey : String) : Std.Total fun a b : AttributeClaim => ¬ p.less attributeKey b a :=
  ⟨fun a b => by rw [p.less_iff, p.less_iff, not_lt, not_lt]; exact le_total _ _⟩

instance (p : Policy) (attributeKey : String) : IsTrans AttributeClaim fun a b => ¬ p.less attributeKey b a :=
  ⟨fun a b c hab hbc => by
    rw [p.less_iff, not_lt] at hab hbc ⊢
    exact hbc.trans hab⟩

def relevant (claims : List AttributeClaim) (attributeKey : String) : List AttributeClaim :=
  claims.filter fun c => c.active ∧ c.attributeKey = attributeKey

theorem activeClaims_perm (claims : List AttributeClaim) (attributeKey : String) (policy : Policy) :
    (activeClaims claims attributeKey policy).Perm (relevant claims attributeKey) := List.perm_insertionSort ..

theorem effective_claims : (effective claims attributeKey policy).claims = activeClaims claims attributeKey policy := by
  unfold effective
  split <;> simp [*]

theorem effective_conflict : (effective claims attributeKey policy).conflict = true ↔
    ∃ a ∈ relevant claims attributeKey, ∃ b ∈ relevant claims attributeKey,
      a.value.toGo.marshal ≠ b.value.toGo.marshal := by
  have hconflict : (effective claims attributeKey policy).conflict = true ↔
      1 < (distinct (activeClaims claims attributeKey policy)).length := by
    unfold effective
    split
    · rename_i h
      simp [h, distinct]
    · rename_i c cs h
      simp [h]
  have hmem : ∀ c, c ∈ activeClaims claims attributeKey policy ↔ c ∈ relevant claims attributeKey :=
    fun c => (activeClaims_perm claims attributeKey policy).mem_iff
  rw [hconflict, distinct, ← List.card_toFinset, Finset.one_lt_card]
  simp [hmem]

def Unbeaten (policy : Policy) (attributeKey : String) (claims : List AttributeClaim) (c : AttributeClaim) : Prop :=
  c ∈ claims ∧ ∀ d ∈ claims, ¬ policy.less attributeKey d c

theorem effective_value (claims : List AttributeClaim) (attributeKey : String) (policy : Policy) :
    relevant claims attributeKey = [] ∧ (effective claims attributeKey policy).value = .null ∨
      ∃ c, Unbeaten policy attributeKey (relevant claims attributeKey) c ∧
        (effective claims attributeKey policy).value = c.value := by
  have hperm := activeClaims_perm claims attributeKey policy
  have hsorted : (activeClaims claims attributeKey policy).Pairwise fun a b => ¬ policy.less attributeKey b a :=
    List.pairwise_insertionSort _ _
  unfold effective
  split
  · rename_i h
    rw [h] at hperm
    exact .inl ⟨hperm.nil_eq.symm, rfl⟩
  · rename_i c cs h
    rw [h] at hperm hsorted
    refine .inr ⟨c, ⟨hperm.mem_iff.mp (.head _), ?_⟩, rfl⟩
    intro d hd
    rcases List.mem_cons.mp (hperm.mem_iff.mpr hd) with rfl | hd
    · rw [policy.less_iff]
      exact lt_irrefl _
    · exact (List.pairwise_cons.mp hsorted).1 d hd

theorem relevant_perm (h : claims.Perm claims') : (relevant claims attributeKey).Perm (relevant claims' attributeKey) :=
  h.filter _

theorem effective_value_perm {β : Type} (view : Json → β) (h : claims.Perm claims')
    (htied : ∀ a b, Unbeaten policy attributeKey (relevant claims attributeKey) a →
      Unbeaten policy attributeKey (relevant claims attributeKey) b → view a.value = view b.value) :
    view (effective claims' attributeKey policy).value = view (effective claims attributeKey policy).value := by
  have hmem : ∀ c, c ∈ relevant claims' attributeKey ↔ c ∈ relevant claims attributeKey :=
    fun c => (relevant_perm h).symm.mem_iff
  rcases effective_value claims attributeKey policy with ⟨hnil, hvalue⟩ | ⟨c, hc, hvalue⟩
  · rcases effective_value claims' attributeKey policy with ⟨-, hvalue'⟩ | ⟨c', hc', -⟩
    · rw [hvalue, hvalue']
    · have hc' := (hmem c').mp hc'.1
      rw [hnil] at hc'
      cases hc'
  · rcases effective_value claims' attributeKey policy with ⟨hnil, -⟩ | ⟨c', hc', hvalue'⟩
    · have hc := (hmem c).mpr hc.1
      rw [hnil] at hc
      cases hc
    · rw [hvalue, hvalue']
      exact htied c' c ⟨(hmem c').mp hc'.1, fun d hd => hc'.2 d ((hmem d).mpr hd)⟩ hc

/-- `Effective` returns the active claims of the attribute by rank and then by
time, the value of one that none beats, and a conflict exactly when two of them
marshal differently. In another order of the list the conflict is the same, and
so is the value, in every `view` that the claims tied for best share. -/
theorem effective_selects (claims : List AttributeClaim) (attributeKey : String) (policy : Policy) :
    (effective claims attributeKey policy).claims.Perm
        (claims.filter fun c => c.active ∧ c.attributeKey = attributeKey) ∧
    ((effective claims attributeKey policy).claims.Pairwise fun a b =>
      rank (policy.authority b.connectorID attributeKey) < rank (policy.authority a.connectorID attributeKey) ∨
      rank (policy.authority a.connectorID attributeKey) = rank (policy.authority b.connectorID attributeKey) ∧
        b.observedAt ≤ a.observedAt) ∧
    ((effective claims attributeKey policy).claims = [] ∧ (effective claims attributeKey policy).value = .null ∨
      ∃ c, Unbeaten policy attributeKey (effective claims attributeKey policy).claims c ∧
        (effective claims attributeKey policy).value = c.value) ∧
    ((effective claims attributeKey policy).conflict = true ↔
      ∃ a ∈ (effective claims attributeKey policy).claims, ∃ b ∈ (effective claims attributeKey policy).claims,
        a.value.toGo.marshal ≠ b.value.toGo.marshal) ∧
    ∀ claims', claims.Perm claims' →
      (effective claims' attributeKey policy).conflict = (effective claims attributeKey policy).conflict ∧
      ∀ {β : Type} (view : Json → β),
        (∀ a b, Unbeaten policy attributeKey (effective claims attributeKey policy).claims a →
          Unbeaten policy attributeKey (effective claims attributeKey policy).claims b →
          view a.value = view b.value) →
        view (effective claims' attributeKey policy).value = view (effective claims attributeKey policy).value := by
  have hperm := activeClaims_perm claims attributeKey policy
  have hunbeaten : ∀ c, Unbeaten policy attributeKey (activeClaims claims attributeKey policy) c ↔
      Unbeaten policy attributeKey (relevant claims attributeKey) c := by
    intro c
    simp only [Unbeaten, hperm.mem_iff]
  rw [effective_claims]
  refine ⟨hperm, ?_, ?_, ?_, ?_⟩
  · refine (List.pairwise_insertionSort (fun a b => ¬ policy.less attributeKey b a) _).imp ?_
    intro a b hab
    rw [policy.less_iff, not_lt, Policy.standing, Policy.standing, Prod.Lex.toLex_le_toLex] at hab
    exact hab.imp_right fun h => ⟨h.1.symm, h.2⟩
  · rcases effective_value claims attributeKey policy with ⟨hnil, hvalue⟩ | ⟨c, hc, hvalue⟩
    · rw [hnil] at hperm
      exact .inl ⟨hperm.eq_nil, hvalue⟩
    · exact .inr ⟨c, (hunbeaten c).mpr hc, hvalue⟩
  · rw [effective_conflict]
    simp only [hperm.mem_iff]
  · intro claims' h
    refine ⟨?_, ?_⟩
    · rw [Bool.eq_iff_iff, effective_conflict, effective_conflict]
      simp only [(relevant_perm h).mem_iff]
    · intro β view htied
      exact effective_value_perm view h fun a b ha hb => htied a b ((hunbeaten a).mpr ha) ((hunbeaten b).mpr hb)

end Infragraph.Memory
