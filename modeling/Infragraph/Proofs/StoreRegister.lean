import Infragraph.Spec.Engines
import Infragraph.Proofs.Frame
import Infragraph.Proofs.Presence
import Infragraph.Proofs.Stamps

/-! `ApplyPostgres` keeps a register of the external IDs of one connector, as long as
its observations carry no strong identities: each external ID has an asset of its
own, MISSING once it has been absent for the threshold. With the claims of one
connector only, none of them conflicts. -/

namespace Infragraph

open Relational ReadCommitted Prog

def SnapshotEnvelope.Weak (s : SnapshotEnvelope) : Prop := ∀ o ∈ s.assets, strongIdentities o = []

instance (s : SnapshotEnvelope) : Decidable s.Weak :=
  inferInstanceAs (Decidable (∀ o ∈ s.assets, strongIdentities o = []))

theorem mem_observedIDs {s : SnapshotEnvelope} {e : String} :
    e ∈ s.observedIDs ↔ e ∈ s.assets.map fun o => o.externalID := List.mem_toFinset

theorem contains_iff {c : ApplyCall} {e : String} : c.contains e = true ↔ e ∈ c.snapshot.observedIDs := by
  rw [mem_observedIDs]
  simp [ApplyCall.contains]

theorem effectiveThreshold_natCast {n : ℕ} (hn : 1 ≤ n) : effectiveThreshold (n : ℤ) = n := by
  unfold effectiveThreshold
  split_ifs with h
  · omega
  · simp

theorem Framed.own_claims {org connector : String} {d d' : Db} (h : Framed org connector d d')
    (hd : ∀ q ∈ d.claims, q.connectorID = connector) : ∀ q ∈ d'.claims, q.connectorID = connector := by
  intro q hq
  rcases h.claims q.id with he | ⟨q', hq', hok⟩
  · rw [Table.mem_iff_get, he] at hq
    exact hd q (Table.mem_of_get hq)
  · rw [Table.mem_iff_get, hq'] at hq
    cases hq
    exact hok.1.2

section

variable [Hashes]

/-- The identities of the database are those of the register, all of one connector. -/
structure Mirrors (org connector : String) (n : ℕ) (r : Register String) (db : Db) : Prop where
  owned : ∀ i ∈ db.sourceIdentities, i.organizationID = org ∧ i.connectorID = connector
  known : ∀ e, (∃ i, db.sourceIdentities.get (org, connector, e) = some i) ↔ e ∈ r.known
  asset : ∀ e i, db.sourceIdentities.get (org, connector, e) = some i →
    i.assetID = stableID "asset" [org, connector, e]
  absences : ∀ e i, db.sourceIdentities.get (org, connector, e) = some i →
    i.consecutiveAbsences = r.absences e ∧ (i.status = .active ↔ r.absences e < n)
  claims : ∀ q ∈ db.claims, q.connectorID = connector

variable {db db' : Db} {c : ApplyCall} {sum : Summary} {n : ℕ} {r : Register String} {org connector : String}

theorem after_identity_weak {s : SnapshotEnvelope} (b : Bindings) {l : List Observation}
    (hweak : ∀ o ∈ l, strongIdentities o = []) (e : String) : (b.after s l).identity e =
      if e ∈ l.map (fun o => o.externalID) then
        some ((b.identity e).getD (stableID "asset" [s.organizationID, s.connectorID, e]))
      else b.identity e := by
  induction l using List.reverseRecOn with
  | nil => rfl
  | append_singleton l o ih =>
    have hih := ih fun x hx => hweak x (List.mem_append_left _ hx)
    have hnone : (b.after s l).strongAsset o = none := by
      unfold Bindings.strongAsset
      rw [hweak o (by simp)]
      rfl
    rw [Bindings.after_snoc]
    unfold Bindings.observe
    simp only [List.map_append, List.map_singleton, List.mem_append, List.mem_singleton]
    by_cases heq : e = o.externalID
    · subst heq
      unfold Bindings.resolve
      rw [if_pos rfl, if_pos (.inr rfl), hnone, Option.or_none, hih]
      split_ifs <;> rfl
    · rw [if_neg heq, hih]
      simp only [heq, or_false]

theorem leads_weak (hweak : c.snapshot.Weak) (e : String) : c.leads db e =
    if e ∈ c.snapshot.observedIDs then
      some ((db.assetOf c.snapshot.organizationID c.snapshot.connectorID e).getD
        (stableID "asset" [c.snapshot.organizationID, c.snapshot.connectorID, e]))
    else db.assetOf c.snapshot.organizationID c.snapshot.connectorID e := by
  simp only [mem_observedIDs]
  exact after_identity_weak _ hweak e

section

variable {t : Trace}

theorem Traced.assetOf_after (h : Traced c db t sum db')
    (e : String) : db'.assetOf c.snapshot.organizationID c.snapshot.connectorID e = c.leads db e := by
  rw [h.leads]
  unfold Db.assetOf Db.bindings Db.assetOf
  rw [h.sources_unchanged.2, h.identities.get, h.sources_unchanged.1, Option.map_map]
  exact congrArg (fun f => Option.map f _) (funext fun _ => SourceIdentityRow.swept_assetID)

end

theorem Mirrors.get (h : Mirrors org connector n r db) {i : SourceIdentityRow} (hi : i ∈ db.sourceIdentities) :
    db.sourceIdentities.get (org, connector, i.externalID) = some i := by
  obtain ⟨horg, hconnector⟩ := h.owned i hi
  rw [← horg, ← hconnector]
  exact Table.mem_iff_get.mp hi

theorem Mirrors.assetOf (h : Mirrors org connector n r db) (e : String) : db.assetOf org connector e =
    if e ∈ r.known then some (stableID "asset" [org, connector, e]) else none := by
  unfold Db.assetOf
  split_ifs with he
  · obtain ⟨i, hi⟩ := (h.known e).mpr he
    rw [hi, Option.map_some, h.asset e i hi]
  · cases hi : db.sourceIdentities.get (org, connector, e) with
    | none => rfl
    | some i => exact absurd ((h.known e).mp ⟨i, hi⟩) he

theorem Mirrors.leads_seen (h : Mirrors c.snapshot.organizationID c.snapshot.connectorID n r db)
    (hweak : c.snapshot.Weak) {e : String} (he : e ∈ c.snapshot.observedIDs) :
    c.leads db e = some (stableID "asset" [c.snapshot.organizationID, c.snapshot.connectorID, e]) := by
  rw [leads_weak hweak, h.assetOf]
  split_ifs <;> rfl

theorem Mirrors.step (h : Mirrors c.snapshot.organizationID c.snapshot.connectorID n r db) (hn : 1 ≤ n)
    (hthreshold : c.missingThreshold = n) (hweak : c.snapshot.Weak) (hrec : db.Recorded)
    (hc : c.run db = .ok (sum, db')) :
    Mirrors c.snapshot.organizationID c.snapshot.connectorID n (r.tick c.snapshot.observedIDs) db' := by
  obtain ⟨hcounted, -⟩ := ApplyCall.counted hc hrec
  obtain ⟨t, htrace⟩ := ApplyCall.traced hc
  have heffective : effectiveThreshold c.missingThreshold = n := by rw [hthreshold, effectiveThreshold_natCast hn]
  refine ⟨fun i hi => ?_, fun e => ?_, fun e i hi => ?_, fun e i hi => ?_, ?_⟩
  · by_contra hother
    have hsame := hcounted.others i.key fun hmine => hother ⟨hmine.1.symm, hmine.2.symm⟩
    rw [Table.mem_iff_get, hsame] at hi
    exact hother (h.owned i (Table.mem_of_get hi))
  · constructor
    · intro hi
      obtain ⟨i, hi⟩ := hi
      cases hin : c.contains e with
      | true => exact Finset.mem_union_right _ (contains_iff.mp hin)
      | false =>
        obtain ⟨i₀, hi₀, -⟩ := hcounted.unseen e i hin hi
        exact Finset.mem_union_left _ ((h.known e).mp ⟨i₀, hi₀⟩)
    · intro he
      rcases Finset.mem_union.mp he with he | he
      · obtain ⟨i, hi⟩ := (h.known e).mpr he
        obtain ⟨i', hi', -⟩ := hcounted.kept.identity _ i hi
        exact ⟨i', hi'⟩
      · obtain ⟨i, hi, -⟩ := hcounted.seen e (contains_iff.mpr he)
        exact ⟨i, hi⟩
  · have hleads := htrace.assetOf_after e
    rw [leads_weak hweak, h.assetOf] at hleads
    unfold Db.assetOf at hleads
    rw [hi, Option.map_some] at hleads
    split_ifs at hleads with hseen hknown hknown
    · exact Option.some.inj hleads
    · exact Option.some.inj hleads
    · exact Option.some.inj hleads
  · cases hin : c.contains e with
    | true =>
      have hseen := contains_iff.mp hin
      obtain ⟨i', hi', habsences, hactive⟩ := hcounted.seen e hin
      rw [hi] at hi'
      cases hi'
      rw [heffective] at hactive
      simp only [Register.tick, hseen, if_true]
      exact ⟨habsences, hactive⟩
    | false =>
      have hseen : e ∉ c.snapshot.observedIDs := fun hmem => by simp [contains_iff.mpr hmem] at hin
      obtain ⟨i₀, hi₀, habsences, hactive⟩ := hcounted.unseen e i hin hi
      obtain ⟨hold, hactive₀⟩ := h.absences e i₀ hi₀
      rw [hactive₀, hold] at hactive
      simp only [Register.tick, hseen, if_false]
      refine ⟨by rw [habsences, hold], hactive.trans ?_⟩
      omega
  · exact (ApplyCall.framed hc).own_claims h.claims

def AssetsApart (org connector : String) (known : Finset String) : Prop :=
  ∀ e ∈ known, ∀ e' ∈ known, stableID "asset" [org, connector, e] = stableID "asset" [org, connector, e'] → e = e'

section

variable (h : Mirrors org connector n r db)
include h

theorem Mirrors.anyActive (hapart : AssetsApart org connector r.known) {e : String}
    (he : e ∈ r.known) : db.anyActive (stableID "asset" [org, connector, e]) = true ↔ r.absences e < n := by
  rw [anyActive_iff]
  constructor
  · intro hactive
    obtain ⟨i, hi, hid, hstatus⟩ := hactive
    have hget := h.get hi
    have heq := hapart _ ((h.known _).mp ⟨i, hget⟩) e he ((h.asset _ i hget).symm.trans hid)
    exact ((h.absences e i (heq ▸ hget)).2).mp hstatus
  · intro hbelow
    obtain ⟨i, hi⟩ := (h.known e).mpr he
    exact ⟨i, Table.mem_of_get hi, h.asset e i hi, (h.absences e i hi).2.mpr hbelow⟩

theorem Mirrors.no_conflict (hsingle : db.SingleClaims) (a : String) : db.conflict org a = false := by
  rw [Bool.eq_false_iff]
  intro hconflict
  obtain ⟨q, hq, q', hq', hon, hon', hkey, hne⟩ := conflict_iff.mp hconflict
  refine hne (congrArg (·.value.text) (hsingle q hq q' hq' hon.2.2 hon'.2.2 (hon.2.1.trans hon'.2.1.symm) ?_ hkey))
  exact (h.claims q hq).trans (h.claims q' hq').symm

theorem Mirrors.asset_row (hwf : Wf db) {e : String} (he : e ∈ r.known) :
    ∃ row, db.assets.get (stableID "asset" [org, connector, e]) = some row ∧ row.organizationID = org := by
  obtain ⟨i, hi⟩ := (h.known e).mpr he
  obtain ⟨row, hrow, horg⟩ := hwf.identity i (Table.mem_of_get hi)
  rw [h.asset e i hi] at hrow
  exact ⟨row, hrow, horg.trans (h.owned i (Table.mem_of_get hi)).1⟩

theorem Mirrors.assetStatus (hinv : Inventory db) (hapart : AssetsApart org connector r.known) (e : String) :
    db.assetStatus org connector e = r.state n .active .missing e := by
  unfold Db.assetStatus Register.state
  rw [h.assetOf]
  by_cases he : e ∈ r.known
  · obtain ⟨row, hrow, horg⟩ := h.asset_row hinv.toWf he
    have hid : row.id = stableID "asset" [org, connector, e] := Table.key_of_get hrow
    have hsettled := hinv.settled row (Table.mem_of_get hrow)
    have hactive := h.anyActive hapart he
    rw [if_pos he, if_pos he, Option.bind_some, hrow, Option.map_some]
    congr 1
    split_ifs with hn
    · refine hsettled.missing.mpr ?_
      rw [hid, Bool.eq_false_iff]
      exact fun ha => absurd (hactive.mp ha) (not_lt.mpr hn)
    · have hpresent : row.status ≠ .missing := by
        rw [ne_eq, hsettled.missing, hid, hactive.mpr (not_le.mp hn)]
        exact Bool.true_eq_false.mp
      rw [hsettled.present hpresent, horg, h.no_conflict hinv.single]
      rfl
  · rw [if_neg he, if_neg he]
    rfl

theorem Mirrors.isMissing_iff (hinv : Inventory db) (hrooted : Rooted db) (hapart : AssetsApart org connector r.known)
    {a : String} : db.isMissing a = true ↔
      ∃ e ∈ r.known, n ≤ r.absences e ∧ stableID "asset" [org, connector, e] = a := by
  rw [hinv.isMissing_iff]
  constructor
  · intro hmissing
    obtain ⟨hrow, hnone⟩ := hmissing
    obtain ⟨i, hi, rfl⟩ := hrooted.asset a hrow
    obtain ⟨hiorg, hiconnector⟩ := h.owned i hi
    rw [hiorg, hiconnector] at hnone ⊢
    have he : i.externalID ∈ r.known := (h.known _).mp ⟨i, h.get hi⟩
    refine ⟨i.externalID, he, ?_, rfl⟩
    by_contra hbelow
    rw [(h.anyActive hapart he).mpr (not_le.mp hbelow)] at hnone
    cases hnone
  · intro hlost
    obtain ⟨e, he, hn, rfl⟩ := hlost
    obtain ⟨row, hrow, -⟩ := h.asset_row hinv.toWf he
    refine ⟨by rw [hrow]; rfl, ?_⟩
    rw [Bool.eq_false_iff, ne_eq, h.anyActive hapart he]
    exact not_lt.mpr hn

end

/-- A new external ID leads to a new asset, which is not MISSING. -/
theorem Mirrors.returnsKnown (h : Mirrors c.snapshot.organizationID c.snapshot.connectorID n r db)
    (hweak : c.snapshot.Weak) (hapart : AssetsApart c.snapshot.organizationID c.snapshot.connectorID
      (r.known ∪ c.snapshot.observedIDs)) (hinv : Inventory db) (hrooted : Rooted db) : c.ReturnsKnown db := by
  intro pre o post a hassets hnone hlead hmissing
  have ho : o.externalID ∈ c.snapshot.observedIDs := mem_observedIDs.mpr (List.mem_map_of_mem (by simp [hassets]))
  obtain ⟨e, he, -, heq⟩ := (h.isMissing_iff hinv hrooted fun e he e' he' =>
    hapart e (Finset.mem_union_left _ he) e' (Finset.mem_union_left _ he')).mp hmissing
  have hasset := Option.some.inj (hlead.symm.trans (h.leads_seen hweak ho))
  have hknown := hapart e (Finset.mem_union_left _ he) _ (Finset.mem_union_right _ ho) (heq.trans hasset)
  rw [h.assetOf, if_pos (hknown ▸ he)] at hnone
  cases hnone

theorem countSights_kinds {s : SnapshotEnvelope} (sights : List Sight) :
    (countSights s {} sights).updated = (sights.filter fun x => x.kind.isReturned).length ∧
      (countSights s {} sights).conflicting = (sights.filter Sight.conflict).length := by
  induction sights using List.reverseRecOn with
  | nil => exact ⟨rfl, rfl⟩
  | append_singleton l x ih =>
    rw [countSights_snoc, List.filter_append, List.filter_append, List.length_append, List.length_append, ← ih.1, ← ih.2]
    unfold Sight.count
    refine ⟨?_, ?_⟩
    · cases hk : x.kind <;> simp [hk, Sighting.count, Sighting.isReturned]
    · cases hx : x.conflict <;> simp [hx]

section

variable {t : Trace}

theorem Traced.kinds (h : Traced c db t sum db') :
    sum.updated = (t.sights.filter fun x => x.kind.isReturned).length ∧
      sum.conflicting = (t.sights.filter Sight.conflict).length := by
  obtain ⟨ids, -, -, hsum⟩ := run_removed_count h.removals
  rw [countLosses, countLinks] at hsum
  rw [hsum]
  exact countSights_kinds t.sights

variable (h : Mirrors c.snapshot.organizationID c.snapshot.connectorID n r db)
  (htrace : Traced c db t sum db')

include h htrace

/-- One connector alone is in no dispute. -/
theorem Mirrors.conflicting (hsingle : db.SingleClaims) : sum.conflicting = 0 := by
  rw [htrace.kinds.2, List.length_eq_zero_iff, List.filter_eq_nil_iff]
  intro x hx hconflict
  obtain ⟨pre, post, hsplit⟩ := List.append_of_mem hx
  obtain ⟨key, value, value', hclaim, hclaim', hne⟩ := (htrace.conflict_iff pre post hsplit).mp hconflict
  refine hne (congrArg Json.text ?_)
  rcases hclaim with hv | ⟨q, hq, hon, hkey, rfl, hold⟩
  · rcases hclaim' with hv' | ⟨q', hq', -, -, -, hold'⟩
    · exact Option.some.inj (hv.symm.trans hv')
    · rw [hold' (h.claims q' hq')] at hv
      cases hv
  · rcases hclaim' with hv' | ⟨q', hq', hon', hkey', rfl, -⟩
    · rw [hold (h.claims q hq)] at hv'
      cases hv'
    · exact congrArg ClaimRow.value (hsingle q hq q' hq' hon.2.2 hon'.2.2 (hon.2.1.trans hon'.2.1.symm)
        ((h.claims q hq).trans (h.claims q' hq').symm) (hkey.trans hkey'.symm))

variable (hapart : AssetsApart c.snapshot.organizationID c.snapshot.connectorID (r.known ∪ c.snapshot.observedIDs))

include hapart

theorem Mirrors.created (hweak : c.snapshot.Weak) (hwf : Wf db) (hrooted : Rooted db) :
    sum.created = (r.discovered c.snapshot.observedIDs).card := by
  obtain ⟨hnodup, hfresh, hkeys⟩ := turns_created htrace.observe hwf
  rw [htrace.counters.2.1]
  refine Register.card_of_list hnodup (fun a => ?_) fun e he e' he' => hapart e
    (Finset.mem_union_right _ (Finset.mem_sdiff.mp he).1) e' (Finset.mem_union_right _ (Finset.mem_sdiff.mp he').1)
  constructor
  · intro ha
    obtain ⟨x, hx, rfl⟩ := List.mem_map.mp ha
    obtain ⟨hmem, hkind⟩ := List.mem_filter.mp hx
    have he : x.observation.externalID ∈ c.snapshot.observedIDs := by
      rw [mem_observedIDs, ← htrace.assets, List.map_map]
      exact List.mem_map_of_mem (f := (fun o : Observation => o.externalID) ∘ Sight.observation) hmem
    have hasset := Option.some.inj ((htrace.sight_leads hmem).symm.trans (h.leads_seen hweak he))
    refine ⟨x.observation.externalID, Finset.mem_sdiff.mpr ⟨he, fun hknown => ?_⟩, hasset.symm⟩
    obtain ⟨row, hrow, -⟩ := h.asset_row hwf hknown
    have hnone := hfresh _ ha
    rw [hasset, hrow] at hnone
    cases hnone
  · intro ha
    obtain ⟨e, he, rfl⟩ := ha
    obtain ⟨hseen, hnew⟩ := Finset.mem_sdiff.mp he
    obtain ⟨o, ho, rfl⟩ := List.mem_map.mp (mem_observedIDs.mp hseen)
    rw [← htrace.assets] at ho
    obtain ⟨x, hx, rfl⟩ := List.mem_map.mp ho
    have hasset := Option.some.inj ((htrace.sight_leads hx).symm.trans (h.leads_seen hweak hseen))
    refine ((hkeys _).mp (hasset ▸ turns_assets htrace.observe hwf hx)).resolve_left fun hold => ?_
    obtain ⟨i, hi, heq⟩ := hrooted.asset _ hold
    obtain ⟨hiorg, hiconnector⟩ := h.owned i hi
    rw [hiorg, hiconnector] at heq
    have hknown : i.externalID ∈ r.known := (h.known _).mp ⟨i, h.get hi⟩
    exact hnew (hapart _ (Finset.mem_union_right _ hseen) _ (Finset.mem_union_left _ hknown) heq ▸ hknown)

section

variable (h' : Mirrors c.snapshot.organizationID c.snapshot.connectorID n (r.tick c.snapshot.observedIDs) db')
  (hn : 1 ≤ n) (hrec : db.Recorded) (hinv : Inventory db) (hinv' : Inventory db') (hrooted : Rooted db)
  (hrooted' : Rooted db')

include h' hn hrec hinv hinv' hrooted hrooted'

theorem Mirrors.updated (hweak : c.snapshot.Weak) : sum.updated = (r.returned n c.snapshot.observedIDs).card := by
  have hbefore := fun a => h.isMissing_iff (a := a) hinv hrooted fun e he e' he' =>
    hapart e (Finset.mem_union_left _ he) e' (Finset.mem_union_left _ he')
  have hafter := fun a => h'.isMissing_iff (a := a) hinv' hrooted' hapart
  rw [htrace.kinds.1, ← List.length_map (f := Sight.asset)]
  refine Register.card_of_list (turns_returned_nodup htrace.observe hinv.toWf) (fun a => ?_)
    fun e he e' he' => hapart e (Finset.mem_union_right _ (Finset.mem_filter.mp he).1) e'
      (Finset.mem_union_right _ (Finset.mem_filter.mp he').1)
  rw [htrace.returned_iff (h.returnsKnown hweak hapart hinv hrooted) hrec hinv hinv', hbefore, Bool.eq_false_iff,
    ne_eq, hafter]
  constructor
  · intro hmissing
    obtain ⟨⟨e, he, hlost, rfl⟩, hback⟩ := hmissing
    refine ⟨e, Finset.mem_filter.mpr ⟨?_, he, hlost⟩, rfl⟩
    by_contra hseen
    refine hback ⟨e, Finset.mem_union_left _ he, ?_, rfl⟩
    simp only [Register.tick, hseen, if_false]
    omega
  · intro hreturned
    obtain ⟨e, he, rfl⟩ := hreturned
    obtain ⟨hseen, hknown, hlost⟩ := Finset.mem_filter.mp he
    refine ⟨⟨e, hknown, hlost, rfl⟩, fun hmissing => ?_⟩
    obtain ⟨e', he', hlost', heq⟩ := hmissing
    rw [hapart e' he' e (Finset.mem_union_right _ hseen) heq] at hlost'
    simp only [Register.tick, hseen, if_true] at hlost'
    omega

theorem Mirrors.missing_count : sum.missing = (r.lost n c.snapshot.observedIDs).card := by
  have hknown : AssetsApart c.snapshot.organizationID c.snapshot.connectorID r.known := fun e he e' he' =>
    hapart e (Finset.mem_union_left _ he) e' (Finset.mem_union_left _ he')
  have hbefore := fun a => h.isMissing_iff (a := a) hinv hrooted hknown
  have hafter := fun a => h'.isMissing_iff (a := a) hinv' hrooted' hapart
  have hnodup : ((t.losses.filter Loss.marked).map Loss.asset).Nodup := by
    -- an asset has one identity
    refine (htrace.losses_apart hrec hinv.toWf).mpr fun i hi j hj _ _ heq _ => ?_
    have hgeti := h.get hi
    have hgetj := h.get hj
    rw [h.asset _ i hgeti, h.asset _ j hgetj] at heq
    rw [hknown _ ((h.known _).mp ⟨i, hgeti⟩) _ ((h.known _).mp ⟨j, hgetj⟩) heq, hgetj] at hgeti
    exact (Option.some.inj hgeti).symm
  rw [htrace.counters.2.2.2, ← List.length_map (f := Loss.asset)]
  refine Register.card_of_list hnodup (fun a => ?_) fun e he e' he' => hknown e (Finset.mem_filter.mp he).1 e'
    (Finset.mem_filter.mp he').1
  rw [← htrace.turns_missing hrec hinv hinv', hafter, Bool.eq_false_iff, ne_eq, hbefore]
  constructor
  · intro hmissing
    obtain ⟨hpresent, e, he, hlost, rfl⟩ := hmissing
    have hseen : e ∉ c.snapshot.observedIDs := by
      intro hseen
      simp only [Register.tick, hseen, if_true] at hlost
      omega
    have hold : e ∈ r.known := (Finset.mem_union.mp he).resolve_right hseen
    simp only [Register.tick, hseen, if_false] at hlost
    refine ⟨e, Finset.mem_filter.mpr ⟨hold, hseen, ?_, hlost⟩, rfl⟩
    by_contra hbelow
    exact hpresent ⟨e, hold, not_lt.mp hbelow, rfl⟩
  · intro hlost
    obtain ⟨e, he, rfl⟩ := hlost
    obtain ⟨hold, hseen, hbelow, hlost⟩ := Finset.mem_filter.mp he
    refine ⟨fun hmissing => ?_, e, Finset.mem_union_left _ hold, ?_, rfl⟩
    · obtain ⟨e', he', hlost', heq⟩ := hmissing
      rw [hknown e' he' e hold heq] at hlost'
      omega
    · simp only [Register.tick, hseen, if_false]
      exact hlost

theorem Mirrors.roundSummary (hweak : c.snapshot.Weak)
    (hnodup : (c.snapshot.assets.map fun o => o.externalID).Nodup) : RoundSummary r n c.snapshot.observedIDs sum := by
  have hcreated := h.created htrace hapart hweak hinv.toWf hrooted
  have hupdated := h.updated htrace hapart h' hn hrec hinv hinv' hrooted hrooted' hweak
  refine ⟨hcreated, hupdated, ?_, h.missing_count htrace hapart h' hn hrec hinv hinv' hrooted hrooted',
    h.conflicting htrace hinv.single⟩
  have htotal := htrace.counters.1
  have hlength : t.sights.length = c.snapshot.observedIDs.card := by
    unfold SnapshotEnvelope.observedIDs
    rw [List.toFinset_card_of_nodup hnodup, List.length_map, ← htrace.assets, List.length_map]
  have hparts := Register.card_seen r n c.snapshot.observedIDs
  omega

end

end

end

end Infragraph
