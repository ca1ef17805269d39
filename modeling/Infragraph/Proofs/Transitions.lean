import Infragraph.Proofs.Journal

/-! Assets that a call turns into MISSING. An asset that an observation leads to
keeps an ACTIVE identity; one that none leads to has the identities it had, and
goes MISSING when the last ACTIVE one expires. -/

namespace Infragraph

open Relational ReadCommitted Prog

/-- An ACTIVE identity of the connector that reaches the threshold by being absent
from the snapshot. -/
structure ApplyCall.Expiring (c : ApplyCall) (i : SourceIdentityRow) : Prop where
  organizationID : i.organizationID = c.snapshot.organizationID
  connectorID : i.connectorID = c.snapshot.connectorID
  active : i.status = .active
  absent : c.contains i.externalID = false
  expired : effectiveThreshold c.missingThreshold ≤ i.consecutiveAbsences + 1

def Db.isMissing (db : Db) (a : String) : Bool := (db.assets.get a).any (·.status = .missing)

theorem isMissing_iff_row {db : Db} {a : String} :
    db.isMissing a = true ↔ ∃ r, db.assets.get a = some r ∧ r.status = .missing := by
  unfold Db.isMissing
  cases db.assets.get a <;> simp

theorem Inventory.isMissing_iff {db : Db} (h : Inventory db) {a : String} :
    db.isMissing a = true ↔ (db.assets.get a).isSome ∧ db.anyActive a = false := by
  unfold Db.isMissing
  cases hr : db.assets.get a with
  | none => simp
  | some r =>
    have hid : r.id = a := Table.key_of_get hr
    have hsettled := (h.settled r (Table.mem_of_get hr)).missing
    rw [hid] at hsettled
    simpa using hsettled

section

variable [Hashes] {db db' : Db} {c : ApplyCall} {sum : Summary} {s : SnapshotEnvelope} {now : Time}
  {sights : List Sight} {losses : List Loss} {t : Trace} {a : String}

def ApplyCall.Passes (c : ApplyCall) (db : Db) (a : String) : Prop :=
  ∀ o ∈ c.snapshot.assets, c.leads db o.externalID ≠ some a

theorem turns_unseen (h : Steps (Turn s now) db sights db') (ha : ∀ x ∈ sights, x.asset ≠ a) :
    (∀ i, i.assetID = a → (i ∈ db'.sourceIdentities ↔ i ∈ db.sourceIdentities)) ∧
      db'.assets.get a = db.assets.get a := by
  induction h with
  | nil => exact ⟨fun _ _ => Iff.rfl, rfl⟩
  | @snoc l d x d' _ hx ih =>
    obtain ⟨hids, hasset⟩ := ih fun y hy => ha y (List.mem_append_left _ hy)
    have hne : x.asset ≠ a := ha x (by simp)
    refine ⟨fun i hi => ?_, (hx.others a (Ne.symm hne)).trans hasset⟩
    obtain ⟨j, hj, hkey, hja, -⟩ := hx.identity
    rw [← hids i hi, hj, Table.mem_put]
    constructor
    · rintro (rfl | ⟨hmem, -⟩)
      · exact absurd (hja.symm.trans hi) hne
      · exact hmem
    · refine fun hmem => .inr ⟨hmem, fun hk => hne ?_⟩
      rw [← hx.known i (by rw [← hkey, ← hk]; exact Table.mem_iff_get.mp hmem), hi]

/-- An asset that loses its last ACTIVE identity. -/
structure ApplyCall.Loses (c : ApplyCall) (db : Db) (a : String) : Prop where
  passes : c.Passes db a
  all : ∀ i ∈ db.sourceIdentities, i.assetID = a → i.status = .active → c.Expiring i

theorem lossTurns_own (h : Steps (LossTurn s) db losses db') :
    (∃ r, db'.assets.get a = some r ∧ r.organizationID = s.organizationID) ↔
      ∃ r, db.assets.get a = some r ∧ r.organizationID = s.organizationID := by
  refine h.invariant (I := fun d => (∃ r, d.assets.get a = some r ∧ r.organizationID = s.organizationID) ↔
    ∃ r, db.assets.get a = some r ∧ r.organizationID = s.organizationID) Iff.rfl fun d x d' _ hd hx => ?_
  rw [← hd, hx.assets]
  simp only [Option.map_eq_some_iff]
  constructor
  · rintro ⟨_, ⟨r, hr, rfl⟩, ho⟩
    exact ⟨r, hr, (sweptAsset_id _ _ r).2.symm.trans ho⟩
  · rintro ⟨r, hr, ho⟩
    exact ⟨_, ⟨r, hr, rfl⟩, (sweptAsset_id _ _ r).2.trans ho⟩

section

variable (h : Traced c db t sum db')
include h

theorem Traced.sight_leads {x : Sight} (hx : x ∈ t.sights) : c.leads db x.observation.externalID = some x.asset := by
  rw [h.leads, turns_leads h.observe hx]

theorem Traced.passes_iff : c.Passes db a ↔ ∀ x ∈ t.sights, x.asset ≠ a := by
  unfold ApplyCall.Passes
  rw [← h.assets]
  simp only [List.mem_map, forall_exists_index, and_imp, forall_apply_eq_imp_iff₂]
  refine forall₂_congr fun x hx => not_congr ?_
  rw [h.sight_leads hx, Option.some.injEq]

theorem Traced.sources_unchanged :
    t.d₂.sourceIdentities = t.d₁.sourceIdentities ∧ db'.sourceIdentities = t.e₁.sourceIdentities := by
  constructor
  · rw [linkTurns_frame h.relate]
  · rw [h.frame, run_removed_frame h.removals, h.sources.frame, lossTurns_frame h.drop]

section

variable (hrec : db.Recorded)
include hrec

theorem Traced.observed (e : String) : t.d₂.observed c.snapshot.snapshotID e = c.contains e := by
  have hfresh : ∀ o ∈ db.observations, o.snapshotID ≠ c.snapshot.snapshotID := by
    intro o ho hs
    obtain ⟨r, hr, hrs⟩ := hrec o ho
    exact h.unrun r hr (hrs.trans hs)
  rw [← h.loaded.observed hfresh, linkTurns_frame h.relate]
  rfl

theorem Traced.expiring_iff {i : SourceIdentityRow} (hi : i ∈ t.d₁.sourceIdentities) :
    (i.status = .active ∧ (i.swept c.snapshot.organizationID c.snapshot.connectorID
      (t.d₂.observed c.snapshot.snapshotID) (effectiveThreshold c.missingThreshold)).status ≠ .active) ↔
      c.Expiring i := by
  by_cases hmine : i.organizationID = c.snapshot.organizationID ∧ i.connectorID = c.snapshot.connectorID
  · rw [Ne, SourceIdentityRow.swept_active hmine, h.observed hrec]
    cases hseen : c.contains i.externalID with
    | true =>
      -- the identity was observed, so its counter starts again
      obtain ⟨o, ho, he⟩ : ∃ o ∈ c.snapshot.assets, o.externalID = i.externalID := by
        simpa [ApplyCall.contains] using hseen
      obtain ⟨j, hj, -, habs⟩ := h.loaded.seen o ho
      have hkey : (c.snapshot.organizationID, c.snapshot.connectorID, o.externalID) = i.key := by
        rw [he, ← hmine.1, ← hmine.2]
        rfl
      rw [hkey, Table.mem_iff_get.mp hi] at hj
      cases hj
      refine iff_of_false (fun hc => hc.2 ⟨hc.1, ?_⟩) fun hc => ?_
      · rw [habs]
        exact effectiveThreshold_pos _
      · have := hc.absent
        rw [hseen] at this
        cases this
    | false =>
      constructor
      · intro hparts
        obtain ⟨hact, hexp⟩ := hparts
        exact ⟨hmine.1, hmine.2, hact, hseen, not_lt.mp fun hlt => hexp ⟨hact, hlt⟩⟩
      · intro hc
        exact ⟨hc.active, fun hk => absurd hk.2 (not_lt.mpr hc.expired)⟩
  · rw [SourceIdentityRow.swept_of_ne hmine]
    exact iff_of_false (fun hc => hc.2 hc.1) fun hc => hmine ⟨hc.organizationID, hc.connectorID⟩

theorem Traced.anyActive_iff : t.e₁.anyActive a = true ↔
      ∃ i ∈ t.d₁.sourceIdentities, i.assetID = a ∧ i.status = .active ∧ ¬ c.Expiring i := by
  rw [Infragraph.anyActive_iff]
  constructor
  · intro hparts
    obtain ⟨i, hi, ha, hact⟩ := hparts
    obtain ⟨j, hj, rfl⟩ := h.identities.mem.mp hi
    rw [h.sources_unchanged.1] at hj
    rw [SourceIdentityRow.swept_assetID] at ha
    refine ⟨j, hj, ha, SourceIdentityRow.active_of_swept hact, fun hexp => ?_⟩
    exact ((h.expiring_iff hrec hj).mpr hexp).2 hact
  · intro hparts
    obtain ⟨i, hi, ha, hact, hexp⟩ := hparts
    refine ⟨_, h.identities.mem.mpr ⟨i, by rw [h.sources_unchanged.1]; exact hi, rfl⟩,
      by rwa [SourceIdentityRow.swept_assetID], ?_⟩
    by_contra hno
    exact hexp ((h.expiring_iff hrec hi).mp ⟨hact, hno⟩)

/-- An observation keeps its asset from going MISSING. -/
theorem Traced.sight_active {x : Sight} (hx : x ∈ t.sights) : t.e₁.anyActive x.asset = true := by
  have ho : x.observation ∈ c.snapshot.assets := h.assets ▸ List.mem_map_of_mem hx
  obtain ⟨i, hi, hact, -⟩ := h.loaded.seen _ ho
  have hlead : i.assetID = x.asset := by
    have hbound := turns_leads h.observe hx
    simp only [Db.bindings, Db.assetOf, hi, Option.map_some, Option.some.injEq] at hbound
    exact hbound
  refine (h.anyActive_iff hrec).mpr ⟨i, Table.mem_of_get hi, hlead, hact, fun hexp => ?_⟩
  have hext : i.externalID = x.observation.externalID := congrArg (·.2.2) (Table.key_of_get hi)
  have habsent := hexp.absent
  rw [ApplyCall.contains, List.any_eq_false] at habsent
  exact habsent _ ho (by simp [hext])

theorem Traced.loses_iff : t.e₁.anyActive a = false ↔ c.Loses db a := by
  constructor
  · intro hoff
    have hpass : ∀ x ∈ t.sights, x.asset ≠ a := by
      intro x hx hxa
      have hon := h.sight_active hrec hx
      rw [hxa, hoff] at hon
      cases hon
    refine ⟨h.passes_iff.mpr hpass, fun i hi hia hact => ?_⟩
    by_contra hexp
    have hon := (h.anyActive_iff hrec (a := a)).mpr
      ⟨i, ((turns_unseen h.observe hpass).1 i hia).mpr hi, hia, hact, hexp⟩
    rw [hoff] at hon
    cases hon
  · intro hl
    rw [← Bool.not_eq_true, h.anyActive_iff hrec]
    intro hparts
    obtain ⟨i, hi, hia, hact, hexp⟩ := hparts
    have hpass := h.passes_iff.mp hl.passes
    exact hexp (hl.all i (((turns_unseen h.observe hpass).1 i hia).mp hi) hia hact)

end

section

variable (hrec : db.Recorded) (hwf : Wf db)
include hrec hwf

/-- Whether a turn marks its asset does not depend on the turns before it. -/
theorem Traced.marked_iff {x : Loss} (hx : x ∈ t.losses) : x.marked = true ↔ c.Loses db x.asset := by
  have hmem : x.asset ∈ t.missing := by
    rw [← (c.order.missing_perm t.missing).mem_iff, ← h.lost]
    exact List.mem_map_of_mem hx
  obtain ⟨i, hi, hact, hia, hexp⟩ := (h.identities.missing_iff _).mp hmem
  rw [h.sources_unchanged.1] at hi
  have hexpiring := (h.expiring_iff hrec hi).mp ⟨hact, hexp⟩
  -- the identity that expired is bound to an asset of the organization
  have hown : ∃ r, t.e₁.assets.get x.asset = some r ∧ r.organizationID = c.snapshot.organizationID := by
    obtain ⟨r, hr, horg⟩ := (turns_wf h.observe hwf).identity i hi
    have hassets := h.assets_kept
    exact ⟨r, by rw [hassets, ← hia]; exact hr, horg.trans hexpiring.organizationID⟩
  obtain ⟨_, d, d', _, hpre, hturn, -⟩ := h.drop.at_mem hx
  have hany : d.anyActive x.asset = t.e₁.anyActive x.asset := by
    rw [lossTurns_frame hpre]
    rfl
  rw [hturn.marks, lossTurns_own hpre, hany, and_iff_right hown, h.loses_iff hrec]

/-- The assets marked MISSING, once for every identity that expired. -/
theorem Traced.marked_perm : ∃ l : List SourceIdentityRow, l.Nodup ∧
      (∀ i, i ∈ l ↔ i ∈ db.sourceIdentities ∧ c.Expiring i ∧ c.Loses db i.assetID) ∧
      ((t.losses.filter Loss.marked).map Loss.asset).Perm (l.map (·.assetID)) := by
  classical
  refine ⟨(t.d₂.sourceIdentities.rows.filter fun i => i.status = .active &&
    !((i.swept c.snapshot.organizationID c.snapshot.connectorID (t.d₂.observed c.snapshot.snapshotID)
      (effectiveThreshold c.missingThreshold)).status = .active)).filter fun i => c.Loses db i.assetID,
    ?_, fun i => ?_, ?_⟩
  · exact ((List.Nodup.of_map _ t.d₂.sourceIdentities.nodup).filter _).filter _
  · simp only [List.mem_filter, Bool.and_eq_true, decide_eq_true_eq, Bool.not_eq_true', decide_eq_false_iff_not,
      Table.mem_rows, h.sources_unchanged.1]
    constructor
    · intro hparts
      obtain ⟨⟨hi, hexp⟩, hl⟩ := hparts
      exact ⟨((turns_unseen h.observe (h.passes_iff.mp hl.passes)).1 i rfl).mp hi,
        (h.expiring_iff hrec hi).mp hexp, hl⟩
    · intro hparts
      obtain ⟨hi, hexp, hl⟩ := hparts
      have hi₁ := ((turns_unseen h.observe (h.passes_iff.mp hl.passes)).1 i rfl).mpr hi
      exact ⟨⟨hi₁, (h.expiring_iff hrec hi₁).mpr hexp⟩, hl⟩
  · have hfilter : t.losses.filter Loss.marked = t.losses.filter fun x => decide (c.Loses db x.asset) := by
      refine List.filter_congr fun x hx => ?_
      rw [Bool.eq_iff_iff, decide_eq_true_eq]
      exact h.marked_iff hrec hwf hx
    have hmap : (t.losses.filter fun x => decide (c.Loses db x.asset)).map Loss.asset =
        (t.losses.map Loss.asset).filter fun a => decide (c.Loses db a) := by
      rw [List.filter_map]
      rfl
    rw [hfilter, hmap, h.lost]
    refine (((c.order.missing_perm t.missing).trans h.identities.expired).filter _).trans ?_
    rw [List.filter_map]
    rfl

theorem Traced.mem_marked : a ∈ (t.losses.filter Loss.marked).map Loss.asset ↔
      c.Loses db a ∧ ∃ i ∈ db.sourceIdentities, i.assetID = a ∧ c.Expiring i := by
  obtain ⟨l, -, hl, hperm⟩ := h.marked_perm hrec hwf
  rw [hperm.mem_iff, List.mem_map]
  constructor
  · rintro ⟨i, hi, rfl⟩
    obtain ⟨hi, hexp, hlost⟩ := (hl i).mp hi
    exact ⟨hlost, i, hi, rfl, hexp⟩
  · rintro ⟨hlost, i, hi, rfl, hexp⟩
    exact ⟨i, (hl i).mpr ⟨hi, hexp, hlost⟩, rfl⟩

end

theorem Traced.isMissing_after (hrec : db.Recorded) (hinv : Inventory db') :
    db'.isMissing a = true ↔ (db'.assets.get a).isSome ∧ c.Loses db a := by
  have hany : db'.anyActive a = t.e₁.anyActive a := by
    unfold Db.anyActive
    rw [h.sources_unchanged.2]
  rw [hinv.isMissing_iff, hany, h.loses_iff hrec]

theorem Traced.turns_missing (hrec : db.Recorded) (hinv : Inventory db) (hinv' : Inventory db') :
    (db.isMissing a = false ∧ db'.isMissing a = true) ↔ a ∈ (t.losses.filter Loss.marked).map Loss.asset := by
  rw [h.mem_marked hrec hinv.toWf, h.isMissing_after hrec hinv', ← Bool.not_eq_true, hinv.isMissing_iff, h.keys_after]
  constructor
  · intro hparts
    obtain ⟨hbefore, hrow, hl⟩ := hparts
    have hasset := (turns_unseen h.observe (h.passes_iff.mp hl.passes)).2
    rw [hasset] at hrow
    have hany : db.anyActive a = true := by
      rw [← Bool.not_eq_false]
      exact fun hoff => hbefore ⟨hrow, hoff⟩
    obtain ⟨i, hi, hia, hact⟩ := Infragraph.anyActive_iff.mp hany
    exact ⟨hl, i, hi, hia, hl.all i hi hia hact⟩
  · intro hparts
    obtain ⟨hl, i, hi, hia, hexp⟩ := hparts
    have hany : db.anyActive a = true := Infragraph.anyActive_iff.mpr ⟨i, hi, hia, hexp.active⟩
    have hasset := (turns_unseen h.observe (h.passes_iff.mp hl.passes)).2
    refine ⟨fun hm => absurd hany (by simp [hm.2]), ?_, hl⟩
    obtain ⟨r, hr, -⟩ := hinv.identity i hi
    rw [hasset, ← hia, hr]
    rfl

end

end

end Infragraph
