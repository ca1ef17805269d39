import Infragraph.Proofs.Consistency
import Infragraph.Proofs.Determinism

/-! The summary that the in-memory `Apply` returns counts what the call did, as
long as no two external keys lead to one asset. -/

namespace Infragraph.Memory

open Relation

theorem card_noted (m : Dict String Change) (key : String) (c : Change) :
    (noted m key c).keys.card = m.keys.card + unnoted m key := by
  cases h : m.find key with
  | some c' => simp [noted, unnoted, h]
  | none =>
    rw [noted_of_none h, Dict.keys_set, Finset.card_insert_of_notMem (Dict.find_eq_none.mp h)]
    simp [unnoted, h]

/-- The counter of changes agrees with the map, which had `n` changes at first. -/
def ChangesExact (n : ℕ) (w : Work) : Prop := w.state.changes.keys.card = n + w.summary.changes

section

variable {n : ℕ} {w : Work} {policy : Policy} {s : SnapshotEnvelope} {now : Time}

section

variable (h : ChangesExact n w)
include h

theorem changesExact_noted {w' : Work} {key : String} {c : Change}
    (hchanges : w'.state.changes = noted w.state.changes key c)
    (hsummary : w'.summary.changes = w.summary.changes + unnoted w.state.changes key) : ChangesExact n w' := by
  unfold ChangesExact at h ⊢
  rw [hchanges, card_noted, h, hsummary, Nat.add_assoc]

theorem changesExact_claimsMade (o : Observation) (id : String)
    (entries : List (String × Json)) : ChangesExact n (claimsMade policy s o id w entries) := by
  unfold claimsMade
  split
  · exact h
  · exact changesExact_noted h rfl rfl

theorem changesExact_identify (o : Observation) : ChangesExact n (identify s now w o) := by
  unfold identify
  split_ifs
  · unfold discover
    simp only [addChange_eq]
    exact changesExact_noted h rfl rfl
  · rw [touch_eq]
    simp only
    split_ifs
    · simp only [addChange_eq]
      exact changesExact_noted h rfl rfl
    · exact h

theorem changesExact_setAbsences (key : String) (m : ℕ) : ChangesExact n (w.setAbsences key m) := h

theorem changesExact_observe (o : Observation) : ChangesExact n (observe policy s now w o) := by
  rw [observe_claimsMade]
  exact changesExact_claimsMade (changesExact_setAbsences (changesExact_identify h o) _ _) o _ _

theorem changesExact_relate (r : RelationshipObservation) : ChangesExact n (relate s now w r) := by
  unfold relate
  split
  · exact h
  · split
    · rw [addChange_eq]
      exact changesExact_noted h rfl rfl
    · exact h

theorem changesExact_removeAbsent (seen : List String) (key : String) :
    ChangesExact n (removeAbsent s now seen w key) := by
  cases hl : lapsing s seen w.state key with
  | none =>
    rw [removeAbsent_of_none hl]
    exact h
  | some r =>
    rw [removeAbsent_of_some hl]
    exact changesExact_noted h rfl rfl

theorem changesExact_countAbsence (seen : List String) (key : String) :
    ChangesExact n (countAbsence policy s now seen w key) := by
  have hmiss : ∀ id, ChangesExact n (missAsset s now id w) := by
    intro id
    rw [missAsset_eq]
    split_ifs
    · exact changesExact_noted h rfl rfl
    · exact h
  by_cases hc : Counted s seen key
  · rw [countAbsence_of_counted hc]
    split_ifs
    · exact hmiss _
    · exact h
  · rw [countAbsence_of_not_counted hc]
    exact h

end

theorem changesExact_reconcile (policy : Policy) (s : SnapshotEnvelope) (now : Time) (order : RangeOrder) (st : State) :
    ChangesExact st.changes.keys.card (reconcile policy s now order st) := by
  unfold reconcile
  refine List.foldlRecOn _ _ ?_ fun w h key _ => changesExact_countAbsence h _ key
  refine List.foldlRecOn _ _ ?_ fun w h key _ => changesExact_removeAbsent h _ key
  refine List.foldlRecOn _ _ ?_ fun w h r _ => changesExact_relate h r
  exact List.foldlRecOn _ _ rfl fun w h o _ => changesExact_observe h o

end

/-- No external ID is mapped to the empty ID, and every asset has an external ID. -/
structure Covered (st : State) : Prop where
  named : ∀ key id, st.externalToAsset.find key = some id → id ≠ ""
  mapped : ∀ id ∈ st.assets.keys, ∃ key, st.externalToAsset.find key = some id

theorem covered_newState : Covered newState :=
  ⟨fun _ _ h => absurd h (by simp [newState]), fun _ h => absurd h (by simp [newState])⟩

variable {s : SnapshotEnvelope} {st st' : State}

theorem Covered.edit (h : Covered st) (he : Edit s st st') : Covered st' := by
  cases he with
  | change key c => exact ⟨h.named, h.mapped⟩
  | absences external n => exact ⟨h.named, h.mapped⟩
  | claim c hid hasset hconnector => exact ⟨h.named, h.mapped⟩
  | relate rest r hsource htarget => exact ⟨h.named, h.mapped⟩
  | relationship r hold hfrom hto => exact ⟨h.named, h.mapped⟩
  | @asset external id a hid horg =>
    refine ⟨h.named, fun id' hid' => ?_⟩
    rcases Dict.mem_keys_set.mp hid' with rfl | hid'
    · exact ⟨_, hid⟩
    · exact h.mapped id' hid'
  | @discover o a ho hnew horg =>
    refine ⟨?_, ?_⟩
    · intro key id hid
      simp only [Dict.find_set] at hid
      split_ifs at hid with hk
      · rw [← Option.some.inj hid]
        intro hempty
        have := congrArg String.toList hempty
        simp [String.toList_append] at this
      · exact h.named key id hid
    · intro id hid
      rcases Dict.mem_keys_set.mp hid with rfl | hid
      · exact ⟨_, Dict.find_set_self ..⟩
      · obtain ⟨key, hkey⟩ := h.mapped id hid
        refine ⟨key, ?_⟩
        rw [Dict.find_set_of_ne]
        · exact hkey
        · rintro rfl
          exact h.named _ _ hkey (State.assetOf_of_find hkey ▸ hnew)

theorem covered_run (calls : List Call) : Covered (run calls) :=
  run_induction covered_newState
    (fun c _ h => c.preserves h (fun _ h => ⟨h.named, h.mapped⟩) fun _ _ he h => h.edit he) calls

theorem Covered.unmapped_iff (h : Covered st) (o : Observation) :
    Unmapped st s o ↔ scope s ++ o.externalID ∉ st.externalToAsset.keys := by
  rw [← Dict.find_eq_none]
  unfold Unmapped State.assetOf
  cases hfind : st.externalToAsset.find (scope s ++ o.externalID) with
  | none => simp
  | some id => simpa using h.named _ _ hfind

def OneKey (st : State) : Prop :=
  ∀ key key' id, st.externalToAsset.find key = some id → st.externalToAsset.find key' = some id → key = key'

theorem Edit.keeps_external (he : Edit s st st') {key id : String} (hid : st.externalToAsset.find key = some id)
    (hcovered : Covered st) : st'.externalToAsset.find key = some id := by
  cases he with
  | change => exact hid
  | asset => exact hid
  | absences => exact hid
  | claim => exact hid
  | relate => exact hid
  | relationship => exact hid
  | @discover o a ho hnew horg =>
    rw [Dict.find_set_of_ne]
    · exact hid
    · rintro rfl
      exact hcovered.named _ _ hid (State.assetOf_of_find hid ▸ hnew)

theorem edits_covered (he : Edits s st st') (h : Covered st) : Covered st' := by
  induction he with
  | refl => exact h
  | tail _ hstep ih => exact ih.edit hstep

theorem edits_consistent (he : Edits s st st') (h : Consistent st) : Consistent st' := by
  induction he with
  | refl => exact h
  | tail _ hstep ih => exact ih.edit hstep

theorem edits_keep_external (he : Edits s st st') (h : Covered st) {key id : String}
    (hid : st.externalToAsset.find key = some id) : st'.externalToAsset.find key = some id := by
  induction he with
  | refl => exact hid
  | tail hsteps hstep ih => exact hstep.keeps_external ih (edits_covered hsteps h)

theorem OneKey.before (h : OneKey st') (he : Edits s st st') (hcovered : Covered st) : OneKey st :=
  fun key key' id hkey hkey' =>
    h key key' id (edits_keep_external he hcovered hkey) (edits_keep_external he hcovered hkey')

variable {policy : Policy} {now : Time}

structure Tallied (s : SnapshotEnvelope) (st : State) (l : List Observation) (w : Work) : Prop where
  observations : w.summary.created + w.summary.updated + w.summary.unchanged = l.length
  externals : w.state.externalToAsset.keys.card = st.externalToAsset.keys.card + w.summary.created
  assets : w.state.assets.keys.card = st.assets.keys.card + w.summary.created
  /-- an asset that is not as it was has an observed external ID, and is not missing -/
  changed : ∀ id, w.state.assets.find id = st.assets.find id ∨
    (∃ o ∈ l, w.state.externalToAsset.find (scope s ++ o.externalID) = some id) ∧
      ∃ a, w.state.assets.find id = some a ∧ a.status ≠ .missing
  relationships : w.state.relationships = st.relationships
  zero : w.summary.missing = 0 ∧ w.summary.relationshipsCreated = 0 ∧ w.summary.relationshipsRemoved = 0

theorem Seen.status_ne_missing {o : Observation} {w w' : Work} (h : Seen policy s now o w w') :
    ∃ a, w'.state.assets.find (assetIDOf w.state s o) = some a ∧ a.status ≠ .missing := by
  rw [h.assets]
  refine ⟨_, Dict.find_set_self .., ?_⟩
  have hidentified : (identified s now w.state o).status = .active := by
    unfold identified
    split_ifs <;> rfl
  split_ifs
  · rw [hidentified]
    decide
  · show AssetStatus.conflicting ≠ .missing
    decide

theorem find_assetIDOf (policy : Policy) (s : SnapshotEnvelope) (now : Time) (w : Work) (o : Observation) :
    (observe policy s now w o).state.externalToAsset.find (scope s ++ o.externalID) =
      some (assetIDOf w.state s o) := by
  rw [(observe_seen policy s now w o).externals]
  split_ifs with hnew
  · exact Dict.find_set_self ..
  · rw [show assetIDOf w.state s o = w.state.assetOf (scope s ++ o.externalID) from if_neg hnew]
    exact State.find_of_assetOf hnew

theorem tallied_snoc {l : List Observation} {o : Observation} {w w' : Work} (h : Tallied s st l w)
    (hseen : Seen policy s now o w w')
    (hfind : w'.state.externalToAsset.find (scope s ++ o.externalID) = some (assetIDOf w.state s o))
    (hconsistent : Consistent w.state) (hcovered : Covered w.state) (hone : OneKey w'.state)
    (hedits : Edits s w.state w'.state) : Tallied s st (l ++ [o]) w' := by
  have hchanged : ∀ id, w'.state.assets.find id = st.assets.find id ∨
      (∃ o' ∈ l ++ [o], w'.state.externalToAsset.find (scope s ++ o'.externalID) = some id) ∧
        ∃ a, w'.state.assets.find id = some a ∧ a.status ≠ .missing := by
    intro id
    by_cases hid : assetIDOf w.state s o = id
    · subst hid
      exact .inr ⟨⟨o, by simp, hfind⟩, hseen.status_ne_missing⟩
    · have hsame : w'.state.assets.find id = w.state.assets.find id := by
        rw [hseen.assets, Dict.find_set_of_ne _ _ hid]
      rw [hsame]
      refine (h.changed id).imp_right fun hc => ⟨?_, hc.2⟩
      obtain ⟨o', ho', hmapped⟩ := hc.1
      exact ⟨o', List.mem_append_left _ ho', edits_keep_external hedits hcovered hmapped⟩
  have hrelationships : w'.state.relationships = st.relationships := by rw [hseen.state, h.relationships]
  have hzero : w'.summary.missing = 0 ∧ w'.summary.relationshipsCreated = 0 ∧
      w'.summary.relationshipsRemoved = 0 := by
    rw [hseen.summary]
    exact h.zero
  have hobservations := h.observations
  by_cases hnew : Unmapped w.state s o
  · have hkey : scope s ++ o.externalID ∉ w.state.externalToAsset.keys := (hcovered.unmapped_iff o).mp hnew
    have hasset : assetIDOf w.state s o ∉ w.state.assets.keys := by
      intro hmem
      obtain ⟨key, hmapped⟩ := hcovered.mapped _ hmem
      have heq := hone _ _ _ (edits_keep_external hedits hcovered hmapped) hfind
      exact hkey (heq ▸ Dict.mem_keys.mpr ⟨_, hmapped⟩)
    refine ⟨?_, ?_, ?_, hchanged, hrelationships, hzero⟩
    · rw [hseen.summary]
      simp only [hnew, if_true, not_true_eq_false, false_and, if_false, List.length_append, List.length_singleton]
      omega
    · rw [hseen.externals, if_pos hnew, Dict.keys_set, Finset.card_insert_of_notMem hkey, h.externals, hseen.summary]
      simp [hnew, Nat.add_assoc]
    · rw [hseen.assets, Dict.keys_set, Finset.card_insert_of_notMem hasset, h.assets, hseen.summary]
      simp [hnew, Nat.add_assoc]
  · have hmapped : w.state.externalToAsset.find (scope s ++ o.externalID) = some (assetIDOf w.state s o) := by
      rw [show assetIDOf w.state s o = w.state.assetOf (scope s ++ o.externalID) from if_neg hnew]
      exact State.find_of_assetOf hnew
    refine ⟨?_, ?_, ?_, hchanged, hrelationships, hzero⟩
    · rw [hseen.summary]
      by_cases hmissing : (w.state.assetAt (assetIDOf w.state s o)).status = .missing <;>
        simp [hnew, hmissing] <;> omega
    · rw [hseen.externals, if_neg hnew, h.externals, hseen.summary]
      simp [hnew]
    · rw [hseen.assets, Dict.keys_set_of_mem (hconsistent.externals _ _ hmapped), h.assets, hseen.summary]
      simp [hnew]

theorem tallied_observes (policy : Policy) (now : Time) {l : List Observation} (hl : ∀ o ∈ l, o ∈ s.assets)
    (hconsistent : Consistent st)
    (hcovered : Covered st) (hone : OneKey (l.foldl (observe policy s now) ⟨st, {}⟩).state) :
    Tallied s st l (l.foldl (observe policy s now) ⟨st, {}⟩) := by
  induction l using List.reverseRecOn with
  | nil => exact ⟨rfl, rfl, rfl, fun _ => .inl rfl, rfl, rfl, rfl, rfl⟩
  | append_singleton l o ih =>
    have hbefore := edits_observes policy now (fun x hx => hl x (List.mem_append_left _ hx)) ⟨st, {}⟩
    rw [List.foldl_append, List.foldl_cons] at hone ⊢
    have hround := edits_observe policy now (l.foldl (observe policy s now) ⟨st, {}⟩) (hl o (by simp))
    have hw := edits_covered hbefore hcovered
    exact tallied_snoc (ih (fun x hx => hl x (List.mem_append_left _ hx)) (hone.before hround hw)) (observe_seen ..)
      (find_assetIDOf ..) (edits_consistent hbefore hconsistent) hw hone hround

def State.statusOf (st : State) (id : String) : Option AssetStatus := (st.assets.find id).map Asset.status

def State.relationshipStatus (st : State) (key : String) : Option RelationshipStatus :=
  (st.relationships.find key).map Relationship.status

/-- The summary counts what changed between two states. -/
structure SummaryExact (s : SnapshotEnvelope) (st st' : State) (summary : Summary) : Prop where
  changes : st'.changes.keys.card = st.changes.keys.card + summary.changes
  observations : summary.created + summary.updated + summary.unchanged = s.assets.length
  externals : st'.externalToAsset.keys.card = st.externalToAsset.keys.card + summary.created
  assets : st'.assets.keys.card = st.assets.keys.card + summary.created
  missing : summary.missing = (st'.assets.keys.filter fun id =>
    st.statusOf id ≠ some .missing ∧ st'.statusOf id = some .missing).card
  relationships : st'.relationships.keys.card = st.relationships.keys.card + summary.relationshipsCreated
  removed : summary.relationshipsRemoved = (st'.relationships.keys.filter fun key =>
    st.relationshipStatus key = some .active ∧ st'.relationshipStatus key = some .removed).card

theorem Removed.keys {seen keys : List String} {w w' : Work} (h : Removed s now seen keys w w') :
    w'.state.relationships.keys = w.state.relationships.keys :=
  Dict.keys_of_find fun key => by rw [h.relationships, Option.isSome_map]

theorem removed_exact {seen : List String} {w₁ w₂ w₃ : Work} (order : Iteration String)
    (hlinked : Linked s seen w₁ w₂) (h : Removed s now seen (order.list w₂.state.relationships.keys) w₂ w₃) :
    w₃.summary.relationshipsRemoved = w₂.summary.relationshipsRemoved + (w₃.state.relationships.keys.filter fun key =>
      w₁.state.relationshipStatus key = some .active ∧ w₃.state.relationshipStatus key = some .removed).card := by
  rw [h.removed, h.keys]
  congr 1
  rw [← List.toFinset_card_of_nodup ((order.nodup _).filter _)]
  congr 1
  ext key
  rw [List.mem_toFinset, List.mem_filter, Finset.mem_filter, order.mem]
  refine and_congr_right fun hkey => ?_
  obtain ⟨r, hr⟩ := Dict.mem_keys.mp hkey
  have hafter : w₃.state.relationshipStatus key =
      some (if Removable s seen key r then .removed else r.status) := by
    unfold State.relationshipStatus
    rw [h.relationships, hr]
    simp only [Option.map_some, order.mem, hkey, true_and]
    split_ifs <;> rfl
  rw [hr, Option.any_some, decide_eq_true_eq, hafter]
  constructor
  · intro hremovable
    rw [if_pos hremovable]
    refine ⟨?_, rfl⟩
    unfold State.relationshipStatus
    rw [← hlinked.others key hremovable.2.1, hr]
    exact congrArg some hremovable.2.2
  · intro hparts
    obtain ⟨hbefore, hnow⟩ := hparts
    by_contra hno
    rw [if_neg hno] at hnow
    by_cases hseen : key ∈ seen
    · obtain ⟨r', hr', hactive⟩ := hlinked.active key hseen
      rw [hr] at hr'
      cases hr'
      rw [hactive] at hnow
      cases hnow
    · unfold State.relationshipStatus at hbefore
      rw [← hlinked.others key hseen, hr] at hbefore
      exact absurd ((Option.some.inj hbefore).symm.trans (Option.some.inj hnow)) (by decide)

theorem missing_exact {w₁ w₃ w₄ : Work} (order : Iteration String) (htallied : Tallied s st s.assets w₁)
    (hexternals : w₃.state.externalToAsset = w₁.state.externalToAsset) (hassets : w₃.state.assets = w₁.state.assets)
    (hone : OneKey w₃.state) (h : Absent policy s now (s.assets.map fun o => scope s ++ o.externalID)
      (order.list w₃.state.externalToAsset.keys) w₃ w₄) :
    w₄.summary.missing = w₃.summary.missing + (w₄.state.assets.keys.filter fun id =>
      st.statusOf id ≠ some .missing ∧ w₄.state.statusOf id = some .missing).card := by
  rw [h.missing]
  congr 2
  ext id
  rw [Finset.mem_filter]
  constructor
  · intro hlost
    obtain ⟨⟨key, hkey, hdue, hid⟩, hpresent⟩ := mem_lostAssets.mp hlost
    have hfind : w₄.state.assets.find id = some ((w₃.state.assetAt id).lost now) := by
      rw [h.assets, if_pos hlost]
    refine ⟨Dict.mem_keys.mpr ⟨_, hfind⟩, ?_, by simp [State.statusOf, hfind, Asset.lost]⟩
    -- the asset is that of a key the snapshot does not contain, so the asset loop left it
    have hmapped : w₃.state.externalToAsset.find key = some id := by
      obtain ⟨id', hid'⟩ := Dict.mem_keys.mp ((order.mem _ _).mp hkey)
      rw [hid', ← hid, State.assetOf_of_find hid']
    have hsame : w₁.state.assets.find id = st.assets.find id := by
      refine (htallied.changed id).resolve_right ?_
      intro hchanged
      obtain ⟨⟨o, ho, hobserved⟩, -⟩ := hchanged
      have heq := hone _ _ _ hmapped (hexternals ▸ hobserved)
      exact hdue.1.2 (heq ▸ List.mem_map_of_mem (f := fun o => scope s ++ o.externalID) ho)
    intro hmissing
    unfold State.statusOf at hmissing
    rw [← hsame, ← hassets] at hmissing
    obtain ⟨a, ha, hstatus⟩ := Option.map_eq_some_iff.mp hmissing
    apply hpresent.1
    unfold State.assetAt
    rw [ha]
    exact hstatus
  · intro hturned
    obtain ⟨-, hbefore, hafter⟩ := hturned
    by_contra hno
    unfold State.statusOf at hafter hbefore
    rw [h.assets, if_neg hno, hassets] at hafter
    rcases htallied.changed id with hsame | ⟨-, a, ha, hstatus⟩
    · rw [← hsame] at hbefore
      exact hbefore hafter
    · rw [ha] at hafter
      exact hstatus (Option.some.inj hafter)

theorem reconcile_exact (order : RangeOrder) (hconsistent : Consistent st) (hcovered : Covered st)
    (hone : OneKey (reconcile policy s now order st).state) :
    SummaryExact s st (reconcile policy s now order st).state (reconcile policy s now order st).summary := by
  have hchanges := changesExact_reconcile policy s now order st
  rw [reconcile_eq] at hone hchanges ⊢
  have htally := tallied_observes (s := s) (l := s.assets) policy now (fun _ h => h) hconsistent hcovered
  have hedits := edits_observes (s := s) policy now (fun _ h => h) ⟨st, {}⟩
  have hsettle := edits_settle (s := s) policy now order (s.assets.foldl (observe policy s now) ⟨st, {}⟩)
  generalize s.assets.foldl (observe policy s now) ⟨st, {}⟩ = w₁ at *
  replace htally := htally (hone.before hsettle (edits_covered hedits hcovered))
  obtain ⟨w₂, w₃, hlinked, hremoved, habsent⟩ := settle_loops policy s now order w₁
  generalize settle policy s now order w₁ = w₄ at *
  have hexternals₃ : w₃.state.externalToAsset = w₁.state.externalToAsset := by rw [hremoved.state, hlinked.state]
  have hassets₃ : w₃.state.assets = w₁.state.assets := by rw [hremoved.state, hlinked.state]
  have hexternals₄ : w₄.state.externalToAsset = w₃.state.externalToAsset := by rw [habsent.state]
  have hone₃ : OneKey w₃.state := by
    unfold OneKey at hone ⊢
    rwa [hexternals₄] at hone
  have hsummary₃ : w₃.summary = { w₁.summary with
      relationshipsCreated := w₂.summary.relationshipsCreated
      relationshipsRemoved := w₃.summary.relationshipsRemoved, changes := w₃.summary.changes } := by
    rw [hremoved.summary, hlinked.summary]
  have hsummary₄ := habsent.summary
  rw [hsummary₃] at hsummary₄
  have hkeys₄ : w₄.state.assets.keys = w₃.state.assets.keys := by
    refine Dict.keys_of_find fun id => ?_
    rw [habsent.assets]
    split_ifs with hlost
    · obtain ⟨⟨key, hkey, -, hid⟩, -⟩ := mem_lostAssets.mp hlost
      obtain ⟨id', hid'⟩ := Dict.mem_keys.mp ((order.externals.mem _ _).mp hkey)
      rw [State.assetOf_of_find hid'] at hid
      subst hid
      have hmem := (edits_consistent hedits hconsistent).externals _ _ (hexternals₃ ▸ hid')
      rw [hassets₃]
      exact (Option.isSome_iff_exists.mpr (Dict.mem_keys.mp hmem)).symm
    · rfl
  have hmissing := missing_exact order.externals htally hexternals₃ hassets₃ hone₃ habsent
  have hgone := removed_exact order.relationships hlinked hremoved
  have hzero := htally.zero
  refine ⟨hchanges, ?_, ?_, ?_, ?_, ?_, ?_⟩
  · rw [hsummary₄]
    exact htally.observations
  · rw [hsummary₄, hexternals₄, hexternals₃]
    exact htally.externals
  · rw [hsummary₄, hkeys₄, hassets₃]
    exact htally.assets
  · rw [hmissing, hsummary₃]
    simp only [hzero.1, Nat.zero_add]
  · have hcreated := hlinked.created
    rw [hsummary₄, show w₄.state.relationships = w₃.state.relationships by rw [habsent.state], hremoved.keys]
    rw [hzero.2.1, htally.relationships] at hcreated
    exact hcreated
  · rw [hsummary₄, show w₄.state.relationships = w₃.state.relationships by rw [habsent.state]]
    rw [hgone, hlinked.summary, hzero.2.2, Nat.zero_add]
    unfold State.relationshipStatus
    rw [htally.relationships, show w₄.state.relationships = w₃.state.relationships by rw [habsent.state]]

/-- The summary of a reconciled snapshot is exact, if afterwards no two external
keys lead to one asset. -/
theorem summary_exact (calls : List Call) (c : Call) {summary : Summary} {st' : State}
    (hrun : c.run (run calls) = .ok (summary, st')) (hstatus : c.status = .succeeded)
    (hfresh : (run calls).processedSnapshots.find c.snapshot.snapshotID = none) (hone : OneKey st') :
    SummaryExact c.snapshot (run calls) st' summary := by
  unfold Call.run at hrun
  rw [hstatus, apply_of_succeeded hfresh, Except.ok.injEq] at hrun
  obtain ⟨rfl, rfl⟩ := hrun
  have h := reconcile_exact c.order (consistent_run calls) (covered_run calls) hone
  exact ⟨h.changes, h.observations, h.externals, h.assets, h.missing, h.relationships, h.removed⟩

def dockerCall : Call := ⟨dockerSnapshot, .succeeded, noPolicy, .ascending, 0⟩

def linkedCall : Call :=
  ⟨snapshotOf "docker-1" "docker" [dockerSeen, databaseSeen] [usesDatabase], .succeeded, noPolicy, .ascending, 0⟩

def droppedCall : Call := ⟨snapshotOf "docker-2" "docker" [dockerSeen] [], .succeeded, noPolicy, .ascending, 0⟩

def droppedSummary : Summary := { unchanged := 1, missing := 1, relationshipsRemoved := 1, changes := 2 }

/-- The second snapshot loses the database and the relationship, which are two changes. -/
theorem summary_exact_dropped : SummaryExact droppedCall.snapshot (run [linkedCall])
    (droppedCall.after (run [linkedCall])) droppedSummary := by
  have hfresh : (run [linkedCall]).processedSnapshots.find droppedCall.snapshot.snapshotID = none := by decide +kernel
  have hrun : droppedCall.run (run [linkedCall]) = .ok (droppedSummary, droppedCall.after (run [linkedCall])) := by
    have hsummary : (reconcile noPolicy droppedCall.snapshot 2000 .ascending (run [linkedCall])).summary =
        droppedSummary := by decide +kernel
    rw [← hsummary]
    unfold Call.after
    cases hout : droppedCall.run (run [linkedCall]) with
    | error e => cases hout.symm.trans (apply_of_succeeded hfresh)
    | ok out =>
      cases hout.symm.trans (apply_of_succeeded hfresh)
      rfl
  refine summary_exact [linkedCall] droppedCall hrun rfl hfresh ?_
  have hone : ∀ key ∈ (droppedCall.after (run [linkedCall])).externalToAsset.keys,
      ∀ key' ∈ (droppedCall.after (run [linkedCall])).externalToAsset.keys,
        (droppedCall.after (run [linkedCall])).externalToAsset.find key =
          (droppedCall.after (run [linkedCall])).externalToAsset.find key' → key = key' := by decide +kernel
  intro key key' id hkey hkey'
  exact hone key (Dict.mem_keys.mpr ⟨id, hkey⟩) key' (Dict.mem_keys.mpr ⟨id, hkey'⟩) (hkey.trans hkey'.symm)

end Infragraph.Memory
