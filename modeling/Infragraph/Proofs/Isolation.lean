import Infragraph.Proofs.Counts

/-! Who may touch what in the in-memory engine. An asset ID is made from the external
ID alone, and a key belongs to a connector if it begins with its scope; so a snapshot
stays within its own organization and connector only as long as no scope begins
another and no external IDs of two connectors are normalised alike. -/

namespace Infragraph.Memory

open Relation

def Call.SameScope (c c' : Call) : Prop :=
  c.snapshot.organizationID = c'.snapshot.organizationID ∧ c.snapshot.connectorID = c'.snapshot.connectorID

/-- Calls of different connectors neither share the beginning of their keys nor
the asset IDs of their external IDs. -/
def Separated (calls : List Call) : Prop :=
  ∀ c ∈ calls, ∀ c' ∈ calls, ¬ c.SameScope c' →
    hasPrefix (scope c'.snapshot) (scope c.snapshot) = false ∧
    ∀ o ∈ c.snapshot.assets, ∀ o' ∈ c'.snapshot.assets, safe o.externalID ≠ safe o'.externalID

/-- Some external ID of the organization and connector was mapped to the asset, at
some point of the run. -/
def EverMapped (calls : List Call) (s : SnapshotEnvelope) (id : String) : Prop :=
  ∃ before external, before <+: calls ∧ (run before).externalToAsset.find (scope s ++ external) = some id

/-- What the call leaves unchanged in the state that the calls before it reached. -/
structure Isolated (calls : List Call) (c : Call) (st st' : State) : Prop where
  organizations : ∀ id a, st.assets.find id = some a → a.organizationID ≠ c.snapshot.organizationID →
    st'.assets.find id = some a
  assets : ∀ id a, st.assets.find id = some a → ¬ EverMapped calls c.snapshot id → st'.assets.find id = some a
  absences : ∀ c' ∈ calls, ¬ c'.SameScope c → ∀ external,
    st'.successfulAbsences.find (scope c'.snapshot ++ external) =
      st.successfulAbsences.find (scope c'.snapshot ++ external)
  relationships : ∀ c' ∈ calls, ¬ c'.SameScope c → ∀ rest,
    st'.relationships.find (scope c'.snapshot ++ rest) = st.relationships.find (scope c'.snapshot ++ rest)

/-- Every mapping and every asset comes from an observation of some call. -/
structure Owned (calls : List Call) (st : State) : Prop where
  externals : ∀ key id, st.externalToAsset.find key = some id → ∃ c ∈ calls, ∃ o ∈ c.snapshot.assets,
    key = scope c.snapshot ++ o.externalID ∧ id = "asset-" ++ safe o.externalID ∧
    ∃ a, st.assets.find id = some a
  assets : ∀ id a, st.assets.find id = some a → ∃ c ∈ calls, ∃ o ∈ c.snapshot.assets,
    st.externalToAsset.find (scope c.snapshot ++ o.externalID) = some id ∧ id = "asset-" ++ safe o.externalID ∧
    a.organizationID = c.snapshot.organizationID

theorem scope_of_sameScope {c c' : Call} (h : c.SameScope c') : scope c.snapshot = scope c'.snapshot := by
  unfold scope
  rw [h.1, h.2]

/-- Keys of two scopes of which neither begins the other differ. -/
theorem scope_append_ne {calls : List Call} (hsep : Separated calls) {c c' : Call} (hc : c ∈ calls) (hc' : c' ∈ calls)
    (h : ¬ c'.SameScope c) (x y : String) : scope c'.snapshot ++ x ≠ scope c.snapshot ++ y := by
  intro heq
  have hlist := congrArg String.toList heq
  rw [String.toList_append, String.toList_append] at hlist
  have hno := (hsep c' hc' c hc h).1
  have hno' := (hsep c hc c' hc' fun hs => h ⟨hs.1.symm, hs.2.symm⟩).1
  unfold hasPrefix at hno hno'
  rw [← Bool.not_eq_true, List.isPrefixOf_iff_prefix] at hno hno'
  rcases List.prefix_or_prefix_of_prefix (List.prefix_append (scope c'.snapshot).toList x.toList)
      (hlist ▸ List.prefix_append (scope c.snapshot).toList y.toList) with hpre | hpre
  · exact hno hpre
  · exact hno' hpre

section

variable {calls : List Call} {c : Call}

theorem Separated.sameScope (hsep : Separated calls) (hc : c ∈ calls) {c' : Call} (hc' : c' ∈ calls) {o o' : Observation}
    (ho : o ∈ c.snapshot.assets) (ho' : o' ∈ c'.snapshot.assets)
    (h : "asset-" ++ safe o.externalID = "asset-" ++ safe o'.externalID) : c'.SameScope c := by
  by_contra hne
  exact (hsep c' hc' c hc hne).2 o' ho' o ho ((String.append_right_inj _).mp h).symm

theorem Owned.edit (hc : c ∈ calls) {st st' : State} (h : Owned calls st)
    (hedit : Edit c.snapshot st st') : Owned calls st' := by
  cases hedit with
  | change key c' => exact ⟨h.externals, h.assets⟩
  | absences external n => exact ⟨h.externals, h.assets⟩
  | claim cl hfind hid hconnector => exact ⟨h.externals, h.assets⟩
  | relate rest r hsource htarget => exact ⟨h.externals, h.assets⟩
  | relationship r hfind hfrom hto => exact ⟨h.externals, h.assets⟩
  | asset a hfind horg =>
    rename_i external id
    refine ⟨fun key id' hkey => ?_, fun id' a' ha' => ?_⟩
    · obtain ⟨c', hc', o, ho, hk, hid, a', ha'⟩ := h.externals key id' hkey
      refine ⟨c', hc', o, ho, hk, hid, ?_⟩
      simp only [Dict.find_set]
      split_ifs
      · exact ⟨_, rfl⟩
      · exact ⟨a', ha'⟩
    · simp only [Dict.find_set] at ha'
      split_ifs at ha' with hid
      · obtain ⟨-, -, -, -, -, -, old, hold⟩ := h.externals _ _ hfind
        obtain ⟨c', hc', o, ho, hmap, heq, horg'⟩ := h.assets id old hold
        rw [hold] at horg
        subst hid
        cases ha'
        exact ⟨c', hc', o, ho, hmap, heq, horg.trans horg'⟩
      · exact h.assets id' a' ha'
  | discover a ho hnew horg =>
    rename_i o
    refine ⟨fun key id' hkey => ?_, fun id' a' ha' => ?_⟩
    · simp only [Dict.find_set] at hkey ⊢
      split_ifs at hkey with hk
      · cases hkey
        exact ⟨c, hc, o, ho, hk.symm, rfl, by simp⟩
      · obtain ⟨c', hc', o', ho', hk', hid, a', ha'⟩ := h.externals key id' hkey
        refine ⟨c', hc', o', ho', hk', hid, ?_⟩
        split_ifs
        · exact ⟨_, rfl⟩
        · exact ⟨a', ha'⟩
    · simp only [Dict.find_set] at ha' ⊢
      split_ifs at ha' with hid
      · subst hid
        cases ha'
        exact ⟨c, hc, o, ho, by simp, rfl, horg⟩
      · obtain ⟨c', hc', o', ho', hmap, heq, horg'⟩ := h.assets id' a' ha'
        refine ⟨c', hc', o', ho', ?_, heq, horg'⟩
        split_ifs with hk
        · -- the key was mapped, and to the empty text if it was mapped at all
          rw [← hk] at hmap
          rw [State.assetOf_of_find hmap] at hnew
          exact absurd (heq.symm.trans hnew) (by
            intro hempty
            have := congrArg String.length hempty
            simp at this)
        · exact hmap

theorem Owned.mono {calls' : List Call} (hsub : ∀ c ∈ calls, c ∈ calls') {st : State} (h : Owned calls st) :
    Owned calls' st := by
  refine ⟨fun key id hkey => ?_, fun id a ha => ?_⟩
  · obtain ⟨c, hc, hrest⟩ := h.externals key id hkey
    exact ⟨c, hsub c hc, hrest⟩
  · obtain ⟨c, hc, hrest⟩ := h.assets id a ha
    exact ⟨c, hsub c hc, hrest⟩

theorem owned_run (calls : List Call) : Owned calls (run calls) := by
  induction calls using List.reverseRecOn with
  | nil =>
    refine ⟨fun key id h => ?_, fun id a h => ?_⟩
    · simp [run, newState, Dict.find] at h
    · simp [run, newState, Dict.find] at h
  | append_singleton calls c ih =>
    rw [run_append]
    have hstart : Owned (calls ++ [c]) (run calls) := ih.mono fun c' hc' => List.mem_append_left _ hc'
    refine Call.preserves hstart (fun st h => ⟨h.externals, h.assets⟩) fun st st' hedit h => ?_
    exact h.edit (List.mem_append_right _ (.head _)) hedit

/-- The assets that a call of the snapshot can reach: those its keys are mapped to
and those of its observations. -/
def Reaches (s : SnapshotEnvelope) (st : State) (id : String) : Prop :=
  (∃ external, st.externalToAsset.find (scope s ++ external) = some id) ∨
    ∃ o ∈ s.assets, id = "asset-" ++ safe o.externalID

structure Within (s : SnapshotEnvelope) (st st' : State) : Prop where
  reaches : ∀ id, Reaches s st' id → Reaches s st id
  assets : ∀ id, ¬ Reaches s st id → st'.assets.find id = st.assets.find id
  absences : ∀ key, (∀ rest, key ≠ scope s ++ rest) → st'.successfulAbsences.find key = st.successfulAbsences.find key
  relationships : ∀ key, (∀ rest, key ≠ scope s ++ rest) → st'.relationships.find key = st.relationships.find key

theorem Edit.within {s : SnapshotEnvelope} {st st' : State} (h : Edit s st st') : Within s st st' := by
  cases h with
  | change key c => exact ⟨fun _ => id, fun _ _ => rfl, fun _ _ => rfl, fun _ _ => rfl⟩
  | claim c hfind hid hconnector => exact ⟨fun _ => id, fun _ _ => rfl, fun _ _ => rfl, fun _ _ => rfl⟩
  | absences external n =>
    exact ⟨fun _ => id, fun _ _ => rfl, fun key hkey => Dict.find_set_of_ne _ _ (hkey external).symm, fun _ _ => rfl⟩
  | relate rest r hsource htarget =>
    exact ⟨fun _ => id, fun _ _ => rfl, fun _ _ => rfl, fun key hkey => Dict.find_set_of_ne _ _ (hkey rest).symm⟩
  | relationship r hfind hfrom hto =>
    exact ⟨fun _ => id, fun _ _ => rfl, fun _ _ => rfl, fun key hkey => Dict.find_set_of_ne _ _ (hkey _).symm⟩
  | asset a hfind horg =>
    refine ⟨fun _ => id, fun id' hno => Dict.find_set_of_ne _ _ fun he => ?_, fun _ _ => rfl, fun _ _ => rfl⟩
    exact hno (.inl ⟨_, he ▸ hfind⟩)
  | discover a ho hnew horg =>
    refine ⟨fun id' hreach => ?_, fun id' hno => Dict.find_set_of_ne _ _ fun he => ?_, fun _ _ => rfl, fun _ _ => rfl⟩
    · rcases hreach with ⟨external, hfind⟩ | hreach
      · simp only [Dict.find_set] at hfind
        split_ifs at hfind
        · cases hfind
          exact .inr ⟨_, ho, rfl⟩
        · exact .inl ⟨external, hfind⟩
      · exact .inr hreach
    · exact hno (.inr ⟨_, ho, he.symm⟩)

theorem edits_within {s : SnapshotEnvelope} {st st' : State} (h : Edits s st st') : Within s st st' := by
  induction h with
  | refl => exact ⟨fun _ => id, fun _ _ => rfl, fun _ _ => rfl, fun _ _ => rfl⟩
  | tail _ hedit ih =>
    have hstep := hedit.within
    refine ⟨fun id h => ih.reaches id (hstep.reaches id h), fun id hno => ?_, fun key hkey => ?_, fun key hkey => ?_⟩
    · rw [hstep.assets id fun h => hno (ih.reaches id h), ih.assets id hno]
    · rw [hstep.absences key hkey, ih.absences key hkey]
    · rw [hstep.relationships key hkey, ih.relationships key hkey]

theorem Call.within (c : Call) (st : State) : Within c.snapshot st (c.after st) := by
  have hsame : Within c.snapshot st st := edits_within .refl
  have hreconciled := edits_within (c.edits st)
  rcases c.after_cases st with h | h | h <;> rw [h]
  · exact hsame
  · exact ⟨hsame.reaches, hsame.assets, hsame.absences, hsame.relationships⟩
  · exact ⟨hreconciled.reaches, hreconciled.assets, hreconciled.absences, hreconciled.relationships⟩

/-- An existing asset that the call reaches belongs to its organization, and one of
its own external IDs is mapped to it. -/
theorem Separated.reaches (hsep : Separated (calls ++ [c])) {id : String} {a : Asset}
    (ha : (run calls).assets.find id = some a) (hreach : Reaches c.snapshot (run calls) id) :
    a.organizationID = c.snapshot.organizationID ∧
      ∃ external, (run calls).externalToAsset.find (scope c.snapshot ++ external) = some id := by
  have howned := owned_run calls
  have hc : c ∈ calls ++ [c] := List.mem_append_right _ (.head _)
  obtain ⟨c', hc', o', ho', hmap, heq, horg⟩ := howned.assets id a ha
  have hc'' : c' ∈ calls ++ [c] := List.mem_append_left _ hc'
  suffices hscope : c'.SameScope c by
    refine ⟨horg.trans hscope.1, o'.externalID, ?_⟩
    rw [← scope_of_sameScope hscope]
    exact hmap
  rcases hreach with ⟨external, hfind⟩ | ⟨o, ho, hid⟩
  · obtain ⟨c₁, hc₁, o₁, ho₁, hkey, hid₁, -⟩ := howned.externals _ id hfind
    have hc₁' : c₁ ∈ calls ++ [c] := List.mem_append_left _ hc₁
    have hscope₁ : c₁.SameScope c := by
      by_contra hne
      exact scope_append_ne hsep hc hc₁' hne _ _ hkey.symm
    have hscope₂ := hsep.sameScope hc₁' hc'' ho₁ ho' (hid₁.symm.trans heq)
    exact ⟨hscope₂.1.trans hscope₁.1, hscope₂.2.trans hscope₁.2⟩
  · exact hsep.sameScope hc hc'' ho ho' (hid.symm.trans heq)

/-- As long as connectors are separated, a call changes no asset of another
organization, none that its own external IDs were never mapped to, and no counter
or relationship of another connector. -/
theorem separated_isolated (hsep : Separated (calls ++ [c])) : Isolated calls c (run calls) (c.after (run calls)) := by
  have hwithin := c.within (run calls)
  have hc : c ∈ calls ++ [c] := List.mem_append_right _ (.head _)
  have hother : ∀ c' ∈ calls, ¬ c'.SameScope c → ∀ x rest, scope c'.snapshot ++ x ≠ scope c.snapshot ++ rest :=
    fun c' hc' hne x rest => scope_append_ne hsep hc (List.mem_append_left _ hc') hne x rest
  refine ⟨fun id a ha horg => ?_, fun id a ha hnever => ?_, fun c' hc' hne x => ?_, fun c' hc' hne x => ?_⟩
  · rw [hwithin.assets id fun hreach => horg (hsep.reaches ha hreach).1]
    exact ha
  · rw [hwithin.assets id fun hreach => ?_]
    · exact ha
    · obtain ⟨external, hfind⟩ := (hsep.reaches ha hreach).2
      exact hnever ⟨calls, external, List.prefix_refl _, hfind⟩
  · exact hwithin.absences _ (hother c' hc' hne x)
  · exact hwithin.relationships _ (hother c' hc' hne x)

end

def foreignDiscovery : Call :=
  ⟨{ snapshotOf "foreign-1" "docker" [dockerSeen] [] with organizationID := "rival" },
    .succeeded, noPolicy, .ascending, 0⟩

def ownDiscovery : Call :=
  ⟨{ snapshotOf "own-1" "docker" [{ dockerSeen with externalID := "shop" }] [] with organizationID := "rival" },
    .succeeded, noPolicy, .ascending, 0⟩

theorem separated_isolated_own :
    Isolated [dockerCall] ownDiscovery (run [dockerCall]) (ownDiscovery.after (run [dockerCall])) := by
  refine separated_isolated fun c hc c' hc' hne => ?_
  have hcases : ∀ c ∈ [dockerCall] ++ [ownDiscovery], c = dockerCall ∨ c = ownDiscovery := by simp
  rcases hcases c hc with rfl | rfl <;> rcases hcases c' hc' with rfl | rfl
  · exact absurd ⟨rfl, rfl⟩ hne
  · exact ⟨by decide +kernel, by decide +kernel⟩
  · exact ⟨by decide +kernel, by decide +kernel⟩
  · exact absurd ⟨rfl, rfl⟩ hne

/-- The second organization takes the asset of the first. -/
theorem foreign_asset_taken : ((run [dockerCall]).assets.find "asset-app").map Asset.organizationID = some "org" ∧
      foreignDiscovery.snapshot.organizationID = "rival" ∧
      ((foreignDiscovery.after (run [dockerCall])).assets.find "asset-app").map Asset.organizationID =
        some "rival" := by
  refine ⟨by decide +kernel, rfl, by decide +kernel⟩

end Infragraph.Memory
