import Infragraph.Proofs.Inventory

/-! The active claims of a connector on an asset after a snapshot. They are those
of the observation, and those active before under a key that the observation does
not carry: only keys that are reported again are superseded. -/

namespace Infragraph

open Relational ReadCommitted Prog

structure ClaimRow.Standing (c : ClaimRow) (org connector a : String) : Prop where
  organizationID : c.organizationID = org
  connectorID : c.connectorID = connector
  assetID : c.assetID = a
  active : c.active = true

/-- The active claims of the snapshot's connector on the asset are those of the
observation, made by this snapshot. -/
structure Db.ClaimsFollow (db : Db) (s : SnapshotEnvelope) (o : Observation) (a : String) : Prop where
  pairs : ∀ key value, (∃ c ∈ db.claims, c.Standing s.organizationID s.connectorID a ∧
    c.attributeKey = key ∧ c.value = value) ↔ (key, value) ∈ o.attributes.entries
  latest : ∀ c ∈ db.claims, c.Standing s.organizationID s.connectorID a → c.snapshotID = s.snapshotID

section

variable [Hashes] {db db' d d' : Db} {s : SnapshotEnvelope} {o : Observation} {t : Time} {a b : String}
  {c : ClaimRow}

theorem Recorded.standing_other (h : Recorded s o t d d' b) (hab : b ≠ a)
    (hc : c.Standing s.organizationID s.connectorID a) : c ∈ d'.claims ↔ c ∈ d.claims := by
  rw [h.claims]
  constructor
  · rintro (⟨e, -, rfl⟩ | ⟨c₀, hc₀, rfl⟩)
    · exact absurd hc.assetID hab
    · rw [(superseded_active hc.active).1]
      exact hc₀
  · intro hmem
    refine .inr ⟨c, hmem, if_neg fun hn => hab ?_⟩
    exact hn.2.1.symm.trans hc.assetID

theorem Recorded.standing_self (h : Recorded s o t d d' a) (hc : c.Standing s.organizationID s.connectorID a) :
    c ∈ d'.claims ↔
      (∃ e ∈ o.attributes.entries,
        c = claimRow s o a t (d.authority s.organizationID s.connectorID o.assetType e.1) e) ∨
      c ∈ d.claims ∧ c.attributeKey ∉ o.attributes.entries.map Prod.fst := by
  rw [h.claims]
  refine or_congr_right ⟨?_, ?_⟩
  · rintro ⟨c₀, hc₀, rfl⟩
    obtain ⟨heq, -, hkey⟩ := superseded_active hc.active
    rw [heq] at hc ⊢
    exact ⟨hc₀, fun hk => hkey ⟨hc.organizationID, hc.assetID, hc.connectorID, hk⟩⟩
  · rintro ⟨hmem, hkey⟩
    exact ⟨c, hmem, if_neg fun hn => hkey hn.2.2.2.2⟩

section

variable {order : MapOrder} {now : Time} {l : List Observation} {st st' : Progress}

section

variable (h : (l.foldlM (observe order s now) st).run d = .ok (st', d'))
include h

theorem run_observe_kept : Kept d d' := by
  refine run_foldlM (fun _ _ x => Kept d x) h (Kept.refl d) ?_
  intro pre o post st₁ x st₂ x' _ hx hrun
  obtain ⟨-, -, b, -, -, hrec, -⟩ := run_observe hrun
  exact hx.trans hrec.kept

/-- The external IDs of a snapshot are distinct, or the call fails. -/
theorem run_observe_seen : (∀ o ∈ l, o.externalID ∉ st.seenAssets ∧ o.externalID ∈ st'.seenAssets) ∧
      ∀ e ∈ st.seenAssets, e ∈ st'.seenAssets := by
  induction l generalizing st d with
  | nil =>
    cases h
    exact ⟨by simp, fun _ he => he⟩
  | cons o l ih =>
    obtain ⟨st₁, d₁, h₁, h₂⟩ := run_bind_ok.mp h
    obtain ⟨hfresh, hseen, -⟩ := run_observe h₁
    obtain ⟨hl, hkeep⟩ := ih h₂
    rw [hseen] at hl hkeep
    refine ⟨fun o' ho' => ?_, fun e he => hkeep e (.tail _ he)⟩
    rcases List.mem_cons.mp ho' with rfl | ho'
    · exact ⟨hfresh, hkeep _ (.head _)⟩
    · exact ⟨fun hm => (hl o' ho').1 (.tail _ hm), (hl o' ho').2⟩

/-- The loop around one observation: the others have other external IDs. -/
theorem run_observe_split (ho : o ∈ l) :
    ∃ (pre post : List Observation) (st₁ st₂ : Progress) (d₁ d₂ : Db),
      (∀ o' ∈ pre, o'.externalID ≠ o.externalID ∧ o' ∈ l) ∧
      (∀ o' ∈ post, o'.externalID ≠ o.externalID ∧ o' ∈ l) ∧
      (pre.foldlM (observe order s now) st).run d = .ok (st₁, d₁) ∧
      (observe order s now st₁ o).run d₁ = .ok (st₂, d₂) ∧
      (post.foldlM (observe order s now) st₂).run d₂ = .ok (st', d') := by
  obtain ⟨pre, post, rfl⟩ := List.append_of_mem ho
  rw [List.foldlM_append] at h
  obtain ⟨st₁, d₁, hpre, hrest⟩ := run_bind_ok.mp h
  obtain ⟨st₂, d₂, hself, hpost⟩ := run_bind_ok.mp hrest
  obtain ⟨hfresh, hseen, -⟩ := run_observe hself
  refine ⟨pre, post, st₁, st₂, d₁, d₂, fun o' ho' => ⟨fun he => ?_, by simp [ho']⟩,
    fun o' ho' => ⟨fun he => ?_, by simp [ho']⟩, hpre, hself, hpost⟩
  · exact hfresh (he ▸ ((run_observe_seen hpre).1 o' ho').2)
  · have hunseen := ((run_observe_seen hpost).1 o' ho').1
    rw [hseen, he] at hunseen
    exact hunseen (.head _)

/-- Observations of other assets leave the claims on an asset alone. -/
theorem run_observe_standing (hl : ∀ o ∈ l, d'.assetOf s.organizationID s.connectorID o.externalID ≠ some a)
    (hc : c.Standing s.organizationID s.connectorID a) : c ∈ d'.claims ↔ c ∈ d.claims := by
  induction l generalizing st d with
  | nil =>
    cases h
    exact Iff.rfl
  | cons o l ih =>
    obtain ⟨st₁, d₁, h₁, h₂⟩ := run_bind_ok.mp h
    obtain ⟨-, -, b, -, -, hrec, -⟩ := run_observe h₁
    rw [ih h₂ fun o' ho' => hl o' (List.mem_cons_of_mem o ho')]
    apply hrec.standing_other _ hc
    -- the binding made here is kept to the end of the loop
    intro hab
    obtain ⟨i, hi, hkey, hia, -⟩ := hrec.identity
    have hget : d₁.sourceIdentities.get (s.organizationID, s.connectorID, o.externalID) = some i := by
      rw [hi, ← hkey]
      exact Table.get_put_self _ _
    obtain ⟨j, hj, hja⟩ := (run_observe_kept h₂).identity _ i hget
    apply hl o (.head _)
    rw [Db.assetOf, hj, Option.map_some, hja, hia, hab]

end

end

/-- The loop over the assets that lost an identity spares a connector that still
has one on the asset. -/
theorem run_missing_standing {l : List String} {sum sum' : Summary}
    (h : (l.foldlM (missingAsset s) sum).run d = .ok (sum', d'))
    (hact : d.connectorActive s.organizationID s.connectorID a = true)
    (hc : c.Standing s.organizationID s.connectorID a) : c ∈ d'.claims ↔ c ∈ d.claims := by
  have hrun := run_foldlM (fun _ _ x => x.sourceIdentities = d.sourceIdentities ∧ (c ∈ x.claims ↔ c ∈ d.claims))
    h ⟨rfl, Iff.rfl⟩ ?_
  · exact hrun.2
  intro pre b post sum₁ x sum₂ x' _ hx hrun
  have hdrop := run_missingAsset hrun
  have hids : x'.sourceIdentities = x.sourceIdentities := by rw [hdrop.frame]
  refine ⟨hids.trans hx.1, Iff.trans ?_ hx.2⟩
  rw [hdrop.mem_claims]
  constructor
  · rintro ⟨c₀, hc₀, rfl⟩
    rw [(lapsed_active hc.active).1]
    exact hc₀
  · intro hmem
    refine ⟨c, hmem, if_neg fun hn => ?_⟩
    have hb : b = a := hn.1.2.2.1.symm.trans hc.assetID
    have hsame : x.connectorActive s.organizationID s.connectorID b = true := by
      rw [hb, ← hact]
      unfold Db.connectorActive
      rw [hx.1]
    rw [hsame] at hn
    cases hn.2

theorem Applied.standing {call : ApplyCall} {st : Progress} {d₁ d₂ d₃ : Db} {sum₂ sum₃ : Summary}
    (h : Applied call db st d₁ d₂ d₃ sum₂ sum₃ db') (ho : o ∈ call.snapshot.assets)
    (ha : d₁.assetOf call.snapshot.organizationID call.snapshot.connectorID o.externalID = some a)
    (hc : c.Standing call.snapshot.organizationID call.snapshot.connectorID a) : c ∈ db'.claims ↔ c ∈ d₁.claims := by
  obtain ⟨missing, e₁, sum₁, e₂, removed, e₃, h1, h2, h3, h4⟩ := run_markMissing h.sweep
  have hd₂ := run_relationships_frame h.relate
  have hload := run_assets h.observe rfl
  have hclaims : db'.claims = e₂.claims := by rw [h.frame, run_removed_frame h4, h3.frame]
  have he₁ : e₁.claims = d₁.claims := by rw [h1.frame, hd₂]
  rw [hclaims, ← he₁]
  apply run_missing_standing h2 _ hc
  -- the identity was seen in this snapshot, so it is ACTIVE with no absences
  obtain ⟨i, hi, hst, habs⟩ := hload.seen o ho
  have hia : i.assetID = a := by
    rw [Db.assetOf, hi] at ha
    exact Option.some.inj ha
  have hkey : i.key = (call.snapshot.organizationID, call.snapshot.connectorID, o.externalID) :=
    Table.key_of_get hi
  have hmine : i.organizationID = call.snapshot.organizationID ∧ i.connectorID = call.snapshot.connectorID :=
    ⟨congrArg Prod.fst hkey, congrArg (·.2.1) hkey⟩
  have hext : i.externalID = o.externalID := congrArg (·.2.2) hkey
  have hobs : d₂.observed call.snapshot.snapshotID i.externalID = true := by
    rw [hd₂, hext]
    have hrow := (hload.observations _).mpr (.inr ⟨o, ho, rfl⟩)
    simp only [Db.observed, List.any_eq_true, decide_eq_true_eq]
    exact ⟨_, hrow, rfl, rfl⟩
  have hmem : i ∈ d₂.sourceIdentities := by
    rw [hd₂]
    exact Table.mem_of_get hi
  have hswept := h1.mem.mpr ⟨i, hmem, rfl⟩
  rw [connectorActive_iff]
  have hkey' : (i.swept call.snapshot.organizationID call.snapshot.connectorID
      (d₂.observed call.snapshot.snapshotID) (effectiveThreshold call.missingThreshold)).key = i.key :=
    SourceIdentityRow.swept_key
  refine ⟨_, hswept, ?_, ?_, ?_, ?_⟩
  · exact (congrArg Prod.fst hkey').trans hmine.1
  · exact (congrArg (·.2.1) hkey').trans hmine.2
  · rw [SourceIdentityRow.swept_assetID, hia]
  · rw [SourceIdentityRow.swept_active hmine, hobs, habs]
    exact ⟨hst, effectiveThreshold_pos _⟩

section

variable {call : ApplyCall} {sum : Summary} (hrun : call.run db = .ok (sum, db')) (ho : o ∈ call.snapshot.assets)
  (ha : db'.assetOf call.snapshot.organizationID call.snapshot.connectorID o.externalID = some a)
  (hone : ∀ i ∈ db'.sourceIdentities, i.organizationID = call.snapshot.organizationID →
    i.connectorID = call.snapshot.connectorID → i.assetID = a → i.externalID = o.externalID)
include hrun ho ha hone

/-- The active claims of the connector on an observed asset that no other of its
external IDs is bound to. -/
theorem ApplyCall.standing : ∃ authority : String → String, ∃ t, ∀ c : ClaimRow,
      c.Standing call.snapshot.organizationID call.snapshot.connectorID a →
      (c ∈ db'.claims ↔
        (∃ e ∈ o.attributes.entries, c = claimRow call.snapshot o a t (authority e.1) e) ∨
        c ∈ db.claims ∧ c.attributeKey ∉ o.attributes.entries.map Prod.fst) := by
  obtain ⟨st, d₁, d₂, d₃, sum₂, happ⟩ := ApplyCall.run_ok hrun
  obtain ⟨pre, post, st₁, st₂, x₁, x₂, hpre', hpost', hpre, hself, hpost⟩ := run_observe_split happ.observe ho
  obtain ⟨-, -, b, -, -, hrec, -⟩ := run_observe hself
  have hkept : Kept x₂ db' := (run_observe_kept hpost).trans happ.kept.2
  -- the observation is recorded under the asset it is bound to at the end
  obtain ⟨i, hi, hkey, hib, -⟩ := hrec.identity
  have hget : x₂.sourceIdentities.get
      (call.snapshot.organizationID, call.snapshot.connectorID, o.externalID) = some i := by
    rw [hi, ← hkey]
    exact Table.get_put_self _ _
  obtain ⟨j, hj, hji⟩ := hkept.identity _ i hget
  have hba : b = a := by
    rw [Db.assetOf, hj] at ha
    rw [← hib, ← hji]
    exact Option.some.inj ha
  subst hba
  -- no other observation of the snapshot is bound to it
  have hother : ∀ o' : Observation, o'.externalID ≠ o.externalID → ∀ x, Kept x db' →
      x.assetOf call.snapshot.organizationID call.snapshot.connectorID o'.externalID ≠ some b := by
    intro o' hne x hx hbound
    obtain ⟨k, hk, hkb⟩ := Option.map_eq_some_iff.mp hbound
    obtain ⟨k', hk', hkk⟩ := hx.identity _ k hk
    have hkey' : k'.key = _ := Table.key_of_get hk'
    apply hne
    rw [← hone k' (Table.mem_of_get hk') (congrArg Prod.fst hkey') (congrArg (·.2.1) hkey') (hkk.trans hkb)]
    exact (congrArg (·.2.2) hkey').symm
  have hbound : d₁.assetOf call.snapshot.organizationID call.snapshot.connectorID o.externalID = some b := by
    obtain ⟨k, hk, hki⟩ := (run_observe_kept hpost).identity _ i hget
    rw [Db.assetOf, hk, Option.map_some, hki, hib]
  refine ⟨fun key => x₁.authority call.snapshot.organizationID call.snapshot.connectorID o.assetType key,
    orNow o.observedAt (orNow call.snapshot.completedAt call.clock), fun c hc => ?_⟩
  rw [happ.standing ho hbound hc,
    run_observe_standing hpost (fun o' ho' => hother o' (hpost' o' ho').1 d₁ happ.kept.2) hc,
    hrec.standing_self hc,
    run_observe_standing hpre (fun o' ho' => hother o' (hpre' o' ho').1 x₁ (hrec.kept.trans hkept)) hc]

/-- After a call the active claims of its connector on an observed asset are those
of the observation exactly if, before it, none was active under another key. -/
theorem claims_follow_observation : db'.ClaimsFollow call.snapshot o a ↔
      ∀ c ∈ db.claims, c.Standing call.snapshot.organizationID call.snapshot.connectorID a →
        c.attributeKey ∈ o.attributes.entries.map Prod.fst := by
  obtain ⟨authority, t, hstanding⟩ := ApplyCall.standing hrun ho ha hone
  constructor
  · intro hfollow c hc hst
    by_contra hkey
    -- the claim is still active, but not one of the observation
    have hmem := (hstanding c hst).mpr (.inr ⟨hc, hkey⟩)
    have hpair := (hfollow.pairs c.attributeKey c.value).mp ⟨c, hmem, hst, rfl, rfl⟩
    exact hkey (List.mem_map_of_mem hpair)
  · intro hcond
    have honly : ∀ c ∈ db'.claims, c.Standing call.snapshot.organizationID call.snapshot.connectorID a →
        ∃ e ∈ o.attributes.entries, c = claimRow call.snapshot o a t (authority e.1) e := by
      intro c hc hst
      rcases (hstanding c hst).mp hc with hnew | ⟨hold, hkey⟩
      · exact hnew
      · exact absurd (hcond c hold hst) hkey
    refine ⟨fun key value => ⟨?_, fun he => ?_⟩, fun c hc hst => ?_⟩
    · rintro ⟨c, hc, hst, rfl, rfl⟩
      obtain ⟨e, he, rfl⟩ := honly c hc hst
      exact he
    · have hst : (claimRow call.snapshot o a t (authority key) (key, value)).Standing
          call.snapshot.organizationID call.snapshot.connectorID a := ⟨rfl, rfl, rfl, rfl⟩
      exact ⟨_, (hstanding _ hst).mpr (.inl ⟨(key, value), he, rfl⟩), hst, rfl, rfl⟩
    · obtain ⟨e, -, rfl⟩ := honly c hc hst
      rfl

end

end

def nameOnly : Observation :=
  { appSeen "app" "" with attributes := goMap [("name", .str "web")] (by simp) }

def namedCall : ApplyCall := callOf (snapshotOf "named" "one" [nameOnly] [])

/-- The environment of the first snapshot is still claimed after the second, which
does not report one. -/
theorem dropped_key_stands :
    ∃ db a, @Runs toy emptyDb [firstCall, namedCall] db ∧ db.assetOf "org" "one" "app" = some a ∧
      (∀ i ∈ db.sourceIdentities, i.assetID = a → i.externalID = "app") ∧
      (∃ c ∈ db.claims, c.Standing "org" "one" a ∧ c.attributeKey = "environment" ∧ c.snapshotID = "first") ∧
      "environment" ∉ nameOnly.attributes.entries.map Prod.fst := by
  refine ⟨replayed [firstCall, namedCall], @stableID toy "asset" ["org", "one", "app"],
    runs_replayed (by decide +kernel), by decide +kernel, ?_, ?_, by decide⟩
  · have h : ((replayed [firstCall, namedCall]).sourceIdentities.rows.all fun i =>
        i.assetID = @stableID toy "asset" ["org", "one", "app"] → i.externalID = "app") = true := by decide +kernel
    intro i hi
    exact of_decide_eq_true (List.all_eq_true.mp h i hi)
  · have h : ((replayed [firstCall, namedCall]).claims.rows.any fun c =>
        (c.organizationID = "org" ∧ c.connectorID = "one" ∧
          c.assetID = @stableID toy "asset" ["org", "one", "app"] ∧ c.active = true) ∧
        c.attributeKey = "environment" ∧ c.snapshotID = "first") = true := by decide +kernel
    obtain ⟨c, hc, hcond⟩ := List.any_eq_true.mp h
    obtain ⟨⟨ho, hn, ha, hact⟩, hkey, hsnap⟩ := of_decide_eq_true hcond
    exact ⟨c, hc, ⟨ho, hn, ha, hact⟩, hkey, hsnap⟩

def stagingCall : ApplyCall := callOf (snapshotOf "second" "one" [appSeen "app" "staging"] [])

/-- The claims of a second snapshot take the place of those of the first. -/
theorem claims_follow_second :
    ∃ db a, @Runs toy emptyDb [firstCall, stagingCall] db ∧ db.assetOf "org" "one" "app" = some a ∧
      db.ClaimsFollow stagingCall.snapshot (appSeen "app" "staging") a := by
  have hok : succeeds stagingCall (replayed [firstCall]) (fun out =>
      decide (out.2.assetOf "org" "one" "app" = some (@stableID toy "asset" ["org", "one", "app"]) ∧
        ∀ i ∈ out.2.sourceIdentities, i.assetID = @stableID toy "asset" ["org", "one", "app"] →
          i.externalID = "app")) = true := by decide +kernel
  have hkeys : ∀ c ∈ (replayed [firstCall]).claims,
      c.attributeKey ∈ (appSeen "app" "staging").attributes.entries.map Prod.fst := by decide +kernel
  obtain ⟨sum, db', hrun, hout⟩ := run_of_succeeds hok
  obtain ⟨ha, hone⟩ := of_decide_eq_true hout
  refine ⟨db', _, @Runs.succeed toy _ [firstCall] _ _ _ _ (runs_replayed (by decide +kernel)) hrun, ha, ?_⟩
  exact (@claims_follow_observation toy _ _ _ _ _ _ hrun (.head _) ha fun i hi _ _ => hone i hi).mpr
    fun c hc _ => hkeys c hc

end Infragraph
