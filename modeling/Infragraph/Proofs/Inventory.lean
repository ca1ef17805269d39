import Infragraph.Sanity.Apply

/-! The inventory invariant: statuses follow from the identities and claims of
an asset. It is kept by every observation; the sweep breaks it for the assets
that lose an identity and its loop restores it for each of them. -/

namespace Infragraph

open Relational ReadCommitted Prog

variable {db db' : Db}
variable {org connector k : String} {l : List String} {sum : Summary}

theorem anyActive_iff {a : String} :
    db.anyActive a = true ↔ ∃ i ∈ db.sourceIdentities, i.assetID = a ∧ i.status = .active := by
  simp [Db.anyActive, Table.mem_rows]

theorem connectorActive_iff {a : String} :
    db.connectorActive org connector a = true ↔ ∃ i ∈ db.sourceIdentities, i.organizationID = org ∧
      i.connectorID = connector ∧ i.assetID = a ∧ i.status = .active := by
  simp [Db.connectorActive, Table.mem_rows]

def ClaimRow.On (c : ClaimRow) (org a : String) : Prop :=
  c.organizationID = org ∧ c.assetID = a ∧ c.active = true

theorem conflict_iff {a : String} :
    db.conflict org a = true ↔ ∃ c ∈ db.claims, ∃ c' ∈ db.claims, c.On org a ∧ c'.On org a ∧
      c.attributeKey = c'.attributeKey ∧ c.value.text ≠ c'.value.text := by
  simp only [Db.conflict, Db.activeClaims, List.any_eq_true, List.mem_filter, decide_eq_true_eq,
    Table.mem_rows, ClaimRow.On]
  constructor
  · rintro ⟨c, ⟨hc, ho⟩, c', ⟨hc', ho'⟩, h⟩
    exact ⟨c, hc, c', hc', ho, ho', h⟩
  · rintro ⟨c, hc, c', hc', ho, ho', h⟩
    exact ⟨c, ⟨hc, ho⟩, c', ⟨hc', ho'⟩, h⟩

theorem conflict_congr {a : String}
    (h : ∀ c : ClaimRow, c.On org a → (c ∈ db.claims ↔ c ∈ db'.claims)) : db.conflict org a = db'.conflict org a := by
  rw [Bool.eq_iff_iff, conflict_iff, conflict_iff]
  constructor
  · rintro ⟨c, hc, c', hc', ho, ho', hk⟩
    exact ⟨c, (h c ho).mp hc, c', (h c' ho').mp hc', ho, ho', hk⟩
  · rintro ⟨c, hc, c', hc', ho, ho', hk⟩
    exact ⟨c, (h c ho).mpr hc, c', (h c' ho').mpr hc', ho, ho', hk⟩

/-- The status of an asset row is what its identities and claims say. -/
structure Db.Settled (db : Db) (r : AssetRow) : Prop where
  missing : r.status = .missing ↔ db.anyActive r.id = false
  present : r.status ≠ .missing →
    r.status = if db.conflict r.organizationID r.id then .conflicting else .active

theorem Db.Settled.congr {r : AssetRow} (h : db.Settled r) (ha : db'.anyActive r.id = db.anyActive r.id)
    (hc : db'.conflict r.organizationID r.id = db.conflict r.organizationID r.id) : db'.Settled r :=
  ⟨by rw [ha]; exact h.missing, by rw [hc]; exact h.present⟩

def Db.SingleClaims (db : Db) : Prop :=
  ∀ c ∈ db.claims, ∀ c' ∈ db.claims, c.active = true → c'.active = true → c.assetID = c'.assetID →
    c.connectorID = c'.connectorID → c.attributeKey = c'.attributeKey → c = c'

structure Inventory (db : Db) : Prop extends Wf db where
  settled : ∀ r ∈ db.assets, db.Settled r
  single : db.SingleClaims
  backed : ∀ c ∈ db.claims, c.active = true →
    db.connectorActive c.organizationID c.connectorID c.assetID = true

theorem Inventory.congr (h : Inventory db) (ha : db'.assets = db.assets)
    (hi : db'.sourceIdentities = db.sourceIdentities) (hx : db'.strongIdentities = db.strongIdentities)
    (hc : db'.claims = db.claims) : Inventory db' := by
  have hany : ∀ a, db'.anyActive a = db.anyActive a := fun a => by unfold Db.anyActive; rw [hi]
  have hcon : ∀ o a, db'.conflict o a = db.conflict o a :=
    fun o a => conflict_congr fun c _ => by rw [hc]
  have hconn : ∀ o n a, db'.connectorActive o n a = db.connectorActive o n a :=
    fun o n a => by unfold Db.connectorActive; rw [hi]
  refine ⟨⟨?_, ?_, ?_, ?_⟩, fun r hr => ?_, ?_, ?_⟩
  · rw [ha]; exact h.assetID
  · rw [hi, ha]; exact h.identity
  · rw [hx, ha]; exact h.strong
  · rw [hc, ha]; exact h.claim
  · rw [ha] at hr
    exact (h.settled r hr).congr (hany _) (hcon _ _)
  · unfold Db.SingleClaims
    rw [hc]
    exact h.single
  · intro c hcm hact
    rw [hc] at hcm
    rw [hconn]
    exact h.backed c hcm hact

theorem inventory_of_empty (h : db.InventoryEmpty) : Inventory db := by
  refine ⟨⟨?_, ?_, ?_, ?_⟩, ?_, ?_, ?_⟩
  · simp [h.assets]
  · simp [h.sourceIdentities]
  · simp [h.strongIdentities]
  · simp [h.claims]
  · simp [h.assets]
  · simp [Db.SingleClaims, h.claims]
  · simp [h.claims]

theorem superseded_eq {a : String} {keys : List String} (c : ClaimRow) : c.superseded org a connector keys =
      { c with active := (c.superseded org a connector keys).active } := by
  unfold ClaimRow.superseded
  split_ifs <;> rfl

theorem superseded_active {a : String} {keys : List String} {c : ClaimRow}
    (h : (c.superseded org a connector keys).active = true) :
    c.superseded org a connector keys = c ∧ c.active = true ∧
      ¬ (c.organizationID = org ∧ c.assetID = a ∧ c.connectorID = connector ∧ c.attributeKey ∈ keys) := by
  unfold ClaimRow.superseded at h ⊢
  split_ifs at h ⊢ with hc
  exact ⟨rfl, h, fun hn => hc ⟨hn.1, hn.2.1, hn.2.2.1, h, hn.2.2.2⟩⟩

section

variable [Hashes] {s : SnapshotEnvelope} {o : Observation} {t : Time} {a : String} {created : Bool}

theorem Observed.ref (h : Observed s o t db db' a created)
    (hk : ∃ r, db.assets.get k = some r ∧ r.organizationID = org) :
    ∃ r, db'.assets.get k = some r ∧ r.organizationID = org := by
  by_cases hka : k = a
  · subst hka
    obtain ⟨r, hr, rfl⟩ := hk
    obtain ⟨r', hr', horg, -⟩ := h.asset
    exact ⟨r', hr', horg.trans (h.org r hr).symm⟩
  · rw [h.others k hka]
    exact hk

theorem Observed.wf (h : Observed s o t db db' a created) (hwf : Wf db) : Wf db' := by
  obtain ⟨r, hr, horg, -⟩ := h.asset
  refine ⟨fun x hx => ?_, fun i hi => ?_, fun x hx => ?_, fun c hc => ?_⟩
  · rw [Table.mem_iff_get] at hx
    by_cases hxa : x.id = a
    · rw [hxa]
      cases hg : db.assets.get a with
      | none => exact h.nonempty hg
      | some y =>
        have hy : y.id = a := Table.key_of_get hg
        exact hy ▸ hwf.assetID y (Table.mem_of_get hg)
    · rw [h.others _ hxa] at hx
      exact hwf.assetID x (Table.mem_of_get hx)
  · obtain ⟨j, hj, hkey, hja, -⟩ := h.identity
    rw [hj, Table.mem_put] at hi
    rcases hi with rfl | ⟨hi, -⟩
    · have hio : i.organizationID = s.organizationID := congrArg Prod.fst hkey
      exact ⟨r, by rw [hja]; exact hr, horg.trans hio.symm⟩
    · exact h.ref (hwf.identity i hi)
  · rcases h.bound.origin x.key x (Table.mem_iff_get.mp hx) with ⟨y, hy, hya⟩ | ⟨hk, hxa⟩
    · have hyo : y.organizationID = x.organizationID := congrArg Prod.fst (Table.key_of_get hy)
      rw [← hya, ← hyo]
      exact h.ref (hwf.strong y (Table.mem_of_get hy))
    · have hxo : x.organizationID = s.organizationID := hk
      exact ⟨r, by rw [hxa]; exact hr, horg.trans hxo.symm⟩
  · rcases (h.claims c).mp hc with ⟨e, -, rfl⟩ | ⟨c₀, hc₀, rfl⟩
    · exact ⟨r, hr, horg⟩
    · rw [superseded_eq]
      exact h.ref (hwf.claim c₀ hc₀)

theorem Recorded.anyActive (h : Recorded s o t db db' a) (hk : k ≠ a) : db'.anyActive k = db.anyActive k := by
  obtain ⟨j, hj, hkey, hja, -⟩ := h.identity
  rw [Bool.eq_iff_iff, anyActive_iff, anyActive_iff, hj]
  constructor
  · rintro ⟨i, hi, rfl, hst⟩
    rcases Table.mem_put.mp hi with rfl | ⟨hi, -⟩
    · exact absurd hja hk
    · exact ⟨i, hi, rfl, hst⟩
  · rintro ⟨i, hi, rfl, hst⟩
    refine ⟨i, Table.mem_put.mpr (.inr ⟨hi, fun he => hk (h.known i ?_)⟩), rfl, hst⟩
    rw [← hkey, ← he]
    exact Table.mem_iff_get.mp hi

theorem Recorded.conflict (h : Recorded s o t db db' a) (hk : k ≠ a) : db'.conflict org k = db.conflict org k := by
  refine conflict_congr fun c hon => ?_
  rw [h.claims]
  constructor
  · rintro (⟨e, -, rfl⟩ | ⟨c₀, hc₀, rfl⟩)
    · exact absurd hon.2.1.symm hk
    · rw [(superseded_active hon.2.2).1]
      exact hc₀
  · intro hc
    refine .inr ⟨c, hc, if_neg fun hn => hk ?_⟩
    rw [← hon.2.1, hn.2.1]

theorem Observed.inventory (h : Observed s o t db db' a created) (hinv : Inventory db) : Inventory db' := by
  obtain ⟨r, hr, horg, hst⟩ := h.asset
  obtain ⟨j, hj, hkey, hja, hjst, -⟩ := h.identity
  have hjorg : j.organizationID = s.organizationID := congrArg Prod.fst hkey
  have hjconn : j.connectorID = s.connectorID := congrArg (·.2.1) hkey
  have hjmem : j ∈ db'.sourceIdentities := by
    rw [hj]
    exact Table.mem_put.mpr (.inl rfl)
  -- a claim on the asset is a claim of the organization
  have hown : ∀ c ∈ db.claims, c.assetID = a → c.organizationID = s.organizationID := by
    rintro c hc rfl
    obtain ⟨r₀, hr₀, ho⟩ := hinv.claim c hc
    exact ho.symm.trans (h.org r₀ hr₀)
  refine ⟨h.wf hinv.toWf, fun x hx => ?_, ?_, fun c hc hact => ?_⟩
  · by_cases hxa : x.id = a
    · have hxr : x = r := by
        rw [Table.mem_iff_get, hxa, hr] at hx
        exact (Option.some.inj hx).symm
      subst hxr
      have hany : db'.anyActive x.id = true := anyActive_iff.mpr ⟨j, hjmem, hja.trans hxa.symm, hjst⟩
      refine ⟨?_, fun _ => ?_⟩
      · rw [hany, hst]
        split_ifs <;> simp
      · rw [hst, horg, hxa]
    · rw [Table.mem_iff_get, h.others _ hxa] at hx
      exact (hinv.settled x (Table.mem_of_get hx)).congr (h.anyActive hxa) (h.conflict hxa)
  · -- a new claim supersedes the one the connector made before under its key
    have hnew : ∀ c₀ ∈ db.claims, ∀ e ∈ o.attributes.entries, c₀.active = true →
        ¬ (c₀.organizationID = s.organizationID ∧ c₀.assetID = a ∧ c₀.connectorID = s.connectorID ∧
          c₀.attributeKey ∈ o.attributes.entries.map Prod.fst) →
        a = c₀.assetID → s.connectorID = c₀.connectorID → e.1 ≠ c₀.attributeKey := by
      intro c₀ hc₀ e he _ hns ha hc hk
      exact hns ⟨hown c₀ hc₀ ha.symm, ha.symm, hc.symm, List.mem_map.mpr ⟨e, he, hk⟩⟩
    intro c hc c' hc' hact hact' ha hconn hattr
    rcases (h.claims c).mp hc with ⟨e, he, rfl⟩ | ⟨c₀, hc₀, rfl⟩ <;>
      rcases (h.claims c').mp hc' with ⟨e', he', rfl⟩ | ⟨c₁, hc₁, rfl⟩
    · have : e = e' := List.inj_on_of_nodup_map o.attributes.nodup he he' hattr
      rw [this]
    · obtain ⟨heq, hact₁, hns⟩ := superseded_active hact'
      rw [heq] at ha hconn hattr
      exact absurd hattr (hnew c₁ hc₁ e he hact₁ hns ha hconn)
    · obtain ⟨heq, hact₀, hns⟩ := superseded_active hact
      rw [heq] at ha hconn hattr
      exact absurd hattr.symm (hnew c₀ hc₀ e' he' hact₀ hns ha.symm hconn.symm)
    · obtain ⟨heq, hact₀, -⟩ := superseded_active hact
      obtain ⟨heq', hact₁, -⟩ := superseded_active hact'
      rw [heq, heq'] at ha hconn hattr ⊢
      exact hinv.single c₀ hc₀ c₁ hc₁ hact₀ hact₁ ha hconn hattr
  · rw [connectorActive_iff]
    rcases (h.claims c).mp hc with ⟨e, he, rfl⟩ | ⟨c₀, hc₀, rfl⟩
    · exact ⟨j, hjmem, hjorg, hjconn, hja, hjst⟩
    · obtain ⟨heq, hact₀, -⟩ := superseded_active hact
      rw [heq]
      obtain ⟨i, hi, ho, hn, ha, hist⟩ := connectorActive_iff.mp (hinv.backed c₀ hc₀ hact₀)
      by_cases hik : i.key = j.key
      · -- the backing identity is the one just observed
        have hia : i.assetID = a := h.known i (by rw [← hkey, ← hik]; exact Table.mem_iff_get.mp hi)
        refine ⟨j, hjmem, ?_, ?_, hja.trans (hia.symm.trans ha), hjst⟩
        · exact (congrArg Prod.fst hik).symm.trans ho
        · exact (congrArg (·.2.1) hik).symm.trans hn
      · exact ⟨i, by rw [hj]; exact Table.mem_put.mpr (.inr ⟨hi, hik⟩), ho, hn, ha, hist⟩

end

theorem lapsed_eq {a : String} {active : Bool} (c : ClaimRow) :
    c.lapsed org connector a active = { c with active := (c.lapsed org connector a active).active } := by
  unfold ClaimRow.lapsed
  split_ifs <;> rfl

theorem lapsed_active {a : String} {active : Bool} {c : ClaimRow}
    (h : (c.lapsed org connector a active).active = true) : c.lapsed org connector a active = c ∧ c.active = true ∧
      (c.organizationID = org → c.connectorID = connector → c.assetID = a → active = true) := by
  unfold ClaimRow.lapsed at h ⊢
  split_ifs at h ⊢ with hc
  refine ⟨rfl, h, fun ho hn ha => ?_⟩
  by_contra hact
  exact hc ⟨⟨ho, hn, ha, h⟩, by simpa using hact⟩

/-- Inside the loop over the assets `l`: those in `pre` are settled again. -/
structure Sweeping (org connector : String) (l pre : List String) (db : Db) : Prop where
  wf : Wf db
  single : db.SingleClaims
  owned : ∀ a ∈ l, ∀ r, db.assets.get a = some r → r.organizationID = org
  settled : ∀ r ∈ db.assets, (r.id ∈ l → r.id ∈ pre) → db.Settled r
  backed : ∀ c ∈ db.claims, c.active = true →
    db.connectorActive c.organizationID c.connectorID c.assetID = true ∨
      (c.organizationID = org ∧ c.connectorID = connector ∧ c.assetID ∈ l ∧ c.assetID ∉ pre)

theorem IdentitiesSwept.sweeping {snapshot : String} {n : ℕ} {missing : List String}
    (h : IdentitiesSwept org connector snapshot n db db' missing) (hinv : Inventory db)
    (hl : ∀ a, a ∈ l ↔ a ∈ missing) : Sweeping org connector l [] db' := by
  have hassets : db'.assets = db.assets := by rw [h.frame]
  have hclaims : db'.claims = db.claims := by rw [h.frame]
  have horg : ∀ i : SourceIdentityRow,
      (i.swept org connector (db.observed snapshot) n).organizationID = i.organizationID :=
    fun i => congrArg Prod.fst SourceIdentityRow.swept_key
  have hconn : ∀ i : SourceIdentityRow,
      (i.swept org connector (db.observed snapshot) n).connectorID = i.connectorID :=
    fun i => congrArg (·.2.1) SourceIdentityRow.swept_key
  -- a row that went MISSING belongs to the connector
  have hmine : ∀ i : SourceIdentityRow, i.status = .active →
      (i.swept org connector (db.observed snapshot) n).status ≠ .active →
      i.organizationID = org ∧ i.connectorID = connector := by
    intro i hst hne
    by_contra hn
    rw [SourceIdentityRow.swept_of_ne hn] at hne
    exact hne hst
  refine ⟨⟨?_, fun i hi => ?_, ?_, ?_⟩, ?_, fun a ha r hr => ?_, fun r hr hl' => ?_, fun c hc hact => ?_⟩
  · rw [hassets]; exact hinv.assetID
  · obtain ⟨i₀, hi₀, rfl⟩ := h.mem.mp hi
    rw [hassets, horg, SourceIdentityRow.swept_assetID]
    exact hinv.identity i₀ hi₀
  · rw [h.frame]; exact hinv.strong
  · rw [hclaims, hassets]; exact hinv.claim
  · unfold Db.SingleClaims
    rw [hclaims]
    exact hinv.single
  · obtain ⟨i, hi, hst, rfl, hne⟩ := (h.missing_iff a).mp ((hl a).mp ha)
    obtain ⟨r', hr', ho⟩ := hinv.identity i hi
    rw [hassets, hr'] at hr
    cases hr
    exact ho.trans (hmine i hst hne).1
  · rw [hassets] at hr
    refine (hinv.settled r hr).congr ?_ (conflict_congr fun c _ => by rw [hclaims])
    rw [Bool.eq_iff_iff, anyActive_iff, anyActive_iff]
    constructor
    · rintro ⟨i, hi, ha, hst⟩
      obtain ⟨i₀, hi₀, rfl⟩ := h.mem.mp hi
      exact ⟨i₀, hi₀, by rwa [SourceIdentityRow.swept_assetID] at ha,
        SourceIdentityRow.active_of_swept hst⟩
    · rintro ⟨i, hi, ha, hst⟩
      refine ⟨_, h.mem.mpr ⟨i, hi, rfl⟩, by rwa [SourceIdentityRow.swept_assetID], ?_⟩
      by_contra hne
      have := hl' ((hl r.id).mpr ((h.missing_iff r.id).mpr ⟨i, hi, hst, ha, hne⟩))
      cases this
  · rw [hclaims] at hc
    obtain ⟨i, hi, ho, hn, ha, hst⟩ := connectorActive_iff.mp (hinv.backed c hc hact)
    by_cases hsw : (i.swept org connector (db.observed snapshot) n).status = .active
    · left
      rw [connectorActive_iff]
      exact ⟨_, h.mem.mpr ⟨i, hi, rfl⟩, by rw [horg, ho], by rw [hconn, hn],
        by rw [SourceIdentityRow.swept_assetID, ha], hsw⟩
    · right
      obtain ⟨hio, hin⟩ := hmine i hst hsw
      exact ⟨ho.symm.trans hio, hn.symm.trans hin,
        (hl _).mpr ((h.missing_iff _).mpr ⟨i, hi, hst, ha, hsw⟩), by simp⟩

theorem sweptAsset_settled (d : Db) (r : AssetRow) : d.Settled (d.sweptAsset r) := by
  unfold Db.sweptAsset
  cases hany : d.anyActive r.id with
  | true =>
    refine ⟨?_, fun _ => rfl⟩
    change (d.effectiveRow r).status = .missing ↔ d.anyActive r.id = false
    rw [hany]
    unfold Db.effectiveRow
    split_ifs <;> simp
  | false =>
    exact ⟨⟨fun _ => hany, fun _ => rfl⟩, fun hne => absurd rfl hne⟩

theorem sweptAsset_id (p : Prop) [Decidable p] (d : Db) (r : AssetRow) :
    (if p then d.sweptAsset r else r).id = r.id ∧
      (if p then d.sweptAsset r else r).organizationID = r.organizationID := by
  unfold Db.sweptAsset
  split_ifs <;> exact ⟨rfl, rfl⟩

section

variable {a : String} {pre : List String} (h : Dropped org connector a db db')
include h

theorem Dropped.mem_assets {x : AssetRow} : x ∈ db'.assets ↔ ∃ r ∈ db.assets, (if r.id = a ∧ r.organizationID = org then
    ({ db with claims := db'.claims } : Db).sweptAsset r else r) = x :=
  Table.mem_of_get_map (fun r => (sweptAsset_id _ _ r).1) h.assets

theorem Dropped.anyActive (k : String) : db'.anyActive k = db.anyActive k := by
  unfold Db.anyActive
  rw [h.frame]

theorem Dropped.wf (hwf : Wf db) : Wf db' := by
  have href : ∀ {k o : String}, (∃ r, db.assets.get k = some r ∧ r.organizationID = o) →
      ∃ r, db'.assets.get k = some r ∧ r.organizationID = o := by
    rintro k o ⟨r, hr, ho⟩
    rw [h.assets, hr]
    exact ⟨_, rfl, (sweptAsset_id _ _ r).2.trans ho⟩
  refine ⟨fun x hx => ?_, fun i hi => ?_, fun x hx => ?_, fun c hc => ?_⟩
  · obtain ⟨r, hr, rfl⟩ := h.mem_assets.mp hx
    rw [(sweptAsset_id _ _ r).1]
    exact hwf.assetID r hr
  · rw [h.frame] at hi
    exact href (hwf.identity i hi)
  · rw [h.frame] at hx
    exact href (hwf.strong x hx)
  · obtain ⟨c₀, hc₀, rfl⟩ := h.mem_claims.mp hc
    rw [lapsed_eq]
    exact href (hwf.claim c₀ hc₀)

theorem Dropped.single (hsingle : db.SingleClaims) : db'.SingleClaims := by
  intro c hc c' hc' hact hact'
  obtain ⟨c₀, hc₀, rfl⟩ := h.mem_claims.mp hc
  obtain ⟨c₁, hc₁, rfl⟩ := h.mem_claims.mp hc'
  obtain ⟨heq, hact₀, -⟩ := lapsed_active hact
  obtain ⟨heq', hact₁, -⟩ := lapsed_active hact'
  rw [heq, heq']
  exact hsingle c₀ hc₀ c₁ hc₁ hact₀ hact₁

/-- An asset other than `a` stays as it is settled. -/
theorem Dropped.settled_other {r : AssetRow} (hr : db.Settled r) (hra : r.id ≠ a) : db'.Settled r := by
  refine hr.congr (h.anyActive _) (conflict_congr fun c hon => ?_)
  rw [h.mem_claims]
  constructor
  · rintro ⟨c₀, hc₀, rfl⟩
    rw [(lapsed_active hon.2.2).1]
    exact hc₀
  · intro hc
    exact ⟨c, hc, if_neg fun hn => hra (hon.2.1.symm.trans hn.1.2.2.1)⟩

theorem Dropped.sweeping (hs : Sweeping org connector l pre db) (ha : a ∈ l) :
    Sweeping org connector l (pre ++ [a]) db' := by
  refine ⟨h.wf hs.wf, h.single hs.single, fun b hb x hx => ?_, fun x hx hpre => ?_, fun c hc hact => ?_⟩
  · rw [h.assets, Option.map_eq_some_iff] at hx
    obtain ⟨r, hr, rfl⟩ := hx
    rw [(sweptAsset_id _ _ r).2]
    exact hs.owned b hb r hr
  · obtain ⟨r, hr, rfl⟩ := h.mem_assets.mp hx
    rw [(sweptAsset_id _ _ r).1] at hpre
    by_cases hra : r.id = a
    · -- the asset of this iteration
      have ho : r.organizationID = org := hs.owned a ha r (by rw [← hra]; exact Table.mem_iff_get.mp hr)
      rw [if_pos ⟨hra, ho⟩]
      exact (sweptAsset_settled _ r).congr (h.anyActive _) (conflict_congr fun c _ => Iff.rfl)
    · rw [if_neg fun hn => hra hn.1]
      refine h.settled_other (hs.settled r hr fun hm => ?_) hra
      exact (List.mem_append.mp (hpre hm)).resolve_right fun hm => hra (List.mem_singleton.mp hm)
  · obtain ⟨c₀, hc₀, rfl⟩ := h.mem_claims.mp hc
    obtain ⟨heq, hact₀, hon⟩ := lapsed_active hact
    have hids : db'.sourceIdentities = db.sourceIdentities := by rw [h.frame]
    rw [heq, Db.connectorActive, hids]
    rcases hs.backed c₀ hc₀ hact₀ with hb | ⟨ho, hn, hl, hpre⟩
    · exact .inl hb
    · by_cases hca : c₀.assetID = a
      · left
        rw [ho, hn, hca]
        exact hon ho hn hca
      · exact .inr ⟨ho, hn, hl, by simp [hpre, hca]⟩

end

/-- When the loop is through, every asset is settled. -/
theorem Sweeping.inventory (h : Sweeping org connector l l db) : Inventory db := by
  refine ⟨h.wf, fun r hr => h.settled r hr id, h.single, fun c hc hact => ?_⟩
  rcases h.backed c hc hact with hb | ⟨-, -, hl, hn⟩
  · exact hb
  · exact absurd hl hn

def Db.Disagree (db : Db) (a : String) : Prop :=
  ∃ c ∈ db.claims, ∃ c' ∈ db.claims, c.assetID = a ∧ c'.assetID = a ∧ c.active = true ∧
    c'.active = true ∧ c.attributeKey = c'.attributeKey ∧ c.value.text ≠ c'.value.text

/-- Where claims are on assets of their own organization, the conflict flag tells
whether the claims on an asset disagree. -/
theorem disagree_iff (h : ∀ c ∈ db.claims, ∃ r, db.assets.get c.assetID = some r ∧
    r.organizationID = c.organizationID) {r : AssetRow} (hr : r ∈ db.assets) :
    db.Disagree r.id ↔ db.conflict r.organizationID r.id = true := by
  have hown : ∀ c ∈ db.claims, c.assetID = r.id → c.organizationID = r.organizationID := by
    intro c hc ha
    obtain ⟨r', hr', ho⟩ := h c hc
    rw [ha, Table.mem_iff_get.mp hr] at hr'
    cases hr'
    exact ho.symm
  rw [conflict_iff]
  constructor
  · rintro ⟨c, hc, c', hc', ha, ha', hact, hact', hk, hv⟩
    exact ⟨c, hc, c', hc', ⟨hown c hc ha, ha, hact⟩, ⟨hown c' hc' ha', ha', hact'⟩, hk, hv⟩
  · rintro ⟨c, hc, c', hc', ⟨-, ha, hact⟩, ⟨-, ha', hact'⟩, hk, hv⟩
    exact ⟨c, hc, c', hc', ha, ha', hact, hact', hk, hv⟩

section

variable [Hashes]

theorem run_assets_inventory {order : MapOrder} {s : SnapshotEnvelope} {now : Time} {st st' : Progress}
    {l : List Observation} (h : (l.foldlM (observe order s now) st).run db = .ok (st', db'))
    (hinv : Inventory db) : Inventory db' := by
  refine run_foldlM (fun _ _ d => Inventory d) h hinv ?_
  rintro pre o post st d st' d' - hd hrun
  obtain ⟨-, -, a, created, -, -, hobs⟩ := run_observe hrun
  exact (hobs hd.toWf).inventory hd

theorem run_missing_sweeping {s : SnapshotEnvelope} {sum' : Summary}
    (h : (l.foldlM (missingAsset s) sum).run db = .ok (sum', db'))
    (hs : Sweeping s.organizationID s.connectorID l [] db) : Sweeping s.organizationID s.connectorID l l db' := by
  refine run_foldlM (fun pre _ d => Sweeping s.organizationID s.connectorID l pre d) h hs ?_
  rintro pre a post sum d sum' d' hl hd hrun
  exact (run_missingAsset hrun).sweeping hd (by simp [hl])

theorem run_markMissing_inventory {order : MapOrder} {s : SnapshotEnvelope} {n : ℕ} {sum' : Summary}
    (h : (markMissing order s n sum).run db = .ok (sum', db')) (hinv : Inventory db) : Inventory db' := by
  obtain ⟨missing, d₁, sum₁, d₂, removed, d₃, h1, h2, h3, h4⟩ := run_markMissing h
  have hs := h1.sweeping hinv fun a => (order.missing_perm missing).mem_iff
  have hd₂ := (run_missing_sweeping h2 hs).inventory
  have hdb' := run_removed_frame h4
  refine hd₂.congr ?_ ?_ ?_ ?_ <;> rw [hdb', h3.frame]

theorem ApplyCall.inventory {c : ApplyCall} (hc : c.run db = .ok (sum, db'))
    (hinv : Inventory db) : Inventory db' := by
  obtain ⟨st, d₁, d₂, d₃, sum₂, happ⟩ := ApplyCall.run_ok hc
  have hd₁ := run_assets_inventory happ.observe hinv
  have hd₂ : Inventory d₂ := by
    have hframe := run_relationships_frame happ.relate
    refine hd₁.congr ?_ ?_ ?_ ?_ <;> rw [hframe]
  have hd₃ := run_markMissing_inventory happ.sweep hd₂
  refine hd₃.congr ?_ ?_ ?_ ?_ <;> rw [happ.frame]

theorem Runs.inventory {db₀ : Db} {h : List ApplyCall} (hr : Runs db₀ h db) (h0 : db₀.InventoryEmpty) :
    Inventory db :=
  hr.invariant (inventory_of_empty h0) (fun _ _ _ _ hd hc => ApplyCall.inventory hc hd)
    fun _ _ _ _ _ _ _ hd => hd.congr rfl rfl rfl rfl

/-- In every database that reconciliation reaches, an asset is MISSING exactly
when none of its identities is ACTIVE and otherwise CONFLICTING exactly when its
active claims disagree, else ACTIVE; a connector makes at most one active claim
on an asset and key, and only while it has an ACTIVE identity there. -/
theorem runs_inventory {db₀ : Db} {h : List ApplyCall} (h0 : db₀.InventoryEmpty) (hr : Runs db₀ h db) :
    (∀ r ∈ db.assets,
      (r.status = .missing ↔ ∀ i ∈ db.sourceIdentities, i.assetID = r.id → i.status ≠ .active) ∧
      (r.status ≠ .missing → (r.status = .conflicting ↔ db.Disagree r.id) ∧
        (¬ db.Disagree r.id → r.status = .active))) ∧
    (∀ c ∈ db.claims, ∀ c' ∈ db.claims, c.active = true → c'.active = true → c.assetID = c'.assetID →
      c.connectorID = c'.connectorID → c.attributeKey = c'.attributeKey → c = c') ∧
    ∀ c ∈ db.claims, c.active = true → ∃ i ∈ db.sourceIdentities,
      i.connectorID = c.connectorID ∧ i.assetID = c.assetID ∧ i.status = .active := by
  have hinv := hr.inventory h0
  refine ⟨fun r hrm => ?_, hinv.single, fun c hc hact => ?_⟩
  · obtain ⟨hmiss, hpres⟩ := hinv.settled r hrm
    refine ⟨?_, fun hne => ?_⟩
    · rw [hmiss, ← Bool.not_eq_true, anyActive_iff]
      push Not
      rfl
    · rw [disagree_iff hinv.claim hrm, hpres hne]
      cases db.conflict r.organizationID r.id <;> simp
  · obtain ⟨i, hi, -, hn, ha, hst⟩ := connectorActive_iff.mp (hinv.backed c hc hact)
    exact ⟨i, hi, hn, ha, hst⟩

end

/-- The deployment in its last state: the shared application is ACTIVE, since
the claims of the connector that dropped it lapsed, and the database MISSING. -/
theorem runs_inventory_deployment : emptyDb.InventoryEmpty ∧ @Runs toy emptyDb deployment (replayed deployment) ∧
      (replayed deployment).assets.rows.map (·.status) = [.active, .missing] ∧
      ∀ c ∈ (replayed deployment).claims, c.active = true →
        ∃ i ∈ (replayed deployment).sourceIdentities,
          i.connectorID = c.connectorID ∧ i.assetID = c.assetID ∧ i.status = .active :=
  ⟨emptyDb_inventory, runs_replayed replays_deployment, by decide +kernel,
    (@runs_inventory _ toy _ _ emptyDb_inventory (runs_replayed replays_deployment)).2.2⟩

end Infragraph
