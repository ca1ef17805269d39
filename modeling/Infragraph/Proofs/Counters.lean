import Infragraph.Proofs.Transitions

/-! The missing and change counters of a call. They count attempts: an asset once
for every identity that expired, a change once for every row handed to the
database. They are exact when no two attempts share a slot. -/

namespace Infragraph

open Relational ReadCommitted Prog

theorem nodup_map_classes {α β γ : Type} [DecidableEq γ] {f : α → β} {g : α → γ} {l : List α}
    (h : ∀ x ∈ l, ∀ y ∈ l, f x = f y → g x = g y) :
    (l.map f).Nodup ↔ ∀ t, ((l.filter fun x => g x = t).map f).Nodup := by
  refine ⟨fun hl t => hl.sublist (List.filter_sublist.map f), fun hl => ?_⟩
  induction l with
  | nil => exact List.nodup_nil
  | cons x l ih =>
    rw [List.map_cons, List.nodup_cons]
    constructor
    · intro hx
      obtain ⟨y, hy, hxy⟩ := List.mem_map.mp hx
      have hg := h y (List.mem_cons_of_mem x hy) x (.head _) hxy
      have hnodup := hl (g x)
      rw [List.filter_cons_of_pos (by simp), List.map_cons, List.nodup_cons] at hnodup
      exact hnodup.1 (List.mem_map.mpr ⟨y, List.mem_filter.mpr ⟨hy, by simpa using hg⟩, hxy⟩)
    · refine ih (fun y hy z hz => h y (List.mem_cons_of_mem x hy) z (List.mem_cons_of_mem x hz)) fun t => ?_
      exact (hl t).sublist (((List.sublist_cons_self x l).filter _).map f)

section

def Db.Present (db : Db) (a : String) : Prop :=
  ∀ r, db.assets.get a = some r → r.status ≠ .missing ∧ r.status ≠ .stale

theorem pairwise_iff_split {α : Type} {R : α → α → Prop} {l : List α} :
    l.Pairwise R ↔ ∀ pre x mid y post, l = pre ++ x :: (mid ++ y :: post) → R x y := by
  constructor
  · rintro h pre x mid y post rfl
    rw [List.pairwise_append, List.pairwise_cons] at h
    exact h.2.1.1 y (by simp)
  · intro h
    induction l with
    | nil => exact List.Pairwise.nil
    | cons x l ih =>
      refine List.Pairwise.cons (fun y hy => ?_) (ih fun pre y mid z post hl => h (x :: pre) y mid z post (by simp [hl]))
      obtain ⟨mid, post, rfl⟩ := List.append_of_mem hy
      exact h [] x mid y post rfl

def Db.turnedMissing (db db' : Db) : List AssetRow :=
  db'.assets.rows.filter fun r => r.status = .missing && !db.isMissing r.id

variable [Hashes]

/-- What the connector has last reported about the asset under the key, once the
observations of the list are recorded. -/
def ApplyCall.reported (c : ApplyCall) (db : Db) (pre : List Observation) (a key : String) : Option Json :=
  pre.foldl (fun v o => if c.leads db o.externalID = some a then (o.attributes.get key).or v else v) none

/-- An active claim of some connector once the observations of the list are recorded. -/
def ApplyCall.Claims (c : ApplyCall) (db : Db) (pre : List Observation) (a key : String) (value : Json) : Prop :=
  c.reported db pre a key = some value ∨
    ∃ q ∈ db.claims, q.On c.snapshot.organizationID a ∧ q.attributeKey = key ∧ q.value = value ∧
      (q.connectorID = c.snapshot.connectorID → c.reported db pre a key = none)

/-- The active claims on the asset disagree. -/
def ApplyCall.Disputed (c : ApplyCall) (db : Db) (pre : List Observation) (a : String) : Prop :=
  ∃ key value value', c.Claims db pre a key value ∧ c.Claims db pre a key value' ∧ value.text ≠ value'.text

/-- No two change rows of the call share a slot. -/
structure ApplyCall.CountsApart (c : ApplyCall) (db : Db) : Prop where
  /-- an asset that loses its last ACTIVE identity loses one in this call -/
  losses : ∀ i ∈ db.sourceIdentities, ∀ j ∈ db.sourceIdentities, c.Expiring i → c.Expiring j →
    i.assetID = j.assetID → c.Loses db i.assetID → i = j
  /-- relationships that are added start at different assets -/
  additions : ∀ r ∈ c.snapshot.relationships, ∀ r' ∈ c.snapshot.relationships,
    db.findRelationship (c.relationshipKey db r) = none → db.findRelationship (c.relationshipKey db r') = none →
    (c.relationshipKey db r).2.1 = (c.relationshipKey db r').2.1 → c.relationshipKey db r = c.relationshipKey db r'
  /-- of the observations that lead to one asset, at most one leaves its claims in dispute -/
  disputes : ∀ pre o mid o' post a, c.snapshot.assets = pre ++ o :: (mid ++ o' :: post) →
    c.leads db o.externalID = some a → c.leads db o'.externalID = some a →
    c.Disputed db (pre ++ [o]) a → ¬ c.Disputed db (pre ++ o :: mid ++ [o']) a

variable {db db' : Db} {c : ApplyCall} {sum : Summary} {s : SnapshotEnvelope} {now : Time}
  {sights : List Sight} {links : List Link} {losses : List Loss} {d d₁ d₂ : Db} {t : Trace} {a : String}

theorem reported_snoc {b : String} (pre : List Observation) {o : Observation} (key : String)
    (hb : c.leads db o.externalID = some b) : c.reported db (pre ++ [o]) a key =
      if b = a then (o.attributes.get key).or (c.reported db pre a key) else c.reported db pre a key := by
  simp [ApplyCall.reported, hb]

theorem Turn.claims_on {x : Sight} (h : Turn s now d x d₁) {q : ClaimRow} (hq : q.On s.organizationID a) :
    q ∈ d₁.claims ↔ (x.asset = a ∧ ∃ e ∈ x.observation.attributes.entries,
        q = claimRow s x.observation a (orNow x.observation.observedAt now)
          (d.authority s.organizationID s.connectorID x.observation.assetType e.1) e) ∨
      (q ∈ d.claims ∧ ¬ (x.asset = a ∧ q.connectorID = s.connectorID ∧
        q.attributeKey ∈ x.observation.attributes.entries.map Prod.fst)) := by
  rw [h.toRecorded.claims]
  constructor
  · rintro (⟨e, he, rfl⟩ | ⟨q₀, hq₀, rfl⟩)
    · have hasset : x.asset = a := hq.2.1
      rw [← hasset]
      exact .inl ⟨rfl, e, he, rfl⟩
    · obtain ⟨heq, -, hno⟩ := superseded_active hq.2.2
      rw [heq] at hq ⊢
      exact .inr ⟨hq₀, fun hc => hno ⟨hq.1, hc.1 ▸ hq.2.1, hc.2.1, hc.2.2⟩⟩
  · rintro (⟨hasset, e, he, rfl⟩ | ⟨hmem, hno⟩)
    · exact .inl ⟨e, he, by rw [hasset]⟩
    · refine .inr ⟨q, hmem, if_neg fun hc => hno ⟨?_, hc.2.2.1, hc.2.2.2.2⟩⟩
      exact hc.2.1.symm.trans hq.2.1

section

variable (h : Steps (Turn c.snapshot now) db sights d)
  (hlead : ∀ x ∈ sights, c.leads db x.observation.externalID = some x.asset)
include h hlead

/-- Claims of other connectors stay; those of this one are what it last reported. -/
theorem turns_claims (key : String) (value : Json) :
    (∃ q ∈ d.claims, q.On c.snapshot.organizationID a ∧ q.attributeKey = key ∧ q.value = value) ↔
      c.Claims db (sights.map Sight.observation) a key value := by
  have hother : ∀ q : ClaimRow, q.On c.snapshot.organizationID a → q.connectorID ≠ c.snapshot.connectorID →
      (q ∈ d.claims ↔ q ∈ db.claims) := by
    intro q hq hne
    refine h.invariant (I := fun d => q ∈ d.claims ↔ q ∈ db.claims) Iff.rfl fun d₁ x d₂ _ hd hx => ?_
    rw [hx.claims_on hq, ← hd]
    constructor
    · rintro (⟨-, e, -, rfl⟩ | ⟨hmem, -⟩)
      · exact absurd rfl hne
      · exact hmem
    · exact fun hmem => .inr ⟨hmem, fun hc => hne hc.2.1⟩
  have hown : ∀ value, (∃ q ∈ d.claims, q.On c.snapshot.organizationID a ∧ q.connectorID = c.snapshot.connectorID ∧
      q.attributeKey = key ∧ q.value = value) ↔
      c.reported db (sights.map Sight.observation) a key = some value ∨
        c.reported db (sights.map Sight.observation) a key = none ∧
        ∃ q ∈ db.claims, q.On c.snapshot.organizationID a ∧ q.connectorID = c.snapshot.connectorID ∧
          q.attributeKey = key ∧ q.value = value := by
    clear hother
    induction h with
    | nil => simp [ApplyCall.reported]
    | @snoc l d₁ x d₂ _ hx ih =>
      intro value
      have ih := ih (fun y hy => hlead y (List.mem_append_left _ hy)) value
      rw [List.map_append, List.map_singleton, reported_snoc _ _ (hlead x (by simp))]
      have hstep : (∃ q ∈ d₂.claims, q.On c.snapshot.organizationID a ∧ q.connectorID = c.snapshot.connectorID ∧
          q.attributeKey = key ∧ q.value = value) ↔ (x.asset = a ∧ x.observation.attributes.get key = some value) ∨
          ((∃ q ∈ d₁.claims, q.On c.snapshot.organizationID a ∧ q.connectorID = c.snapshot.connectorID ∧
            q.attributeKey = key ∧ q.value = value) ∧ ¬ (x.asset = a ∧ x.observation.attributes.get key ≠ none)) := by
        rw [Ne, GoMap.get_eq_none, not_not, GoMap.get_eq_some]
        constructor
        · rintro ⟨q, hq, hon, hconn, rfl, rfl⟩
          rcases (hx.claims_on hon).mp hq with ⟨hasset, e, he, rfl⟩ | ⟨hmem, hno⟩
          · exact .inl ⟨hasset, he⟩
          · exact .inr ⟨⟨q, hmem, hon, hconn, rfl, rfl⟩, fun hc => hno ⟨hc.1, hconn, hc.2⟩⟩
        · rintro (⟨hasset, he⟩ | ⟨⟨q, hmem, hon, hconn, rfl, rfl⟩, hno⟩)
          · have hon : (claimRow c.snapshot x.observation a (orNow x.observation.observedAt now)
                (d₁.authority c.snapshot.organizationID c.snapshot.connectorID x.observation.assetType key)
                (key, value)).On c.snapshot.organizationID a := ⟨rfl, rfl, rfl⟩
            exact ⟨_, (hx.claims_on hon).mpr (.inl ⟨hasset, _, he, rfl⟩), hon, rfl, rfl, rfl⟩
          · exact ⟨q, (hx.claims_on hon).mpr (.inr ⟨hmem, fun hc => hno ⟨hc.1, hc.2.2⟩⟩), hon, hconn, rfl, rfl⟩
      rw [hstep]
      by_cases hasset : x.asset = a
      · cases hget : x.observation.attributes.get key with
        | none => simpa [hget] using ih
        | some w => simp [hasset]
      · simpa [hasset] using ih
  constructor
  · rintro ⟨q, hq, hon, rfl, rfl⟩
    by_cases hconn : q.connectorID = c.snapshot.connectorID
    · rcases (hown q.value).mp ⟨q, hq, hon, hconn, rfl, rfl⟩ with hrep | ⟨hnone, q', hq', hon', -, hk, hv⟩
      · exact .inl hrep
      · exact .inr ⟨q', hq', hon', hk, hv, fun _ => hnone⟩
    · exact .inr ⟨q, (hother q hon hconn).mp hq, hon, rfl, rfl, fun hc => absurd hc hconn⟩
  · rintro (hrep | ⟨q, hq, hon, hk, hv, hnone⟩)
    · obtain ⟨q, hq, hon, -, hk, hv⟩ := (hown value).mpr (.inl hrep)
      exact ⟨q, hq, hon, hk, hv⟩
    · by_cases hconn : q.connectorID = c.snapshot.connectorID
      · obtain ⟨q', hq', hon', -, hk', hv'⟩ := (hown value).mpr (.inr ⟨hnone hconn, q, hq, hon, hconn, hk, hv⟩)
        exact ⟨q', hq', hon', hk', hv'⟩
      · exact ⟨q, (hother q hon hconn).mpr hq, hon, hk, hv⟩

theorem turns_disputed :
    d.conflict c.snapshot.organizationID a = true ↔ c.Disputed db (sights.map Sight.observation) a := by
  rw [conflict_iff]
  unfold ApplyCall.Disputed
  simp only [← turns_claims h hlead]
  constructor
  · rintro ⟨q, hq, q', hq', hon, hon', hkey, hne⟩
    exact ⟨q.attributeKey, q.value, q'.value, ⟨q, hq, hon, rfl, rfl⟩, ⟨q', hq', hon', hkey.symm, rfl⟩, hne⟩
  · rintro ⟨key, value, value', ⟨q, hq, hon, hk, rfl⟩, ⟨q', hq', hon', hk', rfl⟩, hne⟩
    exact ⟨q, hq, q', hq', hon, hon', hk.trans hk'.symm, hne⟩

end

/-- A turn reports a conflict exactly when the claims recorded so far disagree. -/
theorem Traced.conflict_iff (h : Traced c db t sum db')
    (pre post : List Sight) {x : Sight} (hs : t.sights = pre ++ x :: post) :
    x.conflict = true ↔ c.Disputed db ((pre ++ [x]).map Sight.observation) x.asset := by
  have hlead : ∀ y ∈ t.sights, c.leads db y.observation.externalID = some y.asset := fun y hy => h.sight_leads hy
  have hobserve := h.observe
  rw [hs] at hobserve hlead
  obtain ⟨d, d', hpre, hturn, -⟩ := hobserve.split
  rw [hturn.disputed]
  exact turns_disputed (hpre.snoc hturn) fun y hy => hlead y (by
    rcases List.mem_append.mp hy with hy | hy
    · exact List.mem_append_left _ hy
    · rw [List.mem_singleton.mp hy]
      simp)

def attemptAssets (t : String) (l : List ChangeRow) : List String :=
  (l.filter fun r => r.changeType = t).map (·.assetID)

omit [Hashes] in
theorem attemptAssets_append (t : String) (l l' : List ChangeRow) :
    attemptAssets t (l ++ l') = attemptAssets t l ++ attemptAssets t l' := by
  simp [attemptAssets]

omit [Hashes] in
theorem attemptAssets_flatMap {χ : Type} {t : String} {rows : χ → List ChangeRow} (p : χ → Bool) (asset : χ → String)
    (h : ∀ x, attemptAssets t (rows x) = if p x then [asset x] else []) (l : List χ) :
    attemptAssets t (l.flatMap rows) = (l.filter p).map asset := by
  induction l with
  | nil => rfl
  | cons x l ih =>
    rw [List.flatMap_cons, attemptAssets_append, h, ih]
    cases hp : p x <;> simp [hp]

def Sighting.isReturned : Sighting → Bool
  | .returned _ => true
  | _ => false

theorem sightRows_assets (t : String) (x : Sight) : attemptAssets t (x.rows s) =
    (if x.kind.isReturned && t = "ASSET_RETURNED" then [x.asset] else []) ++
      (if x.conflict && t = "SOURCE_CONFLICT" then [x.asset] else []) ++
      if x.kind = .created && t = "ASSET_DISCOVERED" then [x.asset] else [] := by
  unfold Sight.rows
  rw [attemptAssets_append, attemptAssets_append]
  congr 1
  · congr 1
    · cases hk : x.kind <;>
        simp [attemptAssets, Sighting.rows, Sighting.isReturned, returnedRow, changeRow, List.filter_cons, eq_comm]
      split_ifs <;> rfl
    · cases hc : x.conflict <;> simp [attemptAssets, conflictRow, changeRow, List.filter_cons, eq_comm]
      split_ifs <;> rfl
  · by_cases hk : x.kind = .created <;> simp [hk, attemptAssets, discoveredRow, changeRow, List.filter_cons, eq_comm]
    split_ifs <;> rfl

theorem linkRows_assets (t : String) (x : Link) : attemptAssets t (x.rows s now) =
    if !x.existing && t = "RELATIONSHIP_ADDED" then [x.fromAsset] else [] := by
  unfold Link.rows
  cases hx : x.existing <;>
    simp [attemptAssets, addedRow, changeRow, Link.row, relationshipRow, List.filter_cons, eq_comm]
  split_ifs <;> rfl

theorem lossRows_assets (t : String) (x : Loss) : attemptAssets t (x.rows s) =
    if x.marked && t = "ASSET_MISSING" then [x.asset] else [] := by
  unfold Loss.rows
  cases hx : x.marked <;> simp [attemptAssets, missingRow, changeRow, List.filter_cons, eq_comm]
  split_ifs <;> rfl

theorem attempts_assets (t : String) (sights : List Sight) (links : List Link) (losses : List Loss) :
    attemptAssets t (attempts s now sights links losses) = attemptAssets t (sights.flatMap (Sight.rows s)) ++
      (if t = "RELATIONSHIP_ADDED" then (newLinks links).map Link.fromAsset else []) ++
      if t = "ASSET_MISSING" then (losses.filter Loss.marked).map Loss.asset else [] := by
  unfold attempts newLinks
  rw [attemptAssets_append, attemptAssets_append, attemptAssets_flatMap _ _ (linkRows_assets t),
    attemptAssets_flatMap _ _ (lossRows_assets t)]
  congr 1
  · by_cases ht : t = "RELATIONSHIP_ADDED" <;> simp [ht]
  · by_cases ht : t = "ASSET_MISSING" <;> simp [ht]

theorem attempts_nodup_iff : ((attempts s now sights links losses).map ChangeRow.slot).Nodup ↔
    ∀ t ∈ changeTypes, (attemptAssets t (attempts s now sights links losses)).Nodup := by
  have hclass : ∀ t ∈ changeTypes,
      ((((attempts s now sights links losses).filter fun r => r.changeType = t).map ChangeRow.slot).Nodup ↔
        (attemptAssets t (attempts s now sights links losses)).Nodup) := by
    intro t ht
    have hslots : ((attempts s now sights links losses).filter fun r => r.changeType = t).map ChangeRow.slot =
        (attemptAssets t (attempts s now sights links losses)).map fun a =>
          (s.organizationID, "|".intercalate [s.snapshotID, a, t]) := by
      rw [attemptAssets, List.map_map]
      refine List.map_congr_left fun r hr => ?_
      obtain ⟨hr, htype⟩ := List.mem_filter.mp hr
      rw [(attempts_of hr).slot, of_decide_eq_true htype]
      rfl
    rw [hslots]
    have hplain := changeTypes_plain t ht
    exact List.nodup_map_iff fun a b hab => (logical_inj hplain hplain (congrArg Prod.snd hab)).1
  rw [nodup_map_classes (g := ChangeRow.changeType) fun r hr r' hr' hs =>
    ((attempts_of hr).slot_inj (attempts_of hr') hs).2]
  constructor
  · exact fun h t ht => (hclass t ht).mp (h t)
  · intro h t
    by_cases ht : t ∈ changeTypes
    · exact (hclass t ht).mpr (h t ht)
    · have hnil : ((attempts s now sights links losses).filter fun r => r.changeType = t) = [] := by
        rw [List.filter_eq_nil_iff]
        intro r hr htype
        exact ht (of_decide_eq_true htype ▸ (attempts_of hr).type)
      rw [hnil]
      exact List.nodup_nil

theorem Turn.present {x : Sight} (h : Turn s now d x d₁) (hwf : Wf d) : d₁.Present x.asset := by
  intro r hr
  obtain ⟨created, hobs⟩ := h.observed hwf
  obtain ⟨r', hr', -, hst⟩ := hobs.asset
  rw [hr] at hr'
  cases hr'
  rw [hst]
  split_ifs <;> simp

theorem turns_present (h : Steps (Turn s now) d sights d₁) (hwf : Wf d) (hp : d.Present a) : d₁.Present a := by
  refine (h.invariant (I := fun e => Wf e ∧ e.Present a) ⟨hwf, hp⟩ fun e x e' _ he hx => ⟨hx.wf he.1, ?_⟩).2
  by_cases hxa : x.asset = a
  · rw [← hxa]
    exact hx.present he.1
  · intro r hr
    rw [hx.others a (Ne.symm hxa)] at hr
    exact he.2 r hr

/-- An observation that finds its asset MISSING or STALE is the first to reach it. -/
theorem Turn.returned {x : Sight} (h : Turn s now d x d₁) (hk : x.kind.isReturned = true) : ¬ d.Present x.asset := by
  intro hp
  cases hi : d.sourceIdentities.get (s.organizationID, s.connectorID, x.observation.externalID) with
  | some i =>
    obtain ⟨r, hr, -, hkind⟩ := h.sighted.known i hi
    rw [hkind] at hk
    split_ifs at hk with hst
    · exact hst.elim (hp r hr).1 (hp r hr).2
    · cases hk
  | none =>
    rcases h.sighted.unknown hi with ⟨hkind, -⟩ | ⟨hkind, -⟩ <;>
    · rw [hkind] at hk
      cases hk

theorem turns_returned_nodup (h : Steps (Turn s now) db sights db') (hwf : Wf db) :
    ((sights.filter fun x => x.kind.isReturned).map Sight.asset).Nodup := by
  rw [List.Nodup, List.pairwise_map, List.pairwise_filter, pairwise_iff_split]
  rintro pre x mid y post rfl hx hy heq
  obtain ⟨d, d', hpre, hturn, hrest⟩ := h.split
  obtain ⟨e, e', hmid, hturn', -⟩ := hrest.split
  have hd := turns_wf hpre hwf
  refine hturn'.returned hy ?_
  rw [← heq]
  exact turns_present hmid (hturn.wf hd) (hturn.present hd)

theorem countSights_changes (sights : List Sight) :
    (countSights s {} sights).changes = (sights.flatMap (Sight.rows s)).length := by
  induction sights using List.reverseRecOn with
  | nil => rfl
  | append_singleton l x ih =>
    rw [countSights_snoc, List.flatMap_append, List.flatMap_singleton, List.length_append, ← ih]
    rfl

omit [Hashes] in
theorem mem_turnedMissing : a ∈ (db.turnedMissing db').map AssetRow.id ↔
    db.isMissing a = false ∧ db'.isMissing a = true := by
  simp only [Db.turnedMissing, List.mem_map, List.mem_filter, Bool.and_eq_true, decide_eq_true_eq,
    Bool.not_eq_true', Table.mem_rows]
  constructor
  · rintro ⟨r, ⟨hr, hst, hbefore⟩, rfl⟩
    exact ⟨hbefore, isMissing_iff_row.mpr ⟨r, Table.mem_iff_get.mp hr, hst⟩⟩
  · rintro ⟨hbefore, hafter⟩
    obtain ⟨r, hr, hst⟩ := isMissing_iff_row.mp hafter
    have hid : r.id = a := Table.key_of_get hr
    exact ⟨r, ⟨Table.mem_of_get hr, hst, by rw [hid]; exact hbefore⟩, hid⟩

section

variable (h : Traced c db t sum db')
include h

/-- Only conflicts, added relationships and lost assets can share a slot. -/
theorem Traced.slots_iff (hwf : Wf db) :
    ((attempts c.snapshot (orNow c.snapshot.completedAt c.clock) t.sights t.links t.losses).map ChangeRow.slot).Nodup ↔
      ((t.sights.filter Sight.conflict).map Sight.asset).Nodup ∧ ((newLinks t.links).map Link.fromAsset).Nodup ∧
        ((t.losses.filter Loss.marked).map Loss.asset).Nodup := by
  have hreturned := turns_returned_nodup h.observe hwf
  have hcreated := (turns_created h.observe hwf).1
  rw [attempts_nodup_iff]
  simp only [changeTypes, List.forall_mem_cons, attempts_assets]
  rw [attemptAssets_flatMap (fun x => x.kind.isReturned) Sight.asset fun x => by simp [sightRows_assets],
    attemptAssets_flatMap Sight.conflict Sight.asset fun x => by simp [sightRows_assets],
    attemptAssets_flatMap (fun x => decide (x.kind = .created)) Sight.asset
      fun x => by simp [sightRows_assets],
    attemptAssets_flatMap (fun _ => false) Sight.asset fun x => by simp [sightRows_assets],
    attemptAssets_flatMap (fun _ => false) Sight.asset fun x => by simp [sightRows_assets]]
  simp only [createdAssets] at hcreated
  simpa [hreturned] using fun _ _ _ => hcreated

theorem Traced.changes_count :
    sum.changes = (attempts c.snapshot (orNow c.snapshot.completedAt c.clock) t.sights t.links t.losses).length := by
  obtain ⟨ids, -, -, hsum⟩ := run_removed_count h.removals
  rw [countLosses, countLinks] at hsum
  rw [hsum, attempts, linkRows_eq, lossRows_eq, List.length_append, List.length_append, List.length_map,
    List.length_map, ← countSights_changes]

theorem Traced.missing_exact_iff (hrec : db.Recorded) (hinv : Inventory db) (hinv' : Inventory db') :
    sum.missing = (db.turnedMissing db').length ↔ ((t.losses.filter Loss.marked).map Loss.asset).Nodup := by
  have hmem : ∀ a, a ∈ (db.turnedMissing db').map AssetRow.id ↔ a ∈ (t.losses.filter Loss.marked).map Loss.asset :=
    fun a => mem_turnedMissing.trans (h.turns_missing hrec hinv hinv')
  have hnodup : ((db.turnedMissing db').map AssetRow.id).Nodup :=
    db'.assets.nodup.sublist (List.filter_sublist.map _)
  rw [h.counters.2.2.2, ← List.length_map Loss.asset, ← List.length_map AssetRow.id]
  constructor
  · intro hlen
    have hsub := List.subperm_of_subset hnodup fun a ha => (hmem a).mp ha
    exact ((hsub.perm_of_length_le hlen.le).nodup_iff).mp hnodup
  · intro hl
    exact ((List.perm_ext_iff_of_nodup hl hnodup).mpr fun a => (hmem a).symm).length_eq

theorem Traced.losses_apart (hrec : db.Recorded) (hwf : Wf db) : ((t.losses.filter Loss.marked).map Loss.asset).Nodup ↔
      ∀ i ∈ db.sourceIdentities, ∀ j ∈ db.sourceIdentities, c.Expiring i → c.Expiring j →
        i.assetID = j.assetID → c.Loses db i.assetID → i = j := by
  obtain ⟨l, hl, hmem, hperm⟩ := h.marked_perm hrec hwf
  rw [hperm.nodup_iff, List.nodup_map_iff_inj_on hl]
  constructor
  · intro hinj i hi j hj hexp hexp' heq hlost
    exact hinj i ((hmem i).mpr ⟨hi, hexp, hlost⟩) j ((hmem j).mpr ⟨hj, hexp', heq ▸ hlost⟩) heq
  · intro hall i hi j hj heq
    obtain ⟨hi, hexp, hlost⟩ := (hmem i).mp hi
    obtain ⟨hj, hexp', -⟩ := (hmem j).mp hj
    exact hall i hi j hj hexp hexp' heq hlost

theorem Traced.disputes_apart : ((t.sights.filter Sight.conflict).map Sight.asset).Nodup ↔
      ∀ pre o mid o' post a, c.snapshot.assets = pre ++ o :: (mid ++ o' :: post) →
        c.leads db o.externalID = some a → c.leads db o'.externalID = some a →
        c.Disputed db (pre ++ [o]) a → ¬ c.Disputed db (pre ++ o :: mid ++ [o']) a := by
  rw [List.Nodup, List.pairwise_map, List.pairwise_filter, pairwise_iff_split]
  constructor
  · intro hall pre o mid o' post a hassets hlead hlead' hdisp hdisp'
    rw [← h.assets] at hassets
    obtain ⟨pre, rest, hsights, rfl, hrest⟩ := List.map_eq_append_iff.mp hassets
    obtain ⟨x, rest, rfl, rfl, htail⟩ := List.map_eq_cons_iff.mp hrest
    obtain ⟨mid, rest, rfl, rfl, hlast⟩ := List.map_eq_append_iff.mp htail
    obtain ⟨y, post, rfl, rfl, rfl⟩ := List.map_eq_cons_iff.mp hlast
    have hx : x.asset = a := by
      have := h.sight_leads (x := x) (by simp [hsights])
      rw [hlead] at this
      exact (Option.some.inj this).symm
    have hy : y.asset = a := by
      have := h.sight_leads (x := y) (by simp [hsights])
      rw [hlead'] at this
      exact (Option.some.inj this).symm
    have hconflict := (h.conflict_iff pre (mid ++ y :: post) hsights).mpr (by simpa [hx] using hdisp)
    have hconflict' : y.conflict = true :=
      (h.conflict_iff (pre ++ x :: mid) post (by simp [hsights])).mpr (by simpa [hy] using hdisp')
    exact hall pre x mid y post hsights hconflict hconflict' (hx.trans hy.symm)
  · intro hall pre x mid y post hsights hx hy heq
    refine hall (pre.map Sight.observation) x.observation (mid.map Sight.observation) y.observation
      (post.map Sight.observation) x.asset (by simp [← h.assets, hsights]) (h.sight_leads (by simp [hsights])) ?_ ?_ ?_
    · rw [heq]
      exact h.sight_leads (by simp [hsights])
    · simpa using (h.conflict_iff pre (mid ++ y :: post) hsights).mp hx
    · rw [heq]
      simpa using (h.conflict_iff (pre ++ x :: mid) post (by simp [hsights])).mp hy

end

/-- In every reachable database the missing and change counters of a successful
call are exact if and only if no two of its change rows share a slot. -/
theorem runs_counters_iff {db₀ : Db} {h : List ApplyCall} (h0 : db₀.InventoryEmpty) (hr : Runs db₀ h db)
    (hc : c.run db = .ok (sum, db')) : (sum.missing = (db.turnedMissing db').length ∧
      sum.changes = (db.changes.newRows db'.changes).length) ↔ c.CountsApart db := by
  obtain ⟨t, ht⟩ := ApplyCall.traced hc
  have hinv := hr.inventory h0
  have hrec := hr.recorded h0
  have hinv' := ApplyCall.inventory hc hinv
  have hlog := ht.logged.newRows_filter_eq_iff (p := fun _ => true) fun _ _ _ _ _ h => h
  simp only [List.filter_true] at hlog
  have hfree : ∀ r ∈ attempts c.snapshot (orNow c.snapshot.completedAt c.clock) t.sights t.links t.losses,
      ∀ x ∈ db.changes, x.slot ≠ r.slot := fun r hr' => ht.free hinv.toWf (hr.journaled h0) hr'
  rw [ht.missing_exact_iff hrec hinv hinv', ht.changes_count, eq_comm (b := (db.changes.newRows db'.changes).length),
    hlog, and_iff_left hfree, ht.slots_iff hinv.toWf, ht.losses_apart hrec hinv.toWf, ht.newLinks_apart,
    ht.disputes_apart]
  constructor
  · rintro ⟨hlosses, hdisputes, hadds, -⟩
    exact ⟨hlosses, hadds, hdisputes⟩
  · intro hcounts
    exact ⟨hcounts.losses, hcounts.disputes, hcounts.additions, hcounts.losses⟩

end

theorem runs_counters_first : ∃ sum db', @ApplyCall.run toy firstCall emptyDb = .ok (sum, db') ∧ sum.changes = 3 ∧
    sum.missing = (emptyDb.turnedMissing db').length ∧
    sum.changes = (emptyDb.changes.newRows db'.changes).length := by
  have hok : succeeds firstCall emptyDb (fun out => decide (out.1.changes = 3)) = true := by decide +kernel
  obtain ⟨sum, db', hrun, hchanges⟩ := run_of_succeeds hok
  refine ⟨sum, db', hrun, of_decide_eq_true hchanges,
    (@runs_counters_iff toy _ _ _ _ _ _ emptyDb_inventory (@Runs.nil toy _) hrun).mpr
      (@ApplyCall.CountsApart.mk toy _ _ ?_ ?_ ?_)⟩
  · exact fun i hi => absurd hi (Table.not_mem_empty i)
  · intro r hr r' hr' _ _ _
    rw [List.mem_singleton.mp hr, List.mem_singleton.mp hr']
  · -- the two observations lead to two assets
    intro pre o mid o' post a hassets hlead hlead'
    have hleads : @ApplyCall.leads toy firstCall emptyDb "app" ≠ @ApplyCall.leads toy firstCall emptyDb "db" := by
      decide +kernel
    have hsplit : pre = [] ∧ mid = [] := by
      have hlen := congrArg List.length hassets
      simp only [List.length_append, List.length_cons] at hlen
      have : firstCall.snapshot.assets.length = 2 := rfl
      exact ⟨List.length_eq_zero_iff.mp (by omega), List.length_eq_zero_iff.mp (by omega)⟩
    obtain ⟨rfl, rfl⟩ := hsplit
    obtain ⟨rfl, hrest⟩ := List.cons.inj hassets
    obtain ⟨rfl, -⟩ := List.cons.inj hrest
    exact absurd (hlead.trans hlead'.symm) hleads

def twiceCall : ApplyCall :=
  callOf (snapshotOf "first" "one" [appSeen "app" "production", appSeen "app-alias" "production"] [])

/-- One asset goes MISSING with one change row; both are counted twice. -/
theorem missing_counted_twice : @Runs toy emptyDb [twiceCall] (replayed [twiceCall]) ∧
    ∃ sum db', @ApplyCall.run toy emptyCall (replayed [twiceCall]) = .ok (sum, db') ∧
      sum.missing = 2 ∧ ((replayed [twiceCall]).turnedMissing db').length = 1 ∧
      sum.changes = 2 ∧ ((replayed [twiceCall]).changes.newRows db'.changes).length = 1 := by
  refine ⟨runs_replayed (by decide +kernel), ?_⟩
  have hok : succeeds emptyCall (replayed [twiceCall]) (fun out =>
      decide (out.1.missing = 2 ∧ ((replayed [twiceCall]).turnedMissing out.2).length = 1 ∧
        out.1.changes = 2 ∧ ((replayed [twiceCall]).changes.newRows out.2.changes).length = 1)) = true := by
    decide +kernel
  obtain ⟨sum, db', hrun, hcounts⟩ := run_of_succeeds hok
  exact ⟨sum, db', hrun, of_decide_eq_true hcounts⟩

end Infragraph
