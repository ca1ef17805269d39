import Infragraph.Sanity.Resolution

/-! What the body of the asset loop does to the tables and the counters: resolution
of the asset, the identity, strong identity and claim rows, the status at the end, and
the change rows. -/

namespace Infragraph

open Relational ReadCommitted Prog

variable {org a : String} {l : List (String × String)} {t : Time} {s : SnapshotEnvelope} {order : MapOrder}
  {o : Observation} {sum sum' : Summary} {u : Unit} {db db' : Db}

def Db.effectiveRow (db : Db) (r : AssetRow) : AssetRow :=
  let display := db.effectiveValue r.organizationID r.id ["name", "hostname", "display_name"]
  { r with environment := (db.effectiveValue r.organizationID r.id ["environment"]).or r.environment
           displayName := orKeep display r.displayName
           canonicalName := orKeep display r.canonicalName
           status := if db.conflict r.organizationID r.id then .conflicting else .active }

theorem run_updateEffectiveAsset {conflict : Bool} (h : (updateEffectiveAsset org a).run db = .ok (conflict, db')) :
    conflict = db.conflict org a ∧ db' = { db with assets := db'.assets } ∧
      ∀ k, db'.assets.get k = (db.assets.get k).map fun r =>
        if r.id = a ∧ r.organizationID = org then db.effectiveRow r else r := by
  simp only [updateEffectiveAsset, run_bind_ok] at h
  obtain ⟨env, d₁, h1, disp, d₂, h2, con, d₃, h3, rs, d₄, h4, h5⟩ := h
  obtain ⟨rfl, rfl⟩ := run_select_ok.mp h1
  obtain ⟨rfl, rfl⟩ := run_select_ok.mp h2
  obtain ⟨rfl, rfl⟩ := run_select_ok.mp h3
  cases h5
  obtain ⟨hframe, hget⟩ := run_updateAsset (by exact fun _ => rfl) h4
  refine ⟨rfl, hframe, fun k => ?_⟩
  rw [hget]
  congr 1
  funext r
  by_cases hr : r.id = a ∧ r.organizationID = org
  · obtain ⟨rfl, rfl⟩ := hr
    simp [Db.effectiveRow]
  · have : ¬ (r.id = a ∧ r.organizationID = org ∧ true = true) := fun hc => hr ⟨hc.1, hc.2.1⟩
    rw [if_neg hr, if_neg this]

section

variable [Hashes]

/-- Strong identities after a binding loop for the asset `a`. -/
structure Bound (org a : String) (l : List (String × String)) (t t' : Table StrongIdentityRow.key) : Prop where
  bound : ∀ e ∈ l, ∃ x, t'.get (org, e.1, e.2) = some x ∧ x.assetID = a
  kept : ∀ k x, t.get k = some x → ∃ x', t'.get k = some x' ∧ x'.assetID = x.assetID
  origin : ∀ k x', t'.get k = some x' → (∃ x, t.get k = some x ∧ x.assetID = x'.assetID) ∨
    (k.1 = org ∧ x'.assetID = a)

omit [Hashes] in
theorem run_bindStrong (h : (bindStrong org a t l).run db = .ok (u, db')) :
    db' = { db with strongIdentities := db'.strongIdentities } ∧
      Bound org a l db.strongIdentities db'.strongIdentities ∧
      ∀ e : String × String, db'.strongAssetOf org e.1 e.2 =
        if e ∈ l then some a else db.strongAssetOf org e.1 e.2 := by
  refine run_foldlM (fun pre _ d => d = { db with strongIdentities := d.strongIdentities } ∧
      Bound org a pre db.strongIdentities d.strongIdentities ∧ ∀ e : String × String, d.strongAssetOf org e.1 e.2 =
        if e ∈ pre then some a else db.strongAssetOf org e.1 e.2) h ⟨rfl, ⟨by simp, ?_, ?_⟩, by simp⟩ ?_
  · exact fun k x hx => ⟨x, hx, rfl⟩
  · exact fun k x hx => .inl ⟨x, hx, rfl⟩
  rintro pre e post _ d _ d' - ⟨hd, hb, hall⟩ hrun
  simp only [run_bind_ok] at hrun
  obtain ⟨resolved, d₁, h1, h2⟩ := hrun
  obtain ⟨x, rfl, hkey, rfl, hx⟩ := run_upsertStrongIdentity h1
  obtain ⟨hxa, rfl⟩ := run_failIf_ok.mp h2
  rw [not_not] at hxa
  have hkey : x.key = (org, e.1, e.2) := hkey
  refine ⟨by rw [hd], ⟨?_, fun k y hy => ?_, fun k y hy => ?_⟩, fun e' => ?_⟩
  · intro e' he'
    by_cases hk : x.key = (org, e'.1, e'.2)
    · exact ⟨x, by rw [← hk]; exact Table.get_put_self _ _, hxa⟩
    · rcases List.mem_append.mp he' with he' | he'
      · rw [Table.get_put_of_ne _ hk]
        exact hb.bound e' he'
      · rw [List.mem_singleton.mp he'] at hk
        exact absurd hkey hk
  · obtain ⟨y', hy', hya⟩ := hb.kept k y hy
    by_cases hk : x.key = k
    · refine ⟨x, by rw [← hk]; exact Table.get_put_self _ _, ?_⟩
      rw [← hk, hkey] at hy'
      rcases hx with ⟨old, hold, rfl⟩ | ⟨hnone, -⟩
      · cases Option.some.inj (hy'.symm.trans hold)
        exact hya
      · cases hy'.symm.trans hnone
    · exact ⟨y', by rw [Table.get_put_of_ne _ hk]; exact hy', hya⟩
  · rw [Table.get_put] at hy
    split_ifs at hy with hk
    · cases hy
      right
      exact ⟨by rw [← hk, hkey], hxa⟩
    · exact hb.origin k y hy
  · have hput : ({ d with strongIdentities := d.strongIdentities.put x } : Db).strongAssetOf org e'.1 e'.2 =
        if e = e' then some a else d.strongAssetOf org e'.1 e'.2 := by
      rw [Db.strongAssetOf, Table.get_put, apply_ite (Option.map _), Option.map_some, hxa, hkey]
      simp [Prod.ext_iff, Db.strongAssetOf]
    rw [hput, hall]
    by_cases he : e = e'
    · simp [he]
    · simp [he, Ne.symm he]

/-- The claims a connector no longer makes are those it makes anew. -/
def ClaimRow.superseded (org a connector : String) (keys : List String) (c : ClaimRow) : ClaimRow :=
  if c.organizationID = org ∧ c.assetID = a ∧ c.connectorID = connector ∧ c.active = true ∧
    c.attributeKey ∈ keys then { c with active := false } else c

omit [Hashes] in
theorem superseded_append (org a connector key : String) (keys : List String) (c : ClaimRow) :
    (c.superseded org a connector (keys ++ [key])) =
      let c' := c.superseded org a connector keys
      if c'.organizationID = org ∧ c'.assetID = a ∧ c'.connectorID = connector ∧
        c'.attributeKey = key ∧ c'.active = true then { c' with active := false } else c' := by
  unfold ClaimRow.superseded
  by_cases hkeys : c.attributeKey ∈ keys
  · by_cases hc : c.organizationID = org ∧ c.assetID = a ∧ c.connectorID = connector ∧ c.active = true
    · simp [hc, hkeys]
    · have h1 : ¬ (c.organizationID = org ∧ c.assetID = a ∧ c.connectorID = connector ∧ c.active = true ∧
          c.attributeKey ∈ keys) := fun h => hc ⟨h.1, h.2.1, h.2.2.1, h.2.2.2.1⟩
      have h2 : ¬ (c.organizationID = org ∧ c.assetID = a ∧ c.connectorID = connector ∧
          c.attributeKey = key ∧ c.active = true) := fun h => hc ⟨h.1, h.2.1, h.2.2.1, h.2.2.2.2⟩
      have h3 : ¬ (c.organizationID = org ∧ c.assetID = a ∧ c.connectorID = connector ∧ c.active = true ∧
          c.attributeKey ∈ keys ++ [key]) := fun h => hc ⟨h.1, h.2.1, h.2.2.1, h.2.2.2.1⟩
      simp only [if_neg h1, if_neg h2, if_neg h3]
  · simp only [hkeys, and_false, ite_false, List.mem_append, List.mem_singleton, false_or]
    refine ite_congr (propext ?_) (fun _ => rfl) fun _ => rfl
    tauto

theorem run_recordClaims {l : List (String × Json)} (hl : (l.map Prod.fst).Nodup)
    (h : (recordClaims s o a t l).run db = .ok (u, db')) : db' = { db with claims := db'.claims } ∧
      ∀ c, c ∈ db'.claims ↔
        (∃ e ∈ l, c = claimRow s o a t (db.authority s.organizationID s.connectorID o.assetType e.1) e) ∨
        ∃ c₀ ∈ db.claims, c₀.superseded s.organizationID a s.connectorID (l.map Prod.fst) = c := by
  refine run_foldlM (fun pre _ d => d = { db with claims := d.claims } ∧ ∀ c, c ∈ d.claims ↔
      (∃ e ∈ pre, c = claimRow s o a t (db.authority s.organizationID s.connectorID o.assetType e.1) e) ∨
      ∃ c₀ ∈ db.claims, c₀.superseded s.organizationID a s.connectorID (pre.map Prod.fst) = c)
    h ⟨rfl, by simp [ClaimRow.superseded]⟩ ?_
  rintro pre e post _ d _ d' hpre ⟨hd, hmem⟩ hrun
  simp only [run_bind_ok] at hrun
  obtain ⟨u1, d₁, h1, rs, d₂, h2, authority, d₃, h3, h4⟩ := hrun
  obtain ⟨-, rfl⟩ := run_failIf_ok.mp h1
  obtain ⟨hd₂, hget⟩ := run_deactivate h2
  obtain ⟨rfl, rfl⟩ := run_select_ok.mp h3
  obtain ⟨hfresh, rfl⟩ := run_insertClaim h4
  have hauth : d₃.authority s.organizationID s.connectorID o.assetType e.1 =
      db.authority s.organizationID s.connectorID o.assetType e.1 := by
    rw [hd₂, hd]
    rfl
  refine ⟨by rw [hd₂, hd], fun c => ?_⟩
  rw [hauth] at hfresh ⊢
  rw [Table.mem_put_fresh hfresh, Table.mem_of_get_map (by intro c; split_ifs <;> rfl) hget]
  -- keys are distinct, so a claim written earlier in the loop is not one this key supersedes
  have hfst : e.1 ∉ pre.map Prod.fst := by
    rw [hpre, List.map_append, List.nodup_append] at hl
    exact fun hm => hl.2.2 e.1 hm e.1 (.head _) rfl
  constructor
  · rintro (rfl | ⟨c₁, hc₁, rfl⟩)
    · exact .inl ⟨e, by simp, rfl⟩
    · rcases (hmem c₁).mp hc₁ with ⟨e', he', rfl⟩ | ⟨c₀, hc₀, rfl⟩
      · have hne : e'.1 ≠ e.1 := fun he => hfst (he ▸ List.mem_map_of_mem he')
        exact .inl ⟨e', List.mem_append_left _ he', by simp [claimRow, hne]⟩
      · refine .inr ⟨c₀, hc₀, ?_⟩
        rw [List.map_append, List.map_singleton, superseded_append]
        simp
  · rintro (⟨e', he', rfl⟩ | ⟨c₀, hc₀, rfl⟩)
    · rcases List.mem_append.mp he' with he' | he'
      · have hne : e'.1 ≠ e.1 := fun he => hfst (he ▸ List.mem_map_of_mem he')
        exact .inr ⟨_, (hmem _).mpr (.inl ⟨e', he', rfl⟩), by simp [claimRow, hne]⟩
      · rw [List.mem_singleton.mp he']
        exact .inl rfl
    · refine .inr ⟨_, (hmem _).mpr (.inr ⟨c₀, hc₀, rfl⟩), ?_⟩
      rw [List.map_append, List.map_singleton, superseded_append]
      simp

/-- What the asset loop persists for one observation, resolved to the asset `a`. -/
structure Recorded (s : SnapshotEnvelope) (o : Observation) (t : Time) (db db' : Db) (a : String) : Prop where
  frame : db' = { db with assets := db'.assets, sourceIdentities := db'.sourceIdentities
                          strongIdentities := db'.strongIdentities
                          observations := db'.observations, claims := db'.claims
                          changes := db'.changes }
  others : ∀ k, k ≠ a → db'.assets.get k = db.assets.get k
  known : ∀ i, db.sourceIdentities.get (s.organizationID, s.connectorID, o.externalID) = some i →
    i.assetID = a
  identity : ∃ i, db'.sourceIdentities = db.sourceIdentities.put i ∧
    i.key = (s.organizationID, s.connectorID, o.externalID) ∧ i.assetID = a ∧ i.status = .active ∧
    i.consecutiveAbsences = 0
  bound : Bound s.organizationID a (strongIdentities o) db.strongIdentities db'.strongIdentities
  observation : db'.observations = db.observations.put (observationRow s o t)
  fresh : db.observations.get (observationRow s o t).id = none
  claims : ∀ c, c ∈ db'.claims ↔
    (∃ e ∈ o.attributes.entries,
      c = claimRow s o a t (db.authority s.organizationID s.connectorID o.assetType e.1) e) ∨
    ∃ c₀ ∈ db.claims,
      c₀.superseded s.organizationID a s.connectorID (o.attributes.entries.map Prod.fst) = c

/-- The asset at the end of the loop body, its status settled by its claims. -/
structure Observed (s : SnapshotEnvelope) (o : Observation) (t : Time) (db db' : Db) (a : String)
    (created : Bool) : Prop extends Recorded s o t db db' a where
  asset : ∃ r, db'.assets.get a = some r ∧ r.organizationID = s.organizationID ∧
    r.status = if db'.conflict s.organizationID a then .conflicting else .active
  org : ∀ r, db.assets.get a = some r → r.organizationID = s.organizationID
  created : created = true ↔ db.assets.get a = none
  nonempty : db.assets.get a = none → a ≠ ""

omit [Hashes] in
theorem superseded_perm {connector : String} {keys keys' : List String} (h : keys.Perm keys')
    (c : ClaimRow) : c.superseded org a connector keys = c.superseded org a connector keys' := by
  unfold ClaimRow.superseded
  simp only [h.mem_iff]

theorem run_recordObservation
    (hknown : ∀ i, db.sourceIdentities.get (s.organizationID, s.connectorID, o.externalID) = some i →
      i.assetID = a)
    (h : (recordObservation order s o a t).run db = .ok (u, db')) :
    Recorded s o t db db' a ∧
      db' = { db with sourceIdentities := db'.sourceIdentities, strongIdentities := db'.strongIdentities
                      observations := db'.observations, claims := db'.claims } ∧
      ∀ e, (db'.bindings s).strong e = if e ∈ strongIdentities o then some a else (db.bindings s).strong e := by
  simp only [recordObservation, run_bind_ok] at h
  obtain ⟨u1, d₁, h1, u2, d₂, h2, u3, d₃, h3, h4⟩ := h
  obtain ⟨i, rfl, hkey, hi⟩ := run_upsertSourceIdentity h1
  obtain ⟨hd₂, hbound, hstrong⟩ := run_bindStrong h2
  obtain ⟨hfresh, -, rfl⟩ := run_insertObservation h3
  have hperm := order.attributes_perm o.externalID o.attributes.entries
  obtain ⟨hd₄, hclaims⟩ := run_recordClaims ((hperm.map Prod.fst).nodup_iff.mpr o.attributes.nodup) h4
  have hbind := order.bind_perm o.externalID (strongIdentities o)
  refine ⟨⟨by rw [hd₄, hd₂], fun k _ => by rw [hd₄, hd₂], hknown, ⟨i, by rw [hd₄, hd₂], hkey, ?_⟩, ?_,
    by rw [hd₄, hd₂], by rw [hd₂] at hfresh; exact hfresh, fun c => ?_⟩, by rw [hd₄, hd₂], fun e => ?_⟩
  · rcases hi with ⟨old, hold, rfl⟩ | ⟨-, rfl⟩
    · exact ⟨hknown old hold, rfl, rfl⟩
    · exact ⟨rfl, rfl, rfl⟩
  · rw [hd₄]
    exact ⟨fun e he => hbound.bound e (hbind.mem_iff.mpr he), hbound.kept, hbound.origin⟩
  · rw [hclaims c, hd₂]
    refine or_congr ⟨?_, ?_⟩ ⟨?_, ?_⟩
    · rintro ⟨e, he, rfl⟩
      exact ⟨e, hperm.mem_iff.mp he, rfl⟩
    · rintro ⟨e, he, rfl⟩
      exact ⟨e, hperm.mem_iff.mpr he, rfl⟩
    · rintro ⟨c₀, hc₀, rfl⟩
      exact ⟨c₀, hc₀, (superseded_perm (hperm.map Prod.fst) c₀).symm⟩
    · rintro ⟨c₀, hc₀, rfl⟩
      exact ⟨c₀, hc₀, superseded_perm (hperm.map Prod.fst) c₀⟩
  · have hget := hstrong e
    simp only [hbind.mem_iff] at hget
    rw [hd₄]
    exact hget

structure Sight where
  observation : Observation
  asset : String
  kind : Sighting
  conflict : Bool

def Sight.rows (s : SnapshotEnvelope) (x : Sight) : List ChangeRow :=
  x.kind.rows s x.asset ++ (if x.conflict then [conflictRow s x.asset] else []) ++
    if x.kind = .created then [discoveredRow s x.observation x.asset] else []

def Sight.count (s : SnapshotEnvelope) (x : Sight) (sum : Summary) : Summary :=
  { x.kind.count sum with conflicting := sum.conflicting + x.conflict.toNat
                          changes := sum.changes + (x.rows s).length }

theorem run_recordConflict {conflict : Bool} (h : (recordConflict s a conflict sum).run db = .ok (sum', db')) :
    db' = { db with changes := db'.changes } ∧
      sum' = { sum with conflicting := sum.conflicting + conflict.toNat, changes := sum.changes + conflict.toNat } ∧
      Logged ChangeRow.slot db.changes (if conflict then [conflictRow s a] else []) db'.changes := by
  cases conflict with
  | false =>
    cases h
    exact ⟨rfl, rfl, .nil⟩
  | true =>
    obtain ⟨u, d, h1, h2⟩ := run_bind_ok.mp h
    cases h2
    exact ⟨(run_insertChange h1).1, rfl, (run_insertChange h1).2⟩

theorem run_recordDiscovery {created : Bool} (h : (recordDiscovery s o a created sum).run db = .ok (sum', db')) :
    db' = { db with changes := db'.changes } ∧ sum' = { sum with changes := sum.changes + created.toNat } ∧
      Logged ChangeRow.slot db.changes (if created then [discoveredRow s o a] else []) db'.changes := by
  cases created with
  | false =>
    cases h
    exact ⟨rfl, rfl, .nil⟩
  | true =>
    obtain ⟨u, d, h1, h2⟩ := run_bind_ok.mp h
    cases h2
    exact ⟨(run_insertChange h1).1, rfl, (run_insertChange h1).2⟩

/-- The counters of one turn, added up. -/
theorem Sight.count_eq (x : Sight) (sum : Summary) : x.count s sum =
    { x.kind.count sum with
      conflicting := (x.kind.count sum).conflicting + x.conflict.toNat
      changes := (x.kind.count sum).changes + x.conflict.toNat + (decide (x.kind = .created)).toNat } := by
  unfold Sight.count Sight.rows
  cases hk : x.kind <;> cases hc : x.conflict <;>
    simp [Sighting.count, Sighting.rows, Nat.add_assoc]

def Progress.after (s : SnapshotEnvelope) (st : Progress) (x : Sight) : Progress where
  assets := (x.observation.externalID, x.asset) :: st.assets
  seenAssets := x.observation.externalID :: st.seenAssets
  summary := x.count s st.summary

structure Turn (s : SnapshotEnvelope) (now : Time) (db : Db) (x : Sight) (db' : Db) : Prop extends
    Recorded s x.observation (orNow x.observation.observedAt now) db db' x.asset where
  sighted : Sighted s x.observation db x.asset x.kind
  disputed : x.conflict = db'.conflict s.organizationID x.asset
  logged : Logged ChangeRow.slot db.changes (x.rows s) db'.changes
  strong : ∀ e, (db'.bindings s).strong e =
    if e ∈ strongIdentities x.observation then some x.asset else (db.bindings s).strong e
  observed : Wf db → ∃ created, Observed s x.observation (orNow x.observation.observedAt now) db db'
    x.asset created

variable {now : Time} {st st' : Progress}

section

variable (h : (observe order s now st o).run db = .ok (st', db'))
include h

/-- The parts of the loop body: the asset is resolved, the observation recorded, and
from its claims the row is written anew. -/
theorem observe_ok : assetTypeLabels.lookup o.assetType ≠ none ∧ o.externalID ∉ st.seenAssets ∧
      ∃ a created sum₁ d₄ u d₅,
        (resolveAsset order s o (orNow o.observedAt now) st.summary).run db = .ok ((a, created, sum₁), d₄) ∧
        (recordObservation order s o a (orNow o.observedAt now)).run d₄ = .ok (u, d₅) ∧
        db' = { d₅ with assets := db'.assets, changes := db'.changes } ∧
        (∀ k, db'.assets.get k = (d₅.assets.get k).map fun r =>
          if r.id = a ∧ r.organizationID = s.organizationID then d₅.effectiveRow r else r) ∧
        st' = ⟨(o.externalID, a) :: st.assets, o.externalID :: st.seenAssets,
          { sum₁ with
            conflicting := sum₁.conflicting + (d₅.conflict s.organizationID a).toNat
            changes := sum₁.changes + (d₅.conflict s.organizationID a).toNat + created.toNat }⟩ ∧
        Logged ChangeRow.slot d₅.changes ((if d₅.conflict s.organizationID a then [conflictRow s a] else []) ++
          if created then [discoveredRow s o a] else []) db'.changes := by
  simp only [observe, run_bind_ok] at h
  obtain ⟨u1, d₁, h1, u2, d₂, h2, u3, d₃, h3, ⟨a, created, sum₁⟩, d₄, h4, u5, d₅, h5, conflict, d₆, h6,
    sum₂, d₇, h7, sum₃, d₈, h8, h9⟩ := h
  obtain ⟨-, rfl⟩ := run_failIf_ok.mp h1
  obtain ⟨htype, rfl⟩ := run_failIf_ok.mp h2
  obtain ⟨hseen, rfl⟩ := run_failIf_ok.mp h3
  obtain ⟨rfl, hd₆, heff⟩ := run_updateEffectiveAsset h6
  obtain ⟨hd₇, rfl, hlog₂⟩ := run_recordConflict h7
  obtain ⟨hd₈, rfl, hlog₃⟩ := run_recordDiscovery h8
  cases h9
  refine ⟨fun hnone => htype (by rw [hnone]; rfl), hseen, a, created, sum₁, d₄, u5, d₅, h4, h5, by rw [hd₈, hd₇, hd₆],
    fun k => ?_, rfl, ?_⟩
  · rw [hd₈, hd₇]
    exact heff k
  · rw [hd₆] at hlog₂
    exact hlog₂.append hlog₃

theorem run_observe_turn : ∃ x : Sight, x.observation = o ∧ st' = st.after s x ∧ Turn s now db x db' := by
  obtain ⟨-, -, a, created, sum₁, d₄, u, d₅, h4, h5, hall, hget, rfl, hlog⟩ := observe_ok h
  obtain ⟨hres, hplaced, k, hsighted, rfl, rfl, hlog₁, -⟩ := run_resolveAsset h4
  obtain ⟨hrec₅, hd₅, hstrong⟩ := run_recordObservation (by rw [hres.frame]; exact hres.known) h5
  have hassets : d₅.assets = d₄.assets := by rw [hd₅]
  have hchanges : d₅.changes = d₄.changes := by rw [hd₅]
  have hrec : Recorded s o (orNow o.observedAt now) db db' a := by
    obtain ⟨-, -, -, hident, hbound, hobs, hfresh, hclaims⟩ := hrec₅
    rw [hres.frame] at hident hbound hobs hfresh hclaims
    refine ⟨by rw [hall, hd₅, hres.frame], fun k hk => ?_, hres.known, ?_, ?_, ?_, hfresh, ?_⟩
    · rw [hget, hassets, hres.others k hk]
      cases hg : db.assets.get k with
      | none => rfl
      | some x => rw [Option.map_some, if_neg fun hx => hk ((Table.key_of_get hg).symm.trans hx.1)]
    · rw [hall]
      exact hident
    · rw [hall]
      exact hbound
    · rw [hall]
      exact hobs
    · rw [hall]
      exact hclaims
  have hconflict : d₅.conflict s.organizationID a = db'.conflict s.organizationID a := by
    rw [hall]
    rfl
  let x : Sight := ⟨o, a, k, d₅.conflict s.organizationID a⟩
  refine ⟨x, rfl, ?_, hrec, hsighted, hconflict, ?_, fun e => ?_, fun hwf => ⟨decide (k = .created), ?_⟩⟩
  · rw [Progress.after, x.count_eq st.summary]
  · rw [hchanges] at hlog
    have hrows := hlog₁.append hlog
    simpa [x, Sight.rows] using hrows
  · have hbind := hstrong e
    rw [hres.frame] at hbind
    rw [hall]
    exact hbind
  · obtain ⟨⟨r, hr, horg, -⟩, hplace, hcreated, hne⟩ := hplaced hwf
    have hid : r.id = a := Table.key_of_get hr
    refine ⟨hrec, ⟨d₅.effectiveRow r, by rw [hget, hassets, hr, Option.map_some, if_pos ⟨hid, horg⟩], horg, ?_⟩,
      hplace, hcreated, hne⟩
    rw [← hconflict]
    simp only [Db.effectiveRow, hid, horg]

theorem run_observe : o.externalID ∉ st.seenAssets ∧ st'.seenAssets = o.externalID :: st.seenAssets ∧
      ∃ a created, st'.assets = (o.externalID, a) :: st.assets ∧
        Recorded s o (orNow o.observedAt now) db db' a ∧
        (Wf db → Observed s o (orNow o.observedAt now) db db' a created) := by
  obtain ⟨x, rfl, rfl, hturn⟩ := run_observe_turn h
  refine ⟨(observe_ok h).2.1, rfl, x.asset, decide (db.assets.get x.asset = none), rfl, hturn.toRecorded, fun hwf => ?_⟩
  obtain ⟨created, hobs⟩ := hturn.observed hwf
  exact ⟨hobs.toRecorded, hobs.asset, hobs.org, decide_eq_true_iff, hobs.nonempty⟩

end

end

end Infragraph
