import Infragraph.Sanity.Statements

/-! Which asset an observation leads to, as a function of the bindings: a known
external ID decides, else the strong identities, else a new asset. Every
observation binds its external ID and its strong identities, so the bindings
after the asset loop are a fold over the snapshot. -/

namespace Infragraph

open Relational ReadCommitted Prog

variable {org a : String} {l : List (String × String)} {t : Time} {s : SnapshotEnvelope} {o : Observation}
  {db db' : Db}

/-- Foreign keys, with the organization on both sides. -/
structure Wf (db : Db) : Prop where
  assetID : ∀ r ∈ db.assets, r.id ≠ ""
  identity : ∀ i ∈ db.sourceIdentities, ∃ r, db.assets.get i.assetID = some r ∧
    r.organizationID = i.organizationID
  strong : ∀ x ∈ db.strongIdentities, ∃ r, db.assets.get x.assetID = some r ∧
    r.organizationID = x.organizationID
  claim : ∀ c ∈ db.claims, ∃ r, db.assets.get c.assetID = some r ∧
    r.organizationID = c.organizationID

/-- The assets that the external IDs of one connector and the strong identities
of its organization are bound to. -/
@[ext] structure Bindings where
  identity : String → Option String
  strong : String × String → Option String

def Db.bindings (db : Db) (s : SnapshotEnvelope) : Bindings where
  identity e := db.assetOf s.organizationID s.connectorID e
  strong e := db.strongAssetOf s.organizationID e.1 e.2

def Bindings.strongAsset (b : Bindings) (o : Observation) : Option String :=
  (strongIdentities o).findSome? fun e => (b.strong e).filter (· ≠ "")

/-- The lookups agree: every identity bound to an asset is bound to the result. -/
theorem run_resolveStrong (h : (resolveStrong org l).run db = .ok (a, db')) : db' = db ∧
    (∀ e ∈ l, ∀ x, db.strongIdentities.get (org, e.1, e.2) = some x → x.assetID ≠ "" → x.assetID = a) ∧
      (a ≠ "" → ∃ e ∈ l, ∃ x, db.strongIdentities.get (org, e.1, e.2) = some x ∧ x.assetID = a) := by
  refine run_foldlM (fun pre b d => d = db ∧
      (∀ e ∈ pre, ∀ x, db.strongIdentities.get (org, e.1, e.2) = some x → x.assetID ≠ "" → x.assetID = b) ∧
      (b ≠ "" → ∃ e ∈ pre, ∃ x, db.strongIdentities.get (org, e.1, e.2) = some x ∧ x.assetID = b))
    h ⟨rfl, by simp, by simp⟩ ?_
  rintro pre e post b d b' d' - ⟨rfl, hall, hex⟩ hrun
  simp only [run_bind_ok] at hrun
  obtain ⟨found, d₁, h1, u, d₂, h2, h3⟩ := hrun
  obtain ⟨rfl, rfl⟩ := run_select_ok.mp h1
  obtain ⟨hagree, rfl⟩ := run_failIf_ok.mp h2
  cases h3
  refine ⟨rfl, ?_⟩
  by_cases hf : ((d'.strongIdentities.get (org, e.1, e.2)).map (·.assetID)).getD "" = ""
  · rw [if_neg (not_not.mpr hf)]
    refine ⟨fun e' he' x hx hne => ?_, fun hb => ?_⟩
    · rcases List.mem_append.mp he' with he' | he'
      · exact hall e' he' x hx hne
      · rw [List.mem_singleton.mp he'] at hx
        rw [hx] at hf
        exact absurd hf hne
    · obtain ⟨e', he', hx⟩ := hex hb
      exact ⟨e', List.mem_append_left _ he', hx⟩
  · rw [if_pos hf]
    obtain ⟨x, hg⟩ : ∃ x, d'.strongIdentities.get (org, e.1, e.2) = some x := by
      rw [← Option.ne_none_iff_exists']
      intro hg
      rw [hg] at hf
      exact hf rfl
    rw [hg] at hf hagree ⊢
    refine ⟨fun e' he' y hy hne => ?_, fun _ => ⟨e, by simp, x, hg, rfl⟩⟩
    rcases List.mem_append.mp he' with he' | he'
    · -- an earlier identity was bound: the accumulated asset is its asset, so the check compared the two
      have hyb := hall e' he' y hy hne
      by_contra hne'
      exact hagree ⟨hf, hyb ▸ hne, fun hxb => hne' (hyb.trans hxb.symm)⟩
    · rw [List.mem_singleton.mp he', hg] at hy
      cases hy
      rfl

theorem run_touchAsset {rs : List Unit} (h : (exec (touchAsset t a org)).run db = .ok (rs, db')) :
    db' = { db with assets := db'.assets } ∧ (∀ k, k ≠ a → db'.assets.get k = db.assets.get k) ∧
      ∀ r, db.assets.get a = some r → r.organizationID = org →
        ∃ r', db'.assets.get a = some r' ∧ r'.organizationID = org ∧ r'.status = .active := by
  obtain ⟨hframe, hget⟩ := run_updateAsset (by exact fun _ => rfl) h
  refine ⟨hframe, fun k hk => ?_, fun r hr horg => ?_⟩
  · rw [hget]
    cases hk' : db.assets.get k with
    | none => rfl
    | some x =>
      have : x.id ≠ a := fun hx => hk ((Table.key_of_get hk').symm.trans hx)
      simp [this]
  · rw [hget, hr]
    have hid : r.id = a := Table.key_of_get hr
    simp [hid, horg]

/-- An observation is resolved to the asset `a`: the one its external ID is
bound to, if there is one. -/
structure Resolved (s : SnapshotEnvelope) (o : Observation) (db db' : Db) (a : String) : Prop where
  frame : db' = { db with assets := db'.assets, changes := db'.changes }
  others : ∀ k, k ≠ a → db'.assets.get k = db.assets.get k
  known : ∀ i, db.sourceIdentities.get (s.organizationID, s.connectorID, o.externalID) = some i →
    i.assetID = a

structure Placed (s : SnapshotEnvelope) (db db' : Db) (a : String) (created : Bool) : Prop where
  asset : ∃ r, db'.assets.get a = some r ∧ r.organizationID = s.organizationID ∧ r.status = .active
  org : ∀ r, db.assets.get a = some r → r.organizationID = s.organizationID
  created : created = true ↔ db.assets.get a = none
  nonempty : db.assets.get a = none → a ≠ ""

section

variable [Hashes]

def Bindings.resolve (b : Bindings) (s : SnapshotEnvelope) (o : Observation) : String :=
  ((b.identity o.externalID).or (b.strongAsset o)).getD
    (stableID "asset" [s.organizationID, s.connectorID, o.externalID])

def Bindings.observe (s : SnapshotEnvelope) (b : Bindings) (o : Observation) : Bindings where
  identity e := if e = o.externalID then some (b.resolve s o) else b.identity e
  strong e := if e ∈ strongIdentities o then some (b.resolve s o) else b.strong e

/-- The bindings once the observations of the list are recorded. -/
def Bindings.after (s : SnapshotEnvelope) (b : Bindings) (l : List Observation) : Bindings :=
  l.foldl (Bindings.observe s) b

theorem Bindings.after_snoc (s : SnapshotEnvelope) (b : Bindings) (l : List Observation) (o : Observation) :
    b.after s (l ++ [o]) = (b.after s l).observe s o := by
  simp [Bindings.after]

omit [Hashes] in
/-- Whatever the order of the lookups, the result is the first asset found. -/
theorem run_resolveStrong_find (hperm : l.Perm (strongIdentities o))
    (h : (resolveStrong s.organizationID l).run db = .ok (a, db')) :
    (db.bindings s).strongAsset o = if a = "" then none else some a := by
  obtain ⟨-, hall, hex⟩ := run_resolveStrong h
  have hfound : ∀ e ∈ strongIdentities o, ∀ b, ((db.bindings s).strong e).filter (· ≠ "") = some b → b = a := by
    intro e he b hb
    obtain ⟨hb, hne⟩ := Option.filter_eq_some_iff.mp hb
    obtain ⟨x, hx, rfl⟩ := Option.map_eq_some_iff.mp hb
    exact hall e (hperm.mem_iff.mpr he) x hx (by simpa using hne)
  unfold Bindings.strongAsset
  split_ifs with ha
  · rw [List.findSome?_eq_none_iff]
    intro e he
    rw [Option.eq_none_iff_forall_ne_some]
    intro b hb
    have hba := hfound e he b hb
    have hne := (Option.filter_eq_some_iff.mp hb).2
    simp [hba, ha] at hne
  · obtain ⟨e, he, x, hx, rfl⟩ := hex ha
    cases hf : (strongIdentities o).findSome? fun e => ((db.bindings s).strong e).filter (· ≠ "") with
    | none =>
      have hnone := List.findSome?_eq_none_iff.mp hf e (hperm.mem_iff.mp he)
      have hsome : (db.bindings s).strong e = some x.assetID := by simp [Db.bindings, Db.strongAssetOf, hx]
      simp [hsome, ha] at hnone
    | some b =>
      obtain ⟨e', he', hb⟩ := List.exists_of_findSome?_eq_some hf
      rw [hfound e' he' b hb]

inductive Sighting where
  /-- a known external ID of an asset that was MISSING or STALE -/
  | returned (prior : AssetStatus)
  | unchanged
  | created
deriving DecidableEq

structure Sighted (s : SnapshotEnvelope) (o : Observation) (db : Db) (a : String) (k : Sighting) : Prop where
  known : ∀ i, db.sourceIdentities.get (s.organizationID, s.connectorID, o.externalID) = some i →
    ∃ r, db.assets.get a = some r ∧ r.organizationID = s.organizationID ∧
      k = if r.status = .missing ∨ r.status = .stale then .returned r.status else .unchanged
  unknown : db.sourceIdentities.get (s.organizationID, s.connectorID, o.externalID) = none →
    (k = .unchanged ∧ (db.bindings s).strongAsset o = some a) ∨
      (k = .created ∧ (db.bindings s).strongAsset o = none ∧ db.assets.get a = none ∧
        a = stableID "asset" [s.organizationID, s.connectorID, o.externalID])

theorem Sighted.resolve {k : Sighting} (h : Sighted s o db a k)
    (hknown : ∀ i, db.sourceIdentities.get (s.organizationID, s.connectorID, o.externalID) = some i →
      i.assetID = a) : (db.bindings s).resolve s o = a := by
  unfold Bindings.resolve
  cases hi : db.sourceIdentities.get (s.organizationID, s.connectorID, o.externalID) with
  | some i => simp [Db.bindings, Db.assetOf, hi, hknown i hi]
  | none =>
    have hnone : (db.bindings s).identity o.externalID = none := by simp [Db.bindings, Db.assetOf, hi]
    rw [hnone, Option.none_or]
    rcases h.unknown hi with ⟨-, hs⟩ | ⟨-, hs, -, ha⟩
    · rw [hs, Option.getD_some]
    · rw [hs, Option.getD_none, ha]

/-- A new asset has the ID of the identity it was created for. -/
theorem Sighted.created_id (h : Sighted s o db a .created) :
    db.sourceIdentities.get (s.organizationID, s.connectorID, o.externalID) = none ∧
      a = stableID "asset" [s.organizationID, s.connectorID, o.externalID] := by
  cases hi : db.sourceIdentities.get (s.organizationID, s.connectorID, o.externalID) with
  | some i =>
    obtain ⟨r, -, -, hkind⟩ := h.known i hi
    split_ifs at hkind
  | none =>
    rcases h.unknown hi with ⟨hkind, -⟩ | ⟨-, -, -, hid⟩
    · cases hkind
    · exact ⟨rfl, hid⟩

theorem stableID_ne_empty (pre : String) (values : List String) : stableID pre values ≠ "" := by
  intro h
  have := congrArg String.length h
  simp [stableID] at this

def Sighting.count : Sighting → Summary → Summary
  | .returned _, sum => { sum with updated := sum.updated + 1, changes := sum.changes + 1 }
  | .unchanged, sum => { sum with unchanged := sum.unchanged + 1 }
  | .created, sum => { sum with created := sum.created + 1 }

def Sighting.rows (s : SnapshotEnvelope) (a : String) : Sighting → List ChangeRow
  | .returned prior => [returnedRow s a prior]
  | _ => []

/-- What `resolveAsset` leaves when it succeeds: the asset, how it was met, and the
change row of one that returns. -/
theorem run_resolveAsset {order : MapOrder} {sum sum' : Summary} {created : Bool}
    (h : (resolveAsset order s o t sum).run db = .ok ((a, created, sum'), db')) :
    Resolved s o db db' a ∧ (Wf db → Placed s db db' a created) ∧
      ∃ k : Sighting, Sighted s o db a k ∧ created = decide (k = .created) ∧ sum' = k.count sum ∧
        Logged ChangeRow.slot db.changes (k.rows s a) db'.changes ∧
        (k = .created → ∃ r, db'.assets.get a = some r ∧ r.organizationID = s.organizationID ∧
          r.canonicalName = observationName o ∧ r.displayName = observationName o) := by
  simp only [resolveAsset, run_bind_ok] at h
  obtain ⟨found, d₁, h1, h⟩ := h
  obtain ⟨rfl, rfl⟩ := run_select_ok.mp h1
  cases hk : d₁.sourceIdentities.get (s.organizationID, s.connectorID, o.externalID) with
  | some i =>
    simp only [hk, Option.map_some, run_bind_ok] at h
    obtain ⟨prior, d₂, h2, rs, d₃, h3, h⟩ := h
    obtain ⟨rfl, r, hr, horg, rfl⟩ := run_selectAssetStatus h2
    obtain ⟨hframe, hothers, hasset⟩ := run_touchAsset h3
    have hchanges : d₃.changes = d₂.changes := by rw [hframe]
    have hresolved : ∀ c, Resolved s o d₂ { d₃ with changes := c } i.assetID :=
      fun c => ⟨by rw [hframe], hothers, fun j hj => by rw [hk] at hj; cases hj; rfl⟩
    have hplaced : ∀ c, Placed s d₂ { d₃ with changes := c } i.assetID false :=
      fun c => ⟨hasset r hr horg, fun r' hr' => by rw [hr] at hr'; cases hr'; exact horg, by simp [hr], by simp [hr]⟩
    have hsighted : Sighted s o d₂ i.assetID
        (if r.status = .missing ∨ r.status = .stale then .returned r.status else .unchanged) :=
      ⟨fun j _ => ⟨r, hr, horg, rfl⟩, fun hnone => by rw [hk] at hnone; cases hnone⟩
    split_ifs at h with hprior
    · obtain ⟨u, d₄, h4, h5⟩ := run_bind_ok.mp h
      cases h5
      obtain ⟨hd₄, hlog⟩ := run_insertChange h4
      rw [hchanges] at hlog
      rw [if_pos hprior] at hsighted
      rw [hd₄]
      exact ⟨hresolved _, fun _ => hplaced _, .returned r.status, hsighted, by simp, rfl, hlog, by simp⟩
    · cases h
      rw [if_neg hprior] at hsighted
      exact ⟨hresolved _, fun _ => hplaced _, .unchanged, hsighted, by simp, rfl, hchanges ▸ .nil, by simp⟩
  | none =>
    simp only [hk, Option.map_none, run_bind_ok] at h
    obtain ⟨resolved, d₂, h2, h⟩ := h
    have hfind := run_resolveStrong_find (order.resolve_perm _ _) h2
    obtain ⟨rfl, -, hex⟩ := run_resolveStrong h2
    have hknown : ∀ i, d₂.sourceIdentities.get (s.organizationID, s.connectorID, o.externalID) ≠ some i := by
      simp [hk]
    by_cases hres : resolved = ""
    · rw [if_pos hres, run_bind_ok] at h
      rw [if_pos hres] at hfind
      obtain ⟨u, d₃, h3, h4⟩ := h
      cases h4
      obtain ⟨hfresh, rfl⟩ := run_insertAsset h3
      refine ⟨⟨rfl, fun k hk' => Table.get_put_of_ne _ hk'.symm, fun i hi => absurd hi (hknown i)⟩, fun _ =>
        ⟨⟨_, Table.get_put_self _ _, rfl, rfl⟩, fun r hr => absurd (hfresh.symm.trans hr) (by simp), by simp [hfresh],
          fun _ => stableID_ne_empty _ _⟩, .created, ⟨fun i hi => absurd hi (hknown i), fun _ => ?_⟩, by simp, rfl,
        .nil, fun _ => ⟨_, Table.get_put_self _ _, rfl, rfl, rfl⟩⟩
      exact .inr ⟨rfl, hfind, hfresh, rfl⟩
    · rw [if_neg hres, run_bind_ok] at h
      rw [if_neg hres] at hfind
      obtain ⟨rs, d₃, h3, h4⟩ := h
      cases h4
      obtain ⟨hframe, hothers, hasset⟩ := run_touchAsset h3
      have hchanges : db'.changes = d₂.changes := by rw [hframe]
      refine ⟨⟨by rw [hframe], hothers, fun i hi => absurd hi (hknown i)⟩, fun hwf => ?_, .unchanged,
        ⟨fun i hi => absurd hi (hknown i), fun _ => .inl ⟨rfl, hfind⟩⟩, by simp, rfl, hchanges ▸ .nil, by simp⟩
      -- a strong identity led to the asset, so the row is there
      obtain ⟨e, -, x, hx, hxa⟩ := hex hres
      obtain ⟨r, hr, horg⟩ := hwf.strong x (Table.mem_of_get hx)
      have hxorg : x.organizationID = s.organizationID := congrArg Prod.fst (Table.key_of_get hx)
      rw [hxa] at hr
      refine ⟨hasset r hr (horg.trans hxorg), fun r' hr' => ?_, by simp [hr], by simp [hr]⟩
      rw [hr] at hr'
      cases hr'
      exact horg.trans hxorg

end

end Infragraph
