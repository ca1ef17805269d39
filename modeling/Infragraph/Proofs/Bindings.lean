import Infragraph.Sanity.Apply

/-! Identity stability. A binding is made once: neither upsert sets `asset_id`
of an existing row. So what one call bound is bound the same way after every
later one, and two observations that share a strong identity share the asset. -/

namespace Infragraph

open Relational ReadCommitted Prog

variable {db db' : Db}

theorem Kept.assetOf (h : Kept db db') {org connector external a : String}
    (ha : db.assetOf org connector external = some a) : db'.assetOf org connector external = some a := by
  obtain ⟨i, hi, rfl⟩ := Option.map_eq_some_iff.mp ha
  obtain ⟨i', hi', he⟩ := h.identity _ i hi
  rw [Db.assetOf, hi', Option.map_some, he]

theorem Kept.strongAssetOf (h : Kept db db') {org key value a : String}
    (ha : db.strongAssetOf org key value = some a) : db'.strongAssetOf org key value = some a := by
  obtain ⟨x, hx, rfl⟩ := Option.map_eq_some_iff.mp ha
  obtain ⟨x', hx', he⟩ := h.strong _ x hx
  rw [Db.strongAssetOf, hx', Option.map_some, he]

section

variable [Hashes]

theorem Runs.kept {h : List ApplyCall} (hr : Runs db h db') : Kept db db' := by
  refine hr.invariant (I := Kept db) (Kept.refl db) (fun d d' c sum hd hc => ?_) fun d p sn cn cl cr a hd => ?_
  · obtain ⟨st, d₁, d₂, d₃, sum₂, happ⟩ := ApplyCall.run_ok hc
    obtain ⟨h1, h2⟩ := happ.kept
    exact hd.trans (h1.trans h2)
  · exact hd.trans (Kept.same rfl rfl)

section

variable {c : ApplyCall} {o : Observation} (ho : o ∈ c.snapshot.assets) {e : String × String}
  (he : e ∈ strongIdentities o)
include ho he

/-- After a call every strong identity of an observation leads to the asset its
external ID leads to. -/
theorem ApplyCall.bound {sum : Summary} (hc : c.run db = .ok (sum, db')) :
    ∃ a, db'.assetOf c.snapshot.organizationID c.snapshot.connectorID o.externalID = some a ∧
      db'.strongAssetOf c.snapshot.organizationID e.1 e.2 = some a := by
  obtain ⟨st, d₁, d₂, d₃, sum₂, happ⟩ := ApplyCall.run_ok hc
  obtain ⟨i, x, hi, hx, hxi⟩ := (run_assets happ.observe rfl).bound o ho e he
  have hkept := happ.kept.2
  refine ⟨i.assetID, hkept.assetOf ?_, hkept.strongAssetOf ?_⟩
  · rw [Db.assetOf, hi, Option.map_some]
  · rw [Db.strongAssetOf, hx, Option.map_some, hxi]

theorem Runs.bound {h : List ApplyCall} (hr : Runs db h db') (hc : c ∈ h) :
    ∃ a, db'.assetOf c.snapshot.organizationID c.snapshot.connectorID o.externalID = some a ∧
      db'.strongAssetOf c.snapshot.organizationID e.1 e.2 = some a := by
  induction hr with
  | nil => cases hc
  | @succeed h d c' sum d' hr hrun ih =>
    rcases List.mem_append.mp hc with hc | hc
    · obtain ⟨a, ha, hx⟩ := ih hc
      have hkept := (Runs.nil.succeed hrun).kept
      exact ⟨a, hkept.assetOf ha, hkept.strongAssetOf hx⟩
    · rw [List.mem_singleton.mp hc] at ho ⊢
      exact ApplyCall.bound ho he hrun
  | fail _ _ ih => exact ih hc
  | other _ _ _ _ _ _ _ ih => exact ih hc

end

/-- Along any history bindings are stable, every strong identity that was
reported is bound to the asset of the external ID it was reported for, and
observations that share one are bound to one asset. -/
theorem runs_identity_stable {h : List ApplyCall} (hr : Runs db h db') :
    (∀ org connector external a, db.assetOf org connector external = some a →
      db'.assetOf org connector external = some a) ∧
    (∀ org key value a, db.strongAssetOf org key value = some a →
      db'.strongAssetOf org key value = some a) ∧
    (∀ c ∈ h, ∀ o ∈ c.snapshot.assets, ∀ e ∈ strongIdentities o, ∃ a,
      db'.assetOf c.snapshot.organizationID c.snapshot.connectorID o.externalID = some a ∧
      db'.strongAssetOf c.snapshot.organizationID e.1 e.2 = some a) ∧
    ∀ c ∈ h, ∀ c' ∈ h, c.snapshot.organizationID = c'.snapshot.organizationID →
      ∀ o ∈ c.snapshot.assets, ∀ o' ∈ c'.snapshot.assets,
      ∀ e ∈ strongIdentities o, e ∈ strongIdentities o' → ∃ a,
        db'.assetOf c.snapshot.organizationID c.snapshot.connectorID o.externalID = some a ∧
        db'.assetOf c'.snapshot.organizationID c'.snapshot.connectorID o'.externalID = some a := by
  refine ⟨fun _ _ _ _ => hr.kept.assetOf, fun _ _ _ _ => hr.kept.strongAssetOf,
    fun c hc o ho e he => hr.bound ho he hc, fun c hc c' hc' horg o ho o' ho' e he he' => ?_⟩
  obtain ⟨a, ha, hx⟩ := hr.bound ho he hc
  obtain ⟨a', ha', hx'⟩ := hr.bound ho' he' hc'
  rw [horg, hx'] at hx
  cases hx
  exact ⟨_, ha, ha'⟩

end

/-- The application both connectors report, under different external IDs. -/
theorem runs_identity_stable_deployment : ∃ a, (replayed deployment).assetOf "org" "one" "app" = some a ∧
      (replayed deployment).assetOf "org" "two" "other-app" = some a :=
  (@runs_identity_stable _ _ toy _ (runs_replayed replays_deployment)).2.2.2 firstCall
    (.head _) otherCall (.tail _ (.head _)) rfl (appSeen "app" "production") (.head _) (appSeen "other-app" "staging")
    (.head _) ("external_cmdb_id", "shared-app") (by decide +kernel) (by decide +kernel)

end Infragraph
