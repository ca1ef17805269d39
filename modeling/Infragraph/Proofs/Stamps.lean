import Infragraph.Proofs.Journal
import Infragraph.Sanity.Issued

/-! The IDs of the rows. Each is the hash of the columns its row is found by; that of
an asset is the hash of the identity it was created for, that of a claim names the
observation it was made in. So a row that is there under an ID tells what was
hashed for it. -/

namespace Infragraph

open Relational ReadCommitted Prog

section

variable [Hashes] {db db' d d' : Db}

def Write.Stamped : Write → Prop
  | .sourceIdentity i => i.id = stableID "identity" [i.organizationID, i.connectorID, i.externalID]
  | .observation q => q.id = stableID "observation" [q.snapshotID, q.externalID]
  | .relationship x => x.id = relationshipID x.organizationID x.fromAssetID x.toAssetID x.type
  | .relationshipSource y => y.id = stableID "relationship-source"
      [y.organizationID, y.connectorID, y.externalFromID, y.externalToID, y.type]
  | .relationshipObservation q => q.id = stableID "relationship-observation"
      [q.snapshotID, q.externalFromID, q.externalToID, q.type]
  | .change x => x.id = stableID "change" [x.logicalIdentity]
  | .run r => r.id = stableID "reconciliation" [r.snapshotID]
  | _ => True

structure Stamped (d : Db) : Prop where
  identity : ∀ i ∈ d.sourceIdentities, (Write.sourceIdentity i).Stamped
  observation : ∀ q ∈ d.observations, (Write.observation q).Stamped
  relationship : ∀ x ∈ d.relationships, (Write.relationship x).Stamped
  source : ∀ y ∈ d.relationshipSources, (Write.relationshipSource y).Stamped
  relationshipObservation : ∀ q ∈ d.relationshipObservations, (Write.relationshipObservation q).Stamped
  change : ∀ x ∈ d.changes, (Write.change x).Stamped
  run : ∀ r ∈ d.runs, (Write.run r).Stamped

theorem stamped_of_empty (h : d.InventoryEmpty) : Stamped d := by
  constructor <;> simp [h.sourceIdentities, h.observations, h.relationships, h.relationshipSources,
    h.relationshipObservations, h.changes, h.runs]

omit [Hashes] in
theorem forall_put {ρ κ : Type} [DecidableEq κ] {key : ρ → κ} {t : Table key} {P : ρ → Prop} {r : ρ} (h : ∀ x ∈ t, P x)
    (hr : P r) : ∀ x ∈ t.put r, P x := by
  intro x hx
  rcases Table.mem_put.mp hx with rfl | ⟨hx, -⟩
  · exact hr
  · exact h x hx

theorem Stamped.write (h : Stamped d) {w : Write} (hw : w.Stamped) : Stamped (d.write w) := by
  cases w with
  | sourceIdentity => exact { h with identity := forall_put h.identity hw }
  | observation => exact { h with observation := forall_put h.observation hw }
  | relationship => exact { h with relationship := forall_put h.relationship hw }
  | relationshipSource => exact { h with source := forall_put h.source hw }
  | relationshipObservation =>
    exact { h with relationshipObservation := forall_put h.relationshipObservation hw }
  | change => exact { h with change := forall_put h.change hw }
  | run => exact { h with run := forall_put h.run hw }
  | asset | strongIdentity | claim | snapshot | auditEvent => exact { h with }

theorem Stamped.writeAll {ws : List Write} (h : Stamped d) (hws : ∀ w ∈ ws, w.Stamped) : Stamped (writeAll d ws) := by
  induction ws generalizing d with
  | nil => exact h
  | cons w ws ih =>
    exact ih (h.write (hws w (.head _))) fun w' hw' => hws w' (List.mem_cons_of_mem w hw')

theorem insertChangeRow_stamped {r : ChangeRow} (hr : (Write.change r).Stamped) :
    (insertChangeRow r).Puts fun d w => Stamped d → w.Stamped := by
  intro d u ws he w hw _
  simp only [insertChangeRow] at he
  split_ifs at he
  · cases he
    cases hw
  · cases he
    rw [List.mem_singleton.mp hw]
    exact hr

theorem Issued.stamped {s : SnapshotEnvelope} {N : String → Prop} {β : Type} {st : Sql β} (h : Issued s N st) :
    st.Puts fun d w => Stamped d → w.Stamped := by
  cases h with
  | sourceIdentity | strongIdentity | authority | effectiveValue | conflict | relationshipExists =>
    exact Puts.select
  | assetStatus => exact Puts.selectForUpdate
  | newAsset | claim => exact Puts.insert fun _ _ _ => trivial
  | strong => exact Puts.upsert (fun _ _ _ _ => trivial) fun _ _ _ _ => trivial
  | touch | supersede | effective | lapse | assetMissing => exact Puts.update fun _ _ _ _ _ => trivial
  | observation | relationshipObservation => exact Puts.insert fun _ _ _ => rfl
  | run r _ hsnapshot hid =>
    refine Puts.insert fun _ _ _ => ?_
    rw [← hsnapshot] at hid
    exact hid
  | change r _ _ _ hid _ _ => exact insertChangeRow_stamped hid
  | identity => exact Puts.upsert (fun d i hi hd => hd.identity i (Table.mem_of_get hi)) fun _ _ _ _ => rfl
  | relationship =>
    exact Puts.upsert (fun d x hx hd => hd.relationship x (List.mem_of_find?_eq_some hx)) fun _ _ _ _ => rfl
  | relationshipSource =>
    exact Puts.upsert (fun d y hy hd => hd.source y (Table.mem_of_get hy)) fun _ _ _ _ => rfl
  | absences | identitiesMissing => exact Puts.update fun d i hi _ hd => hd.identity i hi
  | relationshipAbsences | sourcesRemoved => exact Puts.update fun d y hy _ hd => hd.source y hy
  | relationshipRemoved => exact Puts.update fun d x hx _ hd => hd.relationship x hx

/-- Whatever part of a call has run, the rows have the IDs of their columns. -/
theorem run_stamped {s : SnapshotEnvelope} {α : Type} {p : Tx α} {a : α} {Q : α → Prop}
    (hp : p.Along (fun _ _ => True) (Issued s fun _ => True) Q) (h : p.run d = .ok (a, d'))
    (hd : Stamped d) : Stamped d' := by
  refine Along.run (R := fun d d' => Stamped d → Stamped d') (fun _ h => h) (fun h h' hd => h' (h hd)) ?_ hp h hd
  intro β st d d' r hst hrun hd
  obtain ⟨ws, he, rfl⟩ := run_exec_ok.mp hrun
  exact hd.writeAll fun w hw => hst.stamped d r ws he w hw hd

def ClaimRow.MadeIn (d : Db) (c : ClaimRow) : Prop :=
  ∃ q ∈ d.observations, q.snapshotID = c.snapshotID ∧
    c.id = stableID "claim" [q.snapshotID, q.externalID, c.attributeKey]

structure Rooted (d : Db) : Prop where
  asset : ∀ a, (d.assets.get a).isSome → ∃ i ∈ d.sourceIdentities,
    a = stableID "asset" [i.organizationID, i.connectorID, i.externalID]
  claim : ∀ c ∈ d.claims, c.MadeIn d

theorem rooted_of_empty (h : d.InventoryEmpty) : Rooted d := ⟨by simp [h.assets], by simp [h.claims]⟩

theorem ClaimRow.MadeIn.deactivated {c : ClaimRow} (h : c.MadeIn d) : ({ c with active := false }).MadeIn d := h

theorem ClaimRow.MadeIn.superseded {c : ClaimRow} (h : c.MadeIn d) (org a connector : String)
    (keys : List String) : (c.superseded org a connector keys).MadeIn d := by
  unfold ClaimRow.superseded
  split_ifs
  · exact h.deactivated
  · exact h

theorem ClaimRow.MadeIn.lapsed {c : ClaimRow} (h : c.MadeIn d) (org connector a : String) (active : Bool) :
    (c.lapsed org connector a active).MadeIn d := by
  unfold ClaimRow.lapsed
  split_ifs
  · exact h.deactivated
  · exact h

theorem Kept.rooted (h : Kept d d') {a : String} (ha : ∃ i ∈ d.sourceIdentities,
      a = stableID "asset" [i.organizationID, i.connectorID, i.externalID]) :
    ∃ i ∈ d'.sourceIdentities, a = stableID "asset" [i.organizationID, i.connectorID, i.externalID] := by
  obtain ⟨i, hi, rfl⟩ := ha
  obtain ⟨i', hi', -⟩ := h.identity _ i (Table.mem_iff_get.mp hi)
  have hkey : i'.key = i.key := Table.key_of_get hi'
  refine ⟨i', Table.mem_of_get hi', ?_⟩
  rw [show i'.organizationID = i.organizationID from congrArg Prod.fst hkey,
    show i'.connectorID = i.connectorID from congrArg (·.2.1) hkey,
    show i'.externalID = i.externalID from congrArg (·.2.2) hkey]

variable {s : SnapshotEnvelope} {now : Time}

theorem Turn.rooted {x : Sight} (h : Turn s now d x d') (hwf : Wf d) (hd : Rooted d) : Rooted d' := by
  refine ⟨fun a ha => ?_, fun c hc => ?_⟩
  · rw [(turns_created (Steps.single h) hwf).2.2] at ha
    rcases ha with ha | ha
    · exact h.kept.rooted (hd.asset a ha)
    · obtain ⟨y, hy, rfl⟩ := List.mem_map.mp ha
      obtain ⟨hy, hk⟩ := List.mem_filter.mp hy
      obtain rfl := List.mem_singleton.mp hy
      have hsighted := h.sighted
      rw [of_decide_eq_true hk] at hsighted
      obtain ⟨i, hi, hkey, -⟩ := h.identity
      refine ⟨i, ?_, ?_⟩
      · rw [hi]
        exact Table.mem_put.mpr (.inl rfl)
      · rw [hsighted.created_id.2, show i.organizationID = s.organizationID from congrArg Prod.fst hkey,
          show i.connectorID = s.connectorID from congrArg (·.2.1) hkey,
          show i.externalID = _ from congrArg (·.2.2) hkey]
  · have hold : ∀ q ∈ d.observations, q ∈ d'.observations := by
      intro q hq
      rw [h.observation, Table.mem_put_fresh h.fresh]
      exact .inr hq
    rcases (h.claims c).mp hc with ⟨e, -, rfl⟩ | ⟨c₀, hc₀, rfl⟩
    · refine ⟨observationRow s x.observation (orNow x.observation.observedAt now), ?_, rfl, rfl⟩
      rw [h.observation]
      exact Table.mem_put.mpr (.inl rfl)
    · obtain ⟨q, hq, hsnapshot, hid⟩ := (hd.claim c₀ hc₀).superseded s.organizationID x.asset s.connectorID
        (x.observation.attributes.entries.map Prod.fst)
      exact ⟨q, hold q hq, hsnapshot, hid⟩

theorem turns_rooted {sights : List Sight} (h : Steps (Turn s now) d sights d') (hwf : Wf d) (hd : Rooted d) :
    Rooted d' :=
  (h.invariant (I := fun d => Wf d ∧ Rooted d) ⟨hwf, hd⟩
    fun _ _ _ _ hd hx => ⟨hx.wf hd.1, hx.rooted hd.1 hd.2⟩).2

theorem LossTurn.madeIn {x : Loss} (h : LossTurn s d x d') (hd : ∀ c ∈ d.claims, c.MadeIn d) :
    ∀ c ∈ d'.claims, c.MadeIn d' := by
  intro c hc
  have hobs : d'.observations = d.observations := by rw [h.frame]
  obtain ⟨c₀, hc₀, rfl⟩ := Option.map_eq_some_iff.mp ((h.claims c.id).symm.trans (Table.mem_iff_get.mp hc))
  have hmade := (hd c₀ (Table.mem_of_get hc₀)).lapsed s.organizationID s.connectorID x.asset
    (d.connectorActive s.organizationID s.connectorID x.asset)
  unfold ClaimRow.MadeIn at hmade ⊢
  rw [hobs]
  exact hmade

section

variable {c : ApplyCall} {sum : Summary} {t : Trace}

theorem Traced.rooted (h : Traced c db t sum db') (hwf : Wf db)
    (hd : Rooted db) : Rooted db' := by
  have hd₁ := turns_rooted h.observe hwf hd
  have hlinks := linkTurns_frame h.relate
  have hlate : db'.claims = t.e₂.claims ∧ db'.observations = t.e₂.observations := by
    rw [h.frame, run_removed_frame h.removals, h.sources.frame]
    exact ⟨rfl, rfl⟩
  have hsources : db'.sourceIdentities = t.e₁.sourceIdentities := by
    rw [h.frame, run_removed_frame h.removals, h.sources.frame, lossTurns_frame h.drop]
  have hkept : Kept t.d₁ t.e₁ := (Kept.same (by rw [hlinks]) (by rw [hlinks])).trans h.identities.kept
  refine ⟨fun a ha => ?_, fun r hr => ?_⟩
  · rw [h.keys_after] at ha
    rw [hsources]
    exact hkept.rooted (hd₁.asset a ha)
  · have he₁ : ∀ r ∈ t.e₁.claims, r.MadeIn t.e₁ := by
      rw [h.identities.frame, hlinks]
      exact hd₁.claim
    have he₂ := h.drop.invariant (I := fun d => ∀ r ∈ d.claims, r.MadeIn d) he₁
      fun _ _ _ _ hd hx => hx.madeIn hd
    have hmade := he₂ r (hlate.1 ▸ hr)
    unfold ClaimRow.MadeIn at hmade ⊢
    rw [hlate.2]
    exact hmade

theorem ApplyCall.rooted (hc : c.run db = .ok (sum, db')) (hwf : Wf db) (hd : Rooted db) : Rooted db' := by
  obtain ⟨t, h⟩ := ApplyCall.traced hc
  exact h.rooted hwf hd

end

variable {db₀ : Db} {h : List ApplyCall}

section

variable (hr : Runs db₀ h db) (h0 : db₀.InventoryEmpty)
include hr h0

theorem Runs.stamped : Stamped db :=
  hr.invariant (stamped_of_empty h0)
    (fun _ _ c _ hd hc => run_stamped (applyPostgres_issued (names_any c.snapshot) c.order c.clock _) hc hd)
    fun _ _ _ _ _ _ _ hd => { hd with }

theorem Runs.rooted : Rooted db := by
  have key : Inventory db ∧ Rooted db :=
    hr.invariant (I := fun d => Inventory d ∧ Rooted d) ⟨inventory_of_empty h0, rooted_of_empty h0⟩
      (fun _ _ _ _ hd hc => ⟨ApplyCall.inventory hc hd.1, ApplyCall.rooted hc hd.1.toWf hd.2⟩)
      fun _ _ _ _ _ _ _ hd => ⟨hd.1.congr rfl rfl rfl rfl, hd.2.asset, hd.2.claim⟩
  exact key.2

theorem Runs.run_of : ∀ x ∈ db.runs, ∃ c ∈ h, c.snapshot.snapshotID = x.snapshotID := by
  induction hr with
  | nil => simp [h0.runs]
  | @succeed h d c sum d' _ hrun ih =>
    obtain ⟨t, htrace⟩ := ApplyCall.traced hrun
    intro x hx
    rw [htrace.runs_after] at hx
    rcases Table.mem_put.mp hx with rfl | ⟨hx, -⟩
    · exact ⟨c, by simp, rfl⟩
    · obtain ⟨c', hc', he⟩ := ih x hx
      exact ⟨c', List.mem_append_left _ hc', he⟩
  | fail _ _ ih => exact ih
  | other _ _ _ _ _ _ _ ih => exact ih

end

end

end Infragraph
