import Infragraph.Proofs.Additions
import Infragraph.Sanity.Hashing

/-! The change rows of reachable databases. Asset IDs are hexadecimal, so a
logical identity falls apart into snapshot, asset and type, and every row stored
belongs to a recorded run: no attempt of a new call finds its slot taken by an
earlier one. Last, what identifiers tell apart for any values. -/

namespace Infragraph

open Relational ReadCommitted Prog

section

variable [Hashes] {db db' : Db} {c : ApplyCall} {sum : Summary} {s : SnapshotEnvelope} {now : Time}

theorem stableID_plain {pre : String} (hpre : '|' ∉ pre.toList) (values : List String) :
    '|' ∉ (stableID pre values).toList := by
  have hhex : '|' ∉ (String.ofList ((hexEncode (sum256 (stableStream values))).take 32)).toList := by
    rw [String.toList_ofList]
    exact fun h => hexEncode_plain _ (List.mem_of_mem_take h)
  unfold stableID
  rw [String.toList_append, String.toList_append, List.mem_append, List.mem_append, not_or, not_or]
  exact ⟨⟨hpre, by decide⟩, hhex⟩

omit [Hashes] in
theorem logical_parts {x x' a a' t t' : String} (ha : '|' ∉ a.toList) (ha' : '|' ∉ a'.toList) (ht : '|' ∉ t.toList)
    (ht' : '|' ∉ t'.toList)
    (h : "|".intercalate [x, a, t] = "|".intercalate [x', a', t']) : x = x' ∧ a = a' ∧ t = t' := by
  obtain ⟨hxa, htt⟩ := logical_last ht ht' h
  have hlist := congrArg String.toList hxa
  simp only [String.toList_append] at hlist
  have hbar : "|".toList = ['|'] := rfl
  rw [hbar, List.append_assoc, List.append_assoc] at hlist
  obtain ⟨hx, ha⟩ := Delimited.mark_inj_last ha ha' hlist
  exact ⟨String.toList_injective hx, String.toList_injective ha, htt⟩

structure Journaled (db : Db) : Prop where
  assets : ∀ a, (db.assets.get a).isSome → '|' ∉ a.toList
  changes : ∀ x ∈ db.changes, ∃ r ∈ db.runs, '|' ∉ x.assetID.toList ∧ x.changeType ∈ changeTypes ∧
    x.logicalIdentity = "|".intercalate [r.snapshotID, x.assetID, x.changeType]

omit [Hashes] in
theorem journaled_of_empty (h : db.InventoryEmpty) : Journaled db :=
  ⟨by simp [h.assets], by simp [h.changes]⟩

section

variable {sights : List Sight} {t : Trace}

theorem turns_assets (h : Steps (Turn s now) db sights db') (hwf : Wf db) {x : Sight} (hx : x ∈ sights) :
    (db'.assets.get x.asset).isSome := by
  obtain ⟨_, d, d', _, hpre, hturn, hpost⟩ := h.at_mem hx
  have hd := turns_wf hpre hwf
  obtain ⟨created, hobs⟩ := hturn.observed hd
  obtain ⟨r, hr, -⟩ := hobs.asset
  rw [(turns_created hpost (hturn.wf hd)).2.2, hr]
  exact .inl rfl

theorem turns_plain (h : Steps (Turn s now) db sights db') (hwf : Wf db)
    (hplain : ∀ a, (db.assets.get a).isSome → '|' ∉ a.toList) (a : String) (ha : (db'.assets.get a).isSome) :
    '|' ∉ a.toList := by
  rw [(turns_created h hwf).2.2] at ha
  rcases ha with ha | ha
  · exact hplain a ha
  · obtain ⟨x, hx, rfl⟩ := List.mem_map.mp ha
    obtain ⟨hx, hk⟩ := List.mem_filter.mp hx
    obtain ⟨_, d, d', _, hpre, hturn, -⟩ := h.at_mem hx
    have hk : x.kind = .created := of_decide_eq_true hk
    have hsighted := hturn.sighted
    rw [hk] at hsighted
    rw [hsighted.created_id.2]
    exact stableID_plain (by decide) _

section

variable (h : Traced c db t sum db')
include h

theorem Traced.attempt_asset (hwf : Wf db) {r : ChangeRow}
    (hr : r ∈ attempts c.snapshot (orNow c.snapshot.completedAt c.clock) t.sights t.links t.losses) :
    (t.d₁.assets.get r.assetID).isSome := by
  rcases mem_attempts.mp hr with ⟨x, hx, hr⟩ | ⟨x, hx, rfl⟩ | ⟨x, hx, hmarked, rfl⟩
  · have hasset : r.assetID = x.asset := by
      rcases mem_sightRows hr with ⟨prior, -, rfl⟩ | ⟨-, rfl⟩ | ⟨-, rfl⟩ <;> rfl
    rw [hasset]
    exact turns_assets h.observe hwf hx
  · have hmem := List.mem_of_lookup (linkTurns_mem h.relate (List.mem_filter.mp hx).1).1
    rw [List.mem_reverse, List.mem_map] at hmem
    obtain ⟨y, hy, heq⟩ := hmem
    have hasset : y.asset = x.fromAsset := congrArg Prod.snd heq
    show (t.d₁.assets.get x.fromAsset).isSome
    rw [← hasset]
    exact turns_assets h.observe hwf hy
  · obtain ⟨_, d, d', _, hpre, hturn, -⟩ := h.drop.at_mem hx
    obtain ⟨⟨r, hr, -⟩, -⟩ := hturn.marks.mp hmarked
    have hassets := h.assets_kept
    show (t.d₁.assets.get x.asset).isSome
    rw [← hassets, ← lossTurns_keys hpre, hr]
    rfl

theorem Traced.keys_after (a : String) : (db'.assets.get a).isSome ↔ (t.d₁.assets.get a).isSome := by
  have hassets : db'.assets = t.e₂.assets := by rw [h.frame, run_removed_frame h.removals, h.sources.frame]
  have hassets₁ := h.assets_kept
  rw [hassets, lossTurns_keys h.drop, hassets₁]

theorem Traced.runs_after : db'.runs = db.runs.put (runRow c.snapshot sum) := by
  rw [h.frame, run_removed_frame h.removals, h.sources.frame, lossTurns_frame h.drop, h.identities.frame,
    linkTurns_frame h.relate, turns_relationships h.observe]

/-- No attempt finds its slot taken by an earlier call. -/
theorem Traced.free (hwf : Wf db) (hj : Journaled db) {r : ChangeRow}
    (hr : r ∈ attempts c.snapshot (orNow c.snapshot.completedAt c.clock) t.sights t.links t.losses) :
    ∀ x ∈ db.changes, x.slot ≠ r.slot := by
  intro x hx heq
  obtain ⟨q, hq, hplain, htype, hlogical⟩ := hj.changes x hx
  have hof := attempts_of hr
  have hlog : x.logicalIdentity = r.logicalIdentity := congrArg Prod.snd heq
  have hrlog : r.logicalIdentity = "|".intercalate [c.snapshot.snapshotID, r.assetID, r.changeType] :=
    congrArg Prod.snd hof.slot
  rw [hlogical, hrlog] at hlog
  have hrplain := turns_plain h.observe hwf hj.assets _ (h.attempt_asset hwf hr)
  obtain ⟨hsnapshot, -, -⟩ := logical_parts hplain hrplain (changeTypes_plain _ htype)
    (changeTypes_plain _ hof.type) hlog
  exact h.unrun q hq hsnapshot

theorem Traced.journaled (hwf : Wf db) (hj : Journaled db) : Journaled db' := by
  have hplain := turns_plain h.observe hwf hj.assets
  refine ⟨fun a ha => hplain a ((h.keys_after a).mp ha), fun x hx => ?_⟩
  simp only [h.runs_after, Table.mem_put_fresh h.fresh]
  rcases h.logged.mem_or hx with hx | hx
  · obtain ⟨q, hq, hrest⟩ := hj.changes x hx
    exact ⟨q, .inr hq, hrest⟩
  · have hof := attempts_of hx
    exact ⟨_, .inl rfl, hplain _ (h.attempt_asset hwf hx), hof.type, congrArg Prod.snd hof.slot⟩

end

end

theorem ApplyCall.journaled (hc : c.run db = .ok (sum, db')) (hwf : Wf db) (hj : Journaled db) : Journaled db' := by
  obtain ⟨t, h⟩ := ApplyCall.traced hc
  exact h.journaled hwf hj

theorem Runs.journaled {db₀ : Db} {h : List ApplyCall} (hr : Runs db₀ h db) (h0 : db₀.InventoryEmpty) :
    Journaled db := by
  have key : Inventory db ∧ Journaled db :=
    hr.invariant (I := fun d => Inventory d ∧ Journaled d) ⟨inventory_of_empty h0, journaled_of_empty h0⟩
      (fun _ _ _ _ hd hc => ⟨ApplyCall.inventory hc hd.1, ApplyCall.journaled hc hd.1.toWf hd.2⟩)
      fun _ _ _ _ _ _ _ hd => ⟨hd.1.congr rfl rfl rfl rfl, hd.2.assets, hd.2.changes⟩
  exact key.2

theorem Runs.recorded {db₀ : Db} {h : List ApplyCall} (hr : Runs db₀ h db) (h0 : db₀.InventoryEmpty) : db.Recorded :=
  hr.invariant (by simp [Db.Recorded, h0.observations]) (fun _ _ _ _ hd hc => (ApplyCall.counted hc hd).2)
    fun _ _ _ _ _ _ _ hd => hd

end

/-- A NUL ends every value, so the values can be read off the stream. -/
theorem stableStream_inj {vs vs' : List String} (h : ∀ v ∈ vs ++ vs', 0 ∉ bytes v)
    (heq : stableStream vs = stableStream vs') : vs = vs' := by
  induction vs generalizing vs' with
  | nil =>
    cases vs' with
    | nil => rfl
    | cons v' vs' => simp [stableStream] at heq
  | cons v vs ih =>
    cases vs' with
    | nil => simp [stableStream] at heq
    | cons v' vs' =>
      simp only [stableStream, List.flatMap_cons, List.append_assoc, List.singleton_append] at heq
      obtain ⟨hv, hvs⟩ := Delimited.mark_inj (h v (by simp)) (h v' (by simp)) heq
      rw [bytes_inj hv, ih (fun w hw => h w (by rcases List.mem_append.mp hw with hw | hw <;> simp [hw])) hvs]

section

variable [Hashes]

/-- The part of the hash that `stableID` keeps tells the two streams apart. -/
def Uncollided (vs vs' : List String) : Prop :=
  (hexEncode (sum256 (stableStream vs))).take 32 = (hexEncode (sum256 (stableStream vs'))).take 32 →
    stableStream vs = stableStream vs'

theorem stream_of_stableID {pre : String} {vs vs' : List String} (hhash : Uncollided vs vs')
    (h : stableID pre vs = stableID pre vs') : stableStream vs = stableStream vs' :=
  hhash (String.ofList_injective ((String.append_right_inj _).mp h))

/-- Streams, and identifiers of one kind where the hash does not collide, are equal for
equal values only; and so are the identities that `insertChange` joins and their hashes,
whatever the snapshot ID contains. -/
theorem stableID_faithful :
    (∀ vs vs' : List String, (∀ v ∈ vs ++ vs', 0 ∉ bytes v) → (stableStream vs = stableStream vs' → vs = vs') ∧
      ∀ pre, Uncollided vs vs' → stableID pre vs = stableID pre vs' → vs = vs') ∧
    ∀ (s s' : SnapshotEnvelope) (a t a' t' : String) (before after before' after' : Json) (reason reason' : String),
      (∀ v ∈ [a, t, a', t'], '|' ∉ v.toList) →
      ∃ r r', insertChange s a t before after reason = exec (insertChangeRow r) ∧
        insertChange s' a' t' before' after' reason' = exec (insertChangeRow r') ∧
        (r.logicalIdentity = r'.logicalIdentity → s.snapshotID = s'.snapshotID ∧ a = a' ∧ t = t') ∧
        (Uncollided [r.logicalIdentity] [r'.logicalIdentity] → r.id = r'.id →
          s.snapshotID = s'.snapshotID ∧ a = a' ∧ t = t') := by
  refine ⟨fun vs vs' hvs => ⟨stableStream_inj hvs, fun pre hhash h => ?_⟩, ?_⟩
  · exact stableStream_inj hvs (stream_of_stableID hhash h)
  · intro s s' a t a' t' before after before' after' reason reason' hplain
    have hparts := @logical_parts s.snapshotID s'.snapshotID a a' t t' (hplain a (by simp)) (hplain a' (by simp))
      (hplain t (by simp)) (hplain t' (by simp))
    refine ⟨changeRow s a t before after reason, changeRow s' a' t' before' after' reason', rfl, rfl, hparts,
      fun hhash h => hparts (bytes_inj ?_)⟩
    -- one value: its stream gives it back even with a NUL
    have hstream := stream_of_stableID hhash h
    simp only [stableStream, List.flatMap_singleton, List.append_cancel_right_eq] at hstream
    exact hstream

end

theorem stableID_faithful_toy : letI := toy
    stableID "asset" ["org", "docker", "app"] ≠ stableID "asset" ["org", "docker", "db"] := by
  let _ := toy
  intro h
  have hne : ["org", "docker", "app"] ≠ ["org", "docker", "db"] := by decide
  exact hne ((stableID_faithful.1 _ _ (by decide +kernel)).2 "asset" (fun hsum => absurd hsum (by decide +kernel)) h)

end Infragraph
