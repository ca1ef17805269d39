import Infragraph.Proofs.Errors
import Infragraph.Proofs.Stamps

/-! When `ApplyPostgres` returns an error. In a reachable database every ID tells what
was hashed for it, so as long as hashes do not collide the IDs of a new snapshot are
free wherever a call inserts a row: only an observation that is refused stops it. -/

namespace Infragraph

open Relational ReadCommitted Prog

section

variable [Hashes]

/-- The assets that change rows of the call can be about: those that are there and
those that can be created. -/
def ApplyCall.named (c : ApplyCall) (db : Db) : List String :=
  db.assets.rows.map (·.id) ++ c.snapshot.assets.map fun o =>
    stableID "asset" [c.snapshot.organizationID, c.snapshot.connectorID, o.externalID]

/-- `stableID` does not collide on the values that were hashed for the rows of the
database and those that the call can hash. -/
@[mk_iff] structure Collisionless (c : ApplyCall) (db : Db) : Prop where
  asset : Apart "asset"
    (db.sourceIdentities.rows.map (fun i => [i.organizationID, i.connectorID, i.externalID]) ++
      c.snapshot.assets.map fun o => [c.snapshot.organizationID, c.snapshot.connectorID, o.externalID])
  identity : Apart "identity"
    (db.sourceIdentities.rows.map (fun i => [i.organizationID, i.connectorID, i.externalID]) ++
      c.snapshot.assets.map fun o => [c.snapshot.organizationID, c.snapshot.connectorID, o.externalID])
  observation : Apart "observation"
    (db.observations.rows.map (fun q => [q.snapshotID, q.externalID]) ++
      c.snapshot.assets.map fun o => [c.snapshot.snapshotID, o.externalID])
  claim : Apart "claim"
    (db.observations.rows.flatMap (fun q => (db.claims.rows.filter (·.snapshotID = q.snapshotID)).map fun r =>
        [q.snapshotID, q.externalID, r.attributeKey]) ++
      c.snapshot.assets.flatMap fun o => o.attributes.entries.map fun e =>
        [c.snapshot.snapshotID, o.externalID, e.1])
  relationship : Apart "relationship"
    (db.relationships.rows.map (fun x => [x.organizationID, x.fromAssetID, x.toAssetID, x.type]) ++
      c.snapshot.relationships.map fun r => [c.snapshot.organizationID,
        (c.leads db r.externalFromID).getD "", (c.leads db r.externalToID).getD "", r.type])
  source : Apart "relationship-source"
    (db.relationshipSources.rows.map
        (fun y => [y.organizationID, y.connectorID, y.externalFromID, y.externalToID, y.type]) ++
      c.snapshot.relationships.map fun r =>
        [c.snapshot.organizationID, c.snapshot.connectorID, r.externalFromID, r.externalToID, r.type])
  relationshipObservation : Apart "relationship-observation"
    (db.relationshipObservations.rows.map
        (fun q => [q.snapshotID, q.externalFromID, q.externalToID, q.type]) ++
      c.snapshot.relationships.map fun r =>
        [c.snapshot.snapshotID, r.externalFromID, r.externalToID, r.type])
  change : Apart "change"
    (db.changes.rows.map (fun x => [x.logicalIdentity]) ++ (c.named db).flatMap fun a =>
      changeTypes.map fun type => ["|".intercalate [c.snapshot.snapshotID, a, type]])
  run : Apart "reconciliation" (db.runs.rows.map (fun r => [r.snapshotID]) ++ [[c.snapshot.snapshotID]])

instance (c : ApplyCall) (db : Db) : Decidable (Collisionless c db) :=
  decidable_of_iff _ (collisionless_iff c db).symm

variable {s : SnapshotEnvelope} {o : Observation} {d d' : Db} {err : Error} {sum : Summary} {assets : List String}

structure Ready (c : ApplyCall) (db : Db) : Prop where
  wf : Wf db
  stamped : Stamped db
  rooted : Rooted db
  linked : Linked db
  journaled : Journaled db
  recorded : db.Recorded
  fresh : ∀ x ∈ db.runs, x.snapshotID ≠ c.snapshot.snapshotID
  fitting : c.snapshot.Fitting
  apart : Collisionless c db

section

variable {c : ApplyCall} {db : Db} {now : Time} {sights : List Sight} {names : List (String × String)}
  {pre : List Observation}

theorem Ready.unobserved (hr : Ready c db) : ∀ q ∈ db.observations, q.snapshotID ≠ c.snapshot.snapshotID := by
  intro q hq heq
  obtain ⟨x, hx, hxq⟩ := hr.recorded q hq
  exact hr.fresh x hx (hxq.trans heq)

theorem Ready.changes_apart (hr : Ready c db) : Apart "change" ((c.named db).flatMap fun a =>
    changeTypes.map fun type => ["|".intercalate [c.snapshot.snapshotID, a, type]]) :=
  fun v hv w hw => hr.apart.change v (List.mem_append_right _ hv) w (List.mem_append_right _ hw)

theorem Ready.named_plain (hr : Ready c db) {a : String} (ha : a ∈ c.named db) : '|' ∉ a.toList := by
  rcases List.mem_append.mp ha with ha | ha
  · obtain ⟨r, hmem, rfl⟩ := List.mem_map.mp ha
    exact hr.journaled.assets r.id (by rw [Table.mem_iff_get.mp hmem]; rfl)
  · obtain ⟨o, -, rfl⟩ := List.mem_map.mp ha
    exact stableID_plain (by decide) _

/-- The changes of earlier calls name earlier snapshots. -/
theorem Ready.unblocked (hr : Ready c db) : Unblocked c.snapshot (c.named db) db.changes := by
  intro a ha type htype x hx hid
  have hvalue : ["|".intercalate [c.snapshot.snapshotID, a, type]] ∈ (c.named db).flatMap fun a =>
      changeTypes.map fun type => ["|".intercalate [c.snapshot.snapshotID, a, type]] :=
    List.mem_flatMap.mpr ⟨a, ha, List.mem_map.mpr ⟨type, htype, rfl⟩⟩
  have heq := hr.apart.change _ (List.mem_append_left _ (List.mem_map.mpr ⟨x, hx, rfl⟩)) _
    (List.mem_append_right _ hvalue) ((hr.stamped.change x hx).symm.trans hid)
  obtain ⟨r, hmem, hplain, hchange, hlogical⟩ := hr.journaled.changes x hx
  rw [hlogical] at heq
  obtain ⟨hsnapshot, -, -⟩ := logical_parts hplain (hr.named_plain ha) (changeTypes_plain _ hchange)
    (changeTypes_plain _ htype) (List.head_eq_of_cons_eq heq)
  exact absurd hsnapshot (hr.fresh r hmem)

theorem turns_named (h : Steps (Turn c.snapshot now) db sights d) (hwf : Wf db)
    (hsub : ∀ x ∈ sights, x.observation ∈ c.snapshot.assets) {a : String} (ha : (d.assets.get a).isSome) :
    a ∈ c.named db := by
  rw [(turns_created h hwf).2.2] at ha
  rcases ha with ha | ha
  · obtain ⟨r, hr⟩ := Option.isSome_iff_exists.mp ha
    rw [← Table.key_of_get hr]
    exact List.mem_append_left _ (List.mem_map.mpr ⟨r, Table.mem_of_get hr, rfl⟩)
  · obtain ⟨x, hx, rfl⟩ := List.mem_map.mp ha
    obtain ⟨hx, hk⟩ := List.mem_filter.mp hx
    obtain ⟨_, d₁, d₂, _, -, hturn, -⟩ := h.at_mem hx
    have hsighted := hturn.sighted
    rw [of_decide_eq_true hk] at hsighted
    rw [hsighted.created_id.2]
    exact List.mem_append_right _ (List.mem_map.mpr ⟨x.observation, hsub x hx, rfl⟩)

theorem sightRows_attempts {x : Sight} (ha : x.asset ∈ assets) : Attempts s assets (x.rows s) := by
  intro r hr
  rcases mem_sightRows hr with ⟨prior, -, rfl⟩ | ⟨-, rfl⟩ | ⟨-, rfl⟩ <;>
    exact ⟨x.asset, ha, _, by simp [changeTypes], _, _, _, rfl⟩

theorem Ready.turns_unblocked (hr : Ready c db) (h : Steps (Turn c.snapshot now) db sights d)
    (hsub : ∀ x ∈ sights, x.observation ∈ c.snapshot.assets) : Unblocked c.snapshot (c.named db) d.changes := by
  have hlog := steps_logged (fun _ _ _ hx => hx.logged) h
  refine hr.unblocked.logged hr.changes_apart hlog fun r hmem => ?_
  obtain ⟨x, hx, hmem⟩ := List.mem_flatMap.mp hmem
  exact sightRows_attempts (turns_named h hr.wf hsub (turns_assets h hr.wf hx)) r hmem

theorem Loaded.hashed (h : Loaded c.snapshot now pre names db d) (hsub : ∀ o ∈ pre, o ∈ c.snapshot.assets)
    {i : SourceIdentityRow} (hi : i ∈ d.sourceIdentities) : [i.organizationID, i.connectorID, i.externalID] ∈
      db.sourceIdentities.rows.map (fun i => [i.organizationID, i.connectorID, i.externalID]) ++
        c.snapshot.assets.map fun o => [c.snapshot.organizationID, c.snapshot.connectorID, o.externalID] := by
  by_cases hpre : ∃ o ∈ pre, i.key = (c.snapshot.organizationID, c.snapshot.connectorID, o.externalID)
  · obtain ⟨o, ho, hkey⟩ := hpre
    refine List.mem_append_right _ (List.mem_map.mpr ⟨o, hsub o ho, ?_⟩)
    rw [show i.organizationID = c.snapshot.organizationID from congrArg Prod.fst hkey,
      show i.connectorID = c.snapshot.connectorID from congrArg (·.2.1) hkey,
      show i.externalID = o.externalID from congrArg (·.2.2) hkey]
  · have hget := h.unseen i.key fun o ho heq => hpre ⟨o, ho, heq⟩
    rw [Table.mem_iff_get.mp hi] at hget
    exact List.mem_append_left _ (List.mem_map.mpr ⟨i, Table.mem_of_get hget.symm, rfl⟩)

theorem turns_claim_made (h : Steps (Turn s now) db sights d) {r : ClaimRow} (hr : r ∈ d.claims) :
    (∃ r₀ ∈ db.claims, r₀.id = r.id ∧ r₀.snapshotID = r.snapshotID ∧ r₀.attributeKey = r.attributeKey) ∨
      ∃ x ∈ sights, ∃ e ∈ x.observation.attributes.entries,
        r.id = stableID "claim" [s.snapshotID, x.observation.externalID, e.1] := by
  induction h generalizing r with
  | nil => exact .inl ⟨r, hr, rfl, rfl, rfl⟩
  | @snoc l d₁ x d₂ _ hx ih =>
    rcases (hx.claims r).mp hr with ⟨e, he, rfl⟩ | ⟨r₁, hr₁, rfl⟩
    · exact .inr ⟨x, by simp, e, he, rfl⟩
    · have hcols : ∀ org a connector keys, (r₁.superseded org a connector keys).id = r₁.id ∧
          (r₁.superseded org a connector keys).snapshotID = r₁.snapshotID ∧
          (r₁.superseded org a connector keys).attributeKey = r₁.attributeKey := by
        intro org a connector keys
        unfold ClaimRow.superseded
        split_ifs <;> exact ⟨rfl, rfl, rfl⟩
      obtain ⟨hid, hsnapshot, hkey⟩ := hcols s.organizationID x.asset s.connectorID
        (x.observation.attributes.entries.map Prod.fst)
      rw [hid, hsnapshot, hkey]
      rcases ih hr₁ with hold | ⟨y, hy, e, he, hid⟩
      · exact .inl hold
      · exact .inr ⟨y, List.mem_append_left _ hy, e, he, hid⟩

section

variable {post : List Observation}

theorem Ready.other (hr : Ready c db) (hassets : c.snapshot.assets = pre ++ o :: post) :
    ∀ o' ∈ pre, o' ∈ c.snapshot.assets ∧ o'.externalID ≠ o.externalID := by
  have hnodup := hr.fitting.distinct
  rw [externalIDs, hassets, List.map_append, List.nodup_append] at hnodup
  exact fun o' ho' => ⟨by simp [hassets, ho'], hnodup.2.2 _ (List.mem_map_of_mem ho') _ (by simp)⟩

omit [Hashes] in
theorem identity_known {i : SourceIdentityRow} (hi : i ∈ d.sourceIdentities)
    (heq : [i.organizationID, i.connectorID, i.externalID] = [s.organizationID, s.connectorID, o.externalID]) :
    d.sourceIdentities.get (s.organizationID, s.connectorID, o.externalID) ≠ none := by
  intro hnone
  simp only [List.cons.injEq, and_true] at heq
  refine Table.get_eq_none.mp hnone i hi ?_
  rw [SourceIdentityRow.key, heq.1, heq.2.1, heq.2.2]

theorem Ready.free_observation (hr : Ready c db) (hload : Loaded c.snapshot now pre names db d)
    (hassets : c.snapshot.assets = pre ++ o :: post) : ∀ q ∈ d.observations,
      q.id ≠ stableID "observation" [c.snapshot.snapshotID, o.externalID] ∧
        ¬ (q.snapshotID = c.snapshot.snapshotID ∧ q.externalID = o.externalID) := by
  intro q hq
  have hvalue : ∀ o ∈ c.snapshot.assets, [c.snapshot.snapshotID, o.externalID] ∈
      db.observations.rows.map (fun q => [q.snapshotID, q.externalID]) ++
        c.snapshot.assets.map fun o => [c.snapshot.snapshotID, o.externalID] :=
    fun o ho => List.mem_append_right _ (List.mem_map.mpr ⟨o, ho, rfl⟩)
  have ho := hvalue o (by simp [hassets])
  rcases (hload.observations q).mp hq with hq | ⟨o', ho', rfl⟩
  · refine ⟨fun hid => ?_, fun heq => hr.unobserved q hq heq.1⟩
    have heq := hr.apart.observation _ (List.mem_append_left _ (List.mem_map.mpr ⟨q, hq, rfl⟩)) _ ho
      ((hr.stamped.observation q hq).symm.trans hid)
    exact hr.unobserved q hq (List.head_eq_of_cons_eq heq)
  · obtain ⟨hmem, hne⟩ := hr.other hassets o' ho'
    refine ⟨fun hid => hne ?_, fun heq => hne heq.2⟩
    simpa using hr.apart.observation _ (hvalue o' hmem) _ ho hid

omit [Hashes] in
theorem hashed_claim {e : String × Json} {values : List (List String)} (ho : o ∈ c.snapshot.assets)
    (he : e ∈ o.attributes.entries) : [c.snapshot.snapshotID, o.externalID, e.1] ∈
      values ++ c.snapshot.assets.flatMap fun o => o.attributes.entries.map fun e =>
        [c.snapshot.snapshotID, o.externalID, e.1] :=
  List.mem_append_right _ (List.mem_flatMap.mpr ⟨o, ho, List.mem_map.mpr ⟨e, he, rfl⟩⟩)

section

variable (hr : Ready c db) (hsteps : Steps (Turn c.snapshot now) db sights d)
include hr hsteps

theorem Ready.free_claim
    (hpre : sights.map Sight.observation = pre) (hassets : c.snapshot.assets = pre ++ o :: post) :
    ∀ r ∈ d.claims, ∀ e ∈ o.attributes.entries,
      r.id ≠ stableID "claim" [c.snapshot.snapshotID, o.externalID, e.1] := by
  intro r hmem e he hid
  have ho : o ∈ c.snapshot.assets := by simp [hassets]
  rcases turns_claim_made hsteps hmem with ⟨r₀, hr₀, hr₀id, -⟩ | ⟨x, hx, e', he', hxid⟩
  · obtain ⟨q, hq, hsnapshot, hqid⟩ := hr.rooted.claim r₀ hr₀
    have hold : r₀ ∈ db.claims.rows.filter (·.snapshotID = q.snapshotID) :=
      List.mem_filter.mpr ⟨hr₀, decide_eq_true hsnapshot.symm⟩
    have heq := hr.apart.claim [q.snapshotID, q.externalID, r₀.attributeKey]
      (List.mem_append_left _ (List.mem_flatMap.mpr ⟨q, hq, List.mem_map.mpr ⟨r₀, hold, rfl⟩⟩)) _
      (hashed_claim ho he)
      (hqid.symm.trans (hr₀id.trans hid))
    exact hr.unobserved q hq (List.head_eq_of_cons_eq heq)
  · obtain ⟨hxmem, hne⟩ := hr.other hassets x.observation (hpre ▸ List.mem_map_of_mem hx)
    have heq := hr.apart.claim _ (hashed_claim hxmem he') _ (hashed_claim ho he) (hxid.symm.trans hid)
    simp only [List.cons.injEq] at heq
    exact hne heq.2.1

theorem Ready.admits (hload : Loaded c.snapshot now pre names db d) (hpre : sights.map Sight.observation = pre)
    (hassets : c.snapshot.assets = pre ++ o :: post) (hstamped : Stamped d) :
    (d.sourceIdentities.get (c.snapshot.organizationID, c.snapshot.connectorID, o.externalID) = none →
      d.assets.get (stableID "asset" [c.snapshot.organizationID, c.snapshot.connectorID, o.externalID]) = none) ∧
    Admits c.snapshot o d := by
  have ho : o ∈ c.snapshot.assets := by simp [hassets]
  have hvalue : ∀ l, [c.snapshot.organizationID, c.snapshot.connectorID, o.externalID] ∈
      l ++ c.snapshot.assets.map fun o => [c.snapshot.organizationID, c.snapshot.connectorID, o.externalID] :=
    fun l => List.mem_append_right l (List.mem_map.mpr ⟨o, ho, rfl⟩)
  have hhashed : ∀ i ∈ d.sourceIdentities, _ := fun i hi =>
    hload.hashed (fun o' ho' => (hr.other hassets o' ho').1) hi
  refine ⟨fun hnone => ?_, fun hnone i hi hid => ?_, hr.free_observation hload hassets,
    hr.free_claim hsteps hpre hassets, fun e he e' he' hid => ?_⟩
  · by_contra hsome
    obtain ⟨i, hi, hid⟩ := (turns_rooted hsteps hr.wf hr.rooted).asset _ (Option.ne_none_iff_isSome.mp hsome)
    exact identity_known hi (hr.apart.asset _ (hhashed i hi) _ (hvalue _) hid.symm) hnone
  · exact identity_known hi (hr.apart.identity _ (hhashed i hi) _ (hvalue _)
      ((hstamped.identity i hi).symm.trans hid)) hnone
  · simpa using hr.apart.claim _ (hashed_claim ho he) _ (hashed_claim ho he') hid

end

end

theorem run_assets_seen {order : MapOrder} {l : List Observation} {st : Progress}
    (h : (l.foldlM (observe order s now) {}).run db = .ok (st, d)) : st.seenAssets = (externalIDs l).reverse := by
  refine run_foldlM (fun pre st _ => st.seenAssets = (externalIDs pre).reverse) h rfl ?_
  intro pre o post st d st' d' _ ih hrun
  rw [(run_observe hrun).2.1, ih]
  simp [externalIDs]

/-- Only an observation that is refused stops the asset loop. -/
theorem Ready.assets_error (hr : Ready c db)
    (h : (c.snapshot.assets.foldlM (observe c.order c.snapshot now) {}).run db = .error err) :
    ∃ pre o post, c.snapshot.assets = pre ++ o :: post ∧
      Refused c.snapshot ((db.bindings c.snapshot).after c.snapshot pre) o err := by
  obtain ⟨pre, o, post, st, d, hassets, hpre, hobserve⟩ := run_foldlM_error h
  have ho : o ∈ c.snapshot.assets := by simp [hassets]
  have hstamped := run_stamped (Along.foldlM (fun st x hx hst =>
    observe_issued (names_any c.snapshot) c.order now (by simp [hassets, hx]) hst) (by simp)) hpre hr.stamped
  obtain ⟨sights, hsights, -, -, hsteps⟩ := run_assets_turns hpre
  have hsub : ∀ x ∈ sights, x.observation ∈ c.snapshot.assets := by
    intro x hx
    have hmem : x.observation ∈ pre := hsights ▸ List.mem_map_of_mem hx
    simp [hassets, hmem]
  obtain ⟨hasset, hadmits⟩ := hr.admits hsteps (run_assets hpre rfl) hsights hassets hstamped
  have hseen : o.externalID ∉ st.seenAssets := by
    have hnodup := hr.fitting.distinct
    rw [externalIDs, hassets, List.map_append, List.nodup_append] at hnodup
    rw [run_assets_seen hpre, List.mem_reverse]
    exact fun hmem => hnodup.2.2 _ hmem o.externalID (by simp) rfl
  refine ⟨pre, o, post, hassets, ?_⟩
  rw [← hsights, ← turns_bindings hsteps]
  exact run_observe_error hobserve (turns_wf hsteps hr.wf) (hr.fitting.bounded o ho) hseen hasset hadmits
    (hr.turns_unblocked hsteps hsub) hr.changes_apart (fun a ha => turns_named hsteps hr.wf hsub ha)
    (List.mem_append_right _ (List.mem_map.mpr ⟨o, ho, rfl⟩))

structure Entered (c : ApplyCall) (db : Db) (now : Time) (sights : List Sight) (d : Db) : Prop where
  all : sights.map Sight.observation = c.snapshot.assets
  steps : Steps (Turn c.snapshot now) db sights d
  stamped : Stamped d

def entries (sights : List Sight) : List (String × String) :=
  (sights.map fun x => (x.observation.externalID, x.asset)).reverse

section

variable {d₁ : Db} {links : List Link}

section

variable (h : Entered c db now sights d₁)
include h

theorem Entered.mem : ∀ x ∈ sights, x.observation ∈ c.snapshot.assets :=
  fun _ hx => h.all ▸ List.mem_map_of_mem hx

theorem Entered.named (hwf : Wf db) {e a : String} (he : (entries sights).lookup e = some a) : a ∈ c.named db := by
  have hmem := List.mem_of_lookup he
  rw [entries, List.mem_reverse, List.mem_map] at hmem
  obtain ⟨x, hx, heq⟩ := hmem
  cases heq
  exact turns_named h.steps hwf h.mem (turns_assets h.steps hwf hx)

theorem Entered.lookup {e : String} (he : e ∈ externalIDs c.snapshot.assets) :
    ((entries sights).lookup e).isSome := by
  rw [externalIDs, ← h.all, List.map_map] at he
  obtain ⟨x, hx, rfl⟩ := List.mem_map.mp he
  rw [List.lookup_isSome_iff]
  exact ⟨_, List.mem_reverse.mpr (List.mem_map_of_mem hx), by simp⟩

section

variable (hlinks : Steps (LinkTurn c.snapshot now (entries sights)) d₁ links d)
  (hsub : ∀ x ∈ links, x.observation ∈ c.snapshot.relationships)
include hlinks hsub

theorem Entered.hashed_relationship {x : RelationshipRow}
    (hx : x ∈ d.relationships) : [x.organizationID, x.fromAssetID, x.toAssetID, x.type] ∈
      db.relationships.rows.map (fun x => [x.organizationID, x.fromAssetID, x.toAssetID, x.type]) ++
        c.snapshot.relationships.map fun r => [c.snapshot.organizationID,
          (c.leads db r.externalFromID).getD "", (c.leads db r.externalToID).getD "", r.type] := by
  have hcols : ∀ key, x.key = key →
      [x.organizationID, x.fromAssetID, x.toAssetID, x.type] = [key.1, key.2.1, key.2.2.1, key.2.2.2] := by
    rintro _ rfl
    rfl
  rcases (linkTurns_keys hlinks x.key).mp ⟨x, hx, rfl⟩ with ⟨y, hy, hkey⟩ | ⟨y, hy, hkey⟩
  · rw [turns_relationships h.steps] at hy
    rw [hcols _ hkey.symm]
    exact List.mem_append_left _ (List.mem_map.mpr ⟨y, hy, rfl⟩)
  · obtain ⟨hfrom, hto⟩ := linkTurns_mem hlinks hy
    refine List.mem_append_right _ (List.mem_map.mpr ⟨y.observation, hsub y hy, ?_⟩)
    rw [hcols _ hkey.symm, leads_of_lookup h.steps h.all hfrom, leads_of_lookup h.steps h.all hto]
    rfl

theorem Entered.hashed_source {y : RelationshipSourceRow} (hy : y ∈ d.relationshipSources) :
    [y.organizationID, y.connectorID, y.externalFromID, y.externalToID, y.type] ∈
      db.relationshipSources.rows.map
          (fun y => [y.organizationID, y.connectorID, y.externalFromID, y.externalToID, y.type]) ++
        c.snapshot.relationships.map fun r =>
          [c.snapshot.organizationID, c.snapshot.connectorID, r.externalFromID, r.externalToID, r.type] := by
  rcases linkTurns_sources hlinks y.key with ⟨x, hx, hkey, -⟩ | ⟨-, hget⟩
  · have hcols : ∀ key, y.key = key → [y.organizationID, y.connectorID, y.externalFromID, y.externalToID, y.type] =
        [key.1, key.2.1, key.2.2.1, key.2.2.2.1, key.2.2.2.2] := by
      rintro _ rfl
      rfl
    rw [hcols _ hkey.symm]
    exact List.mem_append_right _ (List.mem_map.mpr ⟨x.observation, hsub x hx, rfl⟩)
  · rw [Table.mem_iff_get.mp hy, turns_relationships h.steps] at hget
    exact List.mem_append_left _ (List.mem_map.mpr ⟨y, Table.mem_of_get hget.symm, rfl⟩)

end

end

theorem linkTurns_observations (h : Steps (LinkTurn s now names) d₁ links d)
    {q : RelationshipObservationRow} (hq : q ∈ d.relationshipObservations) :
    q ∈ d₁.relationshipObservations ∨ ∃ x ∈ links, q = relationshipObservationRow s x.observation (x.id s)
      (orNow x.observation.observedAt now) := by
  induction h with
  | nil => exact .inl hq
  | @snoc l d₂ x d₃ _ hx ih =>
    rw [hx.observation, Table.mem_put_fresh hx.fresh] at hq
    rcases hq with rfl | hq
    · exact .inr ⟨x, by simp, rfl⟩
    · rcases ih hq with hold | ⟨y, hy, hrow⟩
      · exact .inl hold
      · exact .inr ⟨y, List.mem_append_left _ hy, hrow⟩

theorem linkRows_attempts (h : Steps (LinkTurn s now names) d₁ links d)
    (hnamed : ∀ e a, names.lookup e = some a → a ∈ assets) : Attempts s assets (links.flatMap (Link.rows s now)) := by
  intro r hr
  rw [linkRows_eq] at hr
  obtain ⟨x, hx, rfl⟩ := List.mem_map.mp hr
  exact ⟨x.fromAsset, hnamed _ _ (linkTurns_mem h (List.mem_filter.mp hx).1).1, _, by simp [changeTypes], _, _, _, rfl⟩

theorem lossRows_attempts {losses : List Loss} (h : Steps (LossTurn s) d₁ losses d)
    (hnamed : ∀ a, (d₁.assets.get a).isSome → a ∈ assets) : Attempts s assets (losses.flatMap (Loss.rows s)) := by
  intro r hr
  rw [lossRows_eq] at hr
  obtain ⟨x, hx, rfl⟩ := List.mem_map.mp hr
  obtain ⟨hx, hmarked⟩ := List.mem_filter.mp hx
  obtain ⟨_, d₂, d₃, _, hpre, hturn, -⟩ := h.at_mem hx
  obtain ⟨⟨row, hrow, -⟩, -⟩ := hturn.marks.mp hmarked
  have hasset := hnamed x.asset ((lossTurns_keys hpre x.asset).mp (by rw [hrow]; rfl))
  exact ⟨x.asset, hasset, _, by simp [changeTypes], _, _, _, rfl⟩

section

variable (hr : Ready c db) (h : Entered c db now sights d₁)
include hr h

section

variable (hlinks : Steps (LinkTurn c.snapshot now (entries sights)) d₁ links d)
include hlinks

theorem Ready.joins (hstamped : Stamped d)
    {pre post : List RelationshipObservation} {r : RelationshipObservation} (hpre : links.map Link.observation = pre)
    (hall : c.snapshot.relationships = pre ++ r :: post) {f g : String} (hf : c.leads db r.externalFromID = some f)
    (hg : c.leads db r.externalToID = some g) : Joins c.snapshot r f g d := by
  have hmem : r ∈ c.snapshot.relationships := by simp [hall]
  have hsub : ∀ x ∈ links, x.observation ∈ c.snapshot.relationships := by
    intro x hx
    have hxpre : x.observation ∈ pre := hpre ▸ List.mem_map_of_mem hx
    simp [hall, hxpre]
  refine ⟨fun hnone => ?_, fun hnone y hy hid => ?_, fun q hq => ?_⟩
  · by_contra hsome
    obtain ⟨x, hx⟩ := Option.ne_none_iff_exists'.mp hsome
    have hid := (hstamped.relationship x (Table.mem_of_get hx)).symm.trans (Table.key_of_get hx)
    have heq := hr.apart.relationship _ (h.hashed_relationship hlinks hsub (Table.mem_of_get hx)) _
      (List.mem_append_right _ (List.mem_map.mpr ⟨r, hmem, rfl⟩)) (by rw [hf, hg]; exact hid)
    rw [hf, hg] at heq
    simp only [Option.getD_some, List.cons.injEq, and_true] at heq
    refine absurd hnone (Option.ne_none_iff_isSome.mpr (findRelationship_isSome.mpr ⟨x, Table.mem_of_get hx, ?_⟩))
    rw [RelationshipRow.key, heq.1, heq.2.1, heq.2.2.1, heq.2.2.2]
  · have heq := hr.apart.source _ (h.hashed_source hlinks hsub hy) _
      (List.mem_append_right _ (List.mem_map.mpr ⟨r, hmem, rfl⟩)) ((hstamped.source y hy).symm.trans hid)
    simp only [List.cons.injEq, and_true] at heq
    refine Table.get_eq_none.mp hnone y hy ?_
    rw [RelationshipSourceRow.key, heq.1, heq.2.1, heq.2.2.1, heq.2.2.2.1, heq.2.2.2.2]
  · have hvalue : ∀ r ∈ c.snapshot.relationships,
        [c.snapshot.snapshotID, r.externalFromID, r.externalToID, r.type] ∈
          db.relationshipObservations.rows.map
              (fun q => [q.snapshotID, q.externalFromID, q.externalToID, q.type]) ++
            c.snapshot.relationships.map fun r =>
              [c.snapshot.snapshotID, r.externalFromID, r.externalToID, r.type] :=
      fun r hr => List.mem_append_right _ (List.mem_map.mpr ⟨r, hr, rfl⟩)
    rcases linkTurns_observations hlinks hq with hq | ⟨x, hx, rfl⟩
    · rw [turns_relationships h.steps] at hq
      have hold : q.snapshotID ≠ c.snapshot.snapshotID := by
        obtain ⟨q', hq', hkey⟩ := List.any_eq_true.mp (hr.linked.ends q hq).1
        rw [← (of_decide_eq_true hkey).1]
        exact hr.unobserved q' hq'
      refine ⟨fun hid => hold ?_, fun heq => hold heq.1⟩
      have heq := hr.apart.relationshipObservation _
        (List.mem_append_left _ (List.mem_map.mpr ⟨q, hq, rfl⟩)) _ (hvalue r hmem)
        ((hr.stamped.relationshipObservation q hq).symm.trans hid)
      exact List.head_eq_of_cons_eq heq
    · have hne : ¬ (x.observation.externalFromID = r.externalFromID ∧
          x.observation.externalToID = r.externalToID ∧ x.observation.type = r.type) := by
        rintro ⟨hfrom, hto, htype⟩
        have hnodup := hr.fitting.apart
        rw [hall, List.map_append, List.nodup_append] at hnodup
        have hxpre : x.observation ∈ pre := hpre ▸ List.mem_map_of_mem hx
        refine hnodup.2.2 _ (List.mem_map_of_mem hxpre) (relationshipKey r) (by simp) ?_
        rw [relationshipKey, relationshipKey, hfrom, hto, htype]
      refine ⟨fun hid => hne ?_, fun heq => hne heq.2⟩
      have heq := hr.apart.relationshipObservation _ (hvalue _ (hsub x hx)) _ (hvalue r hmem) hid
      simp only [List.cons.injEq, and_true] at heq
      exact heq.2

theorem Ready.links_unblocked : Unblocked c.snapshot (c.named db) d.changes := by
  have hlog := steps_logged (fun _ _ _ hx => hx.logged) hlinks
  exact (hr.turns_unblocked h.steps h.mem).logged hr.changes_apart hlog
    (linkRows_attempts hlinks fun _ _ he => h.named hr.wf he)

theorem Ready.missing_ne_error (hframe : d'.assets = d.assets ∧ d'.changes = d.changes) {l : List String}
    (herr : (l.foldlM (missingAsset c.snapshot) sum).run d' = .error err) : False := by
  obtain ⟨pre, a, post, sum₁, e, -, hpre, hmissing⟩ := run_foldlM_error herr
  obtain ⟨losses, -, -, hlosses⟩ := run_missing_turns hpre
  have hnamed : ∀ a, (d'.assets.get a).isSome → a ∈ c.named db := by
    intro a ha
    rw [hframe.1, linkTurns_frame hlinks] at ha
    exact turns_named h.steps hr.wf h.mem ha
  have hunblocked : Unblocked c.snapshot (c.named db) d'.changes := by
    rw [hframe.2]
    exact hr.links_unblocked h hlinks
  have hlog := steps_logged (fun _ _ _ hx => hx.logged) hlosses
  have hunblocked := hunblocked.logged hr.changes_apart hlog (lossRows_attempts hlosses hnamed)
  obtain ⟨⟨⟨row, hrow, -⟩, -⟩, hblocks⟩ := run_missingAsset_error hmissing
  have ha := hnamed a ((lossTurns_keys hlosses a).mp (by rw [hrow]; rfl))
  exact hunblocked.not_blocks ha (by simp [changeTypes]) hblocks

theorem Ready.sweep_ne_error {n : ℕ}
    (herr : (markMissing c.order c.snapshot n sum).run d = .error err) : False := by
  unfold markMissing at herr
  obtain ⟨_, e₁, h1, herr⟩ := run_update_bind_error herr
  obtain ⟨_, e₂, h2, herr⟩ := run_update_bind_error herr
  rw [run_bind_eq_error] at herr
  rcases herr with herr | ⟨_, e₃, h3, herr⟩
  · refine hr.missing_ne_error h hlinks ?_ herr
    rw [(run_sweepIdentities h1 h2).frame]
    exact ⟨rfl, rfl⟩
  obtain ⟨_, e₄, h4, herr⟩ := run_update_bind_error herr
  obtain ⟨_, e₅, h5, herr⟩ := run_update_bind_error herr
  exact run_removed_ne_error herr

end

/-- Nothing stops the relationship loop. -/
theorem Ready.relationships_ne_error
    (herr : (c.snapshot.relationships.foldlM (relate c.snapshot now (entries sights)) sum).run d₁ = .error err) :
    False := by
  obtain ⟨pre, r, post, sum₁, d, hall, hpre, hrelate⟩ := run_foldlM_error herr
  have hmem : r ∈ c.snapshot.relationships := by simp [hall]
  have hstamped := run_stamped (Along.foldlM (fun sum x hx _ =>
    relate_issued now (fun _ _ => trivial) sum (by simp [hall, hx])) trivial) hpre h.stamped
  obtain ⟨links, hobs, -, hlinks⟩ := run_relationships_turns hpre
  obtain ⟨f, hf⟩ := Option.isSome_iff_exists.mp (h.lookup (hr.fitting.ends r hmem).1)
  obtain ⟨g, hg⟩ := Option.isSome_iff_exists.mp (h.lookup (hr.fitting.ends r hmem).2)
  have hjoins := hr.joins h hlinks hstamped hobs hall (leads_of_lookup h.steps h.all hf)
    (leads_of_lookup h.steps h.all hg)
  unfold relate at hrelate
  rw [run_bind_eq_error, hf, hg] at hrelate
  rcases hrelate with hfail | ⟨_, d', hok, hrelate⟩
  · have hcheck := (run_failIf_eq_error.mp hfail).1
    simp only [Option.isNone_some, Bool.false_eq_true, false_or] at hcheck
    exact hr.fitting.typed r hmem hcheck
  · obtain ⟨-, rfl⟩ := run_failIf_ok.mp hok
    exact run_relateAssets_error hrelate hjoins (hr.links_unblocked h hlinks) (h.named hr.wf hf)

end

theorem Ready.run_ne_error (hr : Ready c db) {r : RunRow} (hid : r.id = stableID "reconciliation" [r.snapshotID])
    (hsnapshot : r.snapshotID = c.snapshot.snapshotID) (hruns : d.runs = db.runs)
    (herr : (exec (insertRun r)).run d = .error err) : False := by
  have hrefused := run_insert_eq_error.mp herr
  have hfree : ∀ x ∈ db.runs, x.id ≠ r.id ∧ ¬ x.snapshotID = r.snapshotID := by
    intro x hx
    rw [hid, hsnapshot, hr.stamped.run x hx]
    refine ⟨fun heq => ?_, hr.fresh x hx⟩
    have hhead := hr.apart.run _ (List.mem_append_left _ (List.mem_map.mpr ⟨x, hx, rfl⟩)) _ (by simp) heq
    exact hr.fresh x hx (List.head_eq_of_cons_eq hhead)
  rw [hruns] at hrefused
  cases (Table.unrefused hfree).symm.trans hrefused

end

/-- A call that stops was stopped by an observation. -/
theorem Ready.error (hr : Ready c db) (h : c.run db = .error err) :
    ∃ pre o post, c.snapshot.assets = pre ++ o :: post ∧
      Refused c.snapshot ((db.bindings c.snapshot).after c.snapshot pre) o err := by
  unfold ApplyCall.run applyPostgres at h
  rw [run_bind_eq_error] at h
  rcases h with h | ⟨_, db, h1, h⟩
  · exact absurd (run_failIf_eq_error.mp h).1 hr.fitting.named
  obtain ⟨-, rfl⟩ := run_failIf_ok.mp h1
  rw [run_bind_eq_error] at h
  rcases h with h | ⟨st, d₁, h1, h⟩
  · exact hr.assets_error h
  exfalso
  have hstamped := run_stamped (Along.foldlM (fun st x hx hst =>
    observe_issued (names_any c.snapshot) c.order _ hx hst) (by simp)) h1 hr.stamped
  obtain ⟨sights, hall, hst, -, hsteps⟩ := run_assets_turns h1
  have hentered : Entered c db (orNow c.snapshot.completedAt c.clock) sights d₁ := ⟨hall, hsteps, hstamped⟩
  rw [show st.assets = entries sights from hst, run_bind_eq_error] at h
  rcases h with h | ⟨sum₁, d₂, h2, h⟩
  · exact hr.relationships_ne_error hentered h
  obtain ⟨links, -, -, hlinks⟩ := run_relationships_turns h2
  rw [run_bind_eq_error] at h
  rcases h with h | ⟨sum₂, d₃, h3, h⟩
  · exact hr.sweep_ne_error hentered hlinks h
  obtain ⟨missing, e₁, sum₃, e₂, removed, e₃, hids, hloss, hsources, hremoved⟩ := run_markMissing h3
  rw [run_bind_eq_error] at h
  rcases h with h | ⟨_, _, -, h⟩
  · refine hr.run_ne_error rfl rfl ?_ h
    rw [run_removed_frame hremoved, hsources.frame, run_missing_frame hloss, hids.frame, linkTurns_frame hlinks,
      turns_relationships hsteps]
  · cases h

theorem ApplyCall.checked {db' : Db} (h : c.run db = .ok (sum, db')) {pre post : List Observation}
    (hassets : c.snapshot.assets = pre ++ o :: post) :
    assetTypeLabels.lookup o.assetType ≠ none ∧ (∀ e ∈ o.attributes.entries, byteLen e.1 ≤ 200) ∧
      ¬ ((db.bindings c.snapshot).after c.snapshot pre).Refuses c.snapshot o := by
  obtain ⟨st, d₁, d₂, d₃, sum₂, happ⟩ := ApplyCall.run_ok h
  have hobserve := happ.observe
  rw [hassets, List.foldlM_append] at hobserve
  obtain ⟨st₁, e₁, hpre, hrest⟩ := run_bind_ok.mp hobserve
  obtain ⟨st₂, e₂, hself, -⟩ := run_bind_ok.mp hrest
  obtain ⟨sights, hsights, -, -, hsteps⟩ := run_assets_turns hpre
  rw [← hsights, ← turns_bindings hsteps]
  exact run_observe_checked hself

end

variable {db₀ db : Db} {h : List ApplyCall} {c : ApplyCall} (h0 : db₀.InventoryEmpty) (hr : Runs db₀ h db)
  (hfresh : ∀ c' ∈ h, c'.snapshot.snapshotID ≠ c.snapshot.snapshotID)
  (hvalid : validSnapshotContract c.snapshot = true) (hapart : Collisionless c db)
include h0 hr hfresh hvalid hapart

theorem Runs.ready : Ready c db where
  wf := (hr.inventory h0).toWf
  stamped := hr.stamped h0
  rooted := hr.rooted h0
  linked := hr.linked h0
  journaled := hr.journaled h0
  recorded := hr.recorded h0
  fresh x hx heq := by
    obtain ⟨c', hc', he⟩ := hr.run_of h0 x hx
    exact hfresh c' hc' (he.trans heq)
  fitting := fitting_of_contract hvalid
  apart := hapart

/-- For a new snapshot that the contract accepts, a call returns an error exactly
when an asset type is unknown, an attribute key is too long, or, with the bindings
that the observations before have made, a strong identity is bound to another
asset; no other error is returned. -/
theorem apply_error_iff : ((∃ err, c.run db = .error err) ↔
      (∃ o ∈ c.snapshot.assets, assetTypeLabels.lookup o.assetType = none) ∨
      (∃ o ∈ c.snapshot.assets, ∃ e ∈ o.attributes.entries, 200 < byteLen e.1) ∨
      ∃ pre o post, c.snapshot.assets = pre ++ o :: post ∧
        ((db.bindings c.snapshot).after c.snapshot pre).Refuses c.snapshot o) ∧
    ∀ err, c.run db = .error err →
      (∃ o ∈ c.snapshot.assets, err = .errorf "unknown asset type %q" [o.assetType]) ∨
      err = .errorf "attribute key exceeds 200 characters" [] ∨
      err = .errorf "strong identifiers resolve to conflicting canonical assets" [] ∨
      err = .errorf "strong identifier is already bound to another canonical asset" [] := by
  have hready := hr.ready h0 hfresh hvalid hapart
  refine ⟨⟨fun hfail => ?_, fun hcause => ?_⟩, fun err herr => ?_⟩
  · obtain ⟨err, herr⟩ := hfail
    obtain ⟨pre, o, post, hassets, hrefused⟩ := hready.error herr
    have ho : o ∈ c.snapshot.assets := by simp [hassets]
    cases hrefused with
    | assetType htype => exact .inl ⟨o, ho, htype⟩
    | attributeKey he hlong => exact .inr (.inl ⟨o, ho, _, he, hlong⟩)
    | conflicting hrefuses => exact .inr (.inr ⟨pre, o, post, hassets, hrefuses⟩)
    | bound hrefuses => exact .inr (.inr ⟨pre, o, post, hassets, hrefuses⟩)
  · cases hrun : c.run db with
    | error err => exact ⟨err, rfl⟩
    | ok out =>
      exfalso
      rcases hcause with ⟨o, ho, htype⟩ | ⟨o, ho, e, he, hlong⟩ | ⟨pre, o, post, hassets, hrefuses⟩
      · obtain ⟨pre, post, hassets⟩ := List.append_of_mem ho
        exact (ApplyCall.checked hrun hassets).1 htype
      · obtain ⟨pre, post, hassets⟩ := List.append_of_mem ho
        exact absurd ((ApplyCall.checked hrun hassets).2.1 e he) (not_le.mpr hlong)
      · exact (ApplyCall.checked hrun hassets).2.2 hrefuses
  · obtain ⟨pre, o, post, hassets, hrefused⟩ := hready.error herr
    cases hrefused with
    | assetType => exact .inl ⟨o, by simp [hassets], rfl⟩
    | attributeKey => exact .inr (.inl rfl)
    | conflicting => exact .inr (.inr (.inl rfl))
    | bound => exact .inr (.inr (.inr rfl))

end

def hinted (external : String) (hints : GoMap Json) : Observation :=
  { externalID := external, assetType := "SERVICE", observedAt := 5000, attributes := GoMap.nil
    identityHints := hints, status := "OBSERVED" }

def tornSeen : Observation :=
  hinted "c" (goMap [("terraform_resource_id", .str "2"), ("external_cmdb_id", .str "1")] (by simp))

def tornCall : ApplyCall :=
  callOf (snapshotOf "torn" "one" [hinted "a" (goMap [("external_cmdb_id", .str "1")] (by simp)),
    hinted "b" (goMap [("terraform_resource_id", .str "2")] (by simp)), tornSeen] [])

theorem collisionless_torn : @Collisionless toy tornCall emptyDb := by decide +kernel

theorem apply_error_iff_torn : ∃ err, @ApplyCall.run toy tornCall emptyDb = .error err := by
  refine (@apply_error_iff toy emptyDb emptyDb [] tornCall emptyDb_inventory (@Runs.nil toy emptyDb) (by simp)
    (by decide +kernel) collisionless_torn).1.mpr (.inr (.inr ⟨tornCall.snapshot.assets.take 2, tornSeen, [], rfl, ?_⟩))
  exact ⟨("external_cmdb_id", "1"), by decide +kernel, _, rfl, by decide +kernel⟩

end Infragraph
