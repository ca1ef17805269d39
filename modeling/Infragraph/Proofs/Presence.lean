import Infragraph.Proofs.Bindings
import Infragraph.Proofs.Counters

/-! The MISSING and RETURNED rows of an asset. A call writes one row for each
transition of the asset, so along a history the rows alternate, as long as no
asset comes back through a strong identity alone: that path sets the status and
records nothing. -/

namespace Infragraph

open Relational ReadCommitted Prog

/-- The types of the presence changes recorded for the asset, in the order they were written. -/
def presenceChanges (rows : List ChangeRow) (a : String) : List String :=
  (rows.filter fun x => x.assetID = a && (x.changeType = "ASSET_MISSING" || x.changeType = "ASSET_RETURNED")).map
    (·.changeType)

def alternation (n : ℕ) : List String :=
  (List.range n).map fun i => if i % 2 = 0 then "ASSET_MISSING" else "ASSET_RETURNED"

theorem alternation_succ (n : ℕ) : alternation (n + 1) =
    alternation n ++ [if n % 2 = 0 then "ASSET_MISSING" else "ASSET_RETURNED"] := by
  simp [alternation, List.range_succ]

section

variable [Hashes]

/-- An asset that is MISSING is not met through a strong identity alone: before an
observation with a new external ID leads to it, one with a known ID has. -/
def ApplyCall.ReturnsKnown (c : ApplyCall) (db : Db) : Prop :=
  ∀ pre o post a, c.snapshot.assets = pre ++ o :: post →
    db.assetOf c.snapshot.organizationID c.snapshot.connectorID o.externalID = none →
    c.leads db o.externalID = some a → db.isMissing a = true →
    ∃ o' ∈ pre, db.assetOf c.snapshot.organizationID c.snapshot.connectorID o'.externalID = some a

/-- Histories in which every successful call meets a condition on it and the
database it starts from. -/
inductive RunsWhere (P : ApplyCall → Db → Prop) (db₀ : Db) : List ApplyCall → Db → Prop
  | nil : RunsWhere P db₀ [] db₀
  | succeed {h db c summary db'} : RunsWhere P db₀ h db → P c db → ApplyCall.run c db = .ok (summary, db') →
      RunsWhere P db₀ (h ++ [c]) db'
  | fail {h db c e} : RunsWhere P db₀ h db → ApplyCall.run c db = .error e → RunsWhere P db₀ h db
  | other {h db} (policies snapshots connectors collectors credentials auditEvents) : RunsWhere P db₀ h db →
      RunsWhere P db₀ h { db with policies, snapshots, connectors, collectors, credentials, auditEvents }

theorem RunsWhere.runs {P : ApplyCall → Db → Prop} {db₀ db : Db} {h : List ApplyCall} (hr : RunsWhere P db₀ h db) :
    Runs db₀ h db := by
  induction hr with
  | nil => exact .nil
  | succeed _ _ hc ih => exact ih.succeed hc
  | fail _ hc ih => exact ih.fail hc
  | other p sn cn cl cr a _ ih => exact ih.other p sn cn cl cr a

variable {db db' : Db} {c : ApplyCall} {sum : Summary} {s : SnapshotEnvelope} {now : Time}
  {sights : List Sight} {t : Trace} {a : String}

theorem turns_kept (h : Steps (Turn s now) db sights db') : Kept db db' :=
  h.invariant (I := fun d => Kept db d) (Kept.refl db) fun _ _ _ _ hd hx => hd.trans hx.kept

omit [Hashes] in
theorem Inventory.present_iff (h : Inventory db) : db.Present a ↔ db.isMissing a = false := by
  unfold Db.Present Db.isMissing
  cases hr : db.assets.get a with
  | none => simp
  | some r =>
    have hsettled := h.settled r (Table.mem_of_get hr)
    simp only [Option.some.injEq, forall_eq', Option.any_some, decide_eq_false_iff_not]
    refine ⟨And.left, fun hne => ⟨hne, ?_⟩⟩
    rw [hsettled.present hne]
    split_ifs <;> simp

omit [Hashes] in
/-- The first observation that leads to the asset. -/
theorem first_sight (h : ∃ x ∈ sights, x.asset = a) :
    ∃ pre x post, sights = pre ++ x :: post ∧ x.asset = a ∧ ∀ y ∈ pre, y.asset ≠ a := by
  cases hf : sights.find? fun x => x.asset = a with
  | none =>
    obtain ⟨x, hx, hxa⟩ := h
    exact absurd hxa (by simpa using List.find?_eq_none.mp hf x hx)
  | some x =>
    obtain ⟨hxa, pre, post, hs, hpre⟩ := List.find?_eq_some_iff_append.mp hf
    exact ⟨pre, x, post, hs, of_decide_eq_true hxa, fun y hy => by simpa using hpre y hy⟩

section

variable (h : Traced c db t sum db')
include h

theorem Traced.leads_known {e : String}
    (he : db.assetOf c.snapshot.organizationID c.snapshot.connectorID e = some a) : c.leads db e = some a := by
  rw [h.leads]
  exact h.loaded.kept.assetOf he

/-- An asset that was MISSING and is seen again is first met by an observation
that records its return. -/
theorem Traced.first_returned
    (hknown : c.ReturnsKnown db) (hmissing : db.isMissing a = true) (hseen : ∃ x ∈ t.sights, x.asset = a) :
    ∃ x ∈ t.sights, x.asset = a ∧ x.kind.isReturned = true := by
  obtain ⟨pre, x, post, hsights, rfl, hpre⟩ := first_sight hseen
  refine ⟨x, by simp [hsights], rfl, ?_⟩
  have hobserve := h.observe
  rw [hsights] at hobserve
  obtain ⟨d, d', hsteps, hturn, -⟩ := hobserve.split
  have hrow : ∃ r, d.assets.get x.asset = some r ∧ r.status = .missing := by
    rw [(turns_unseen hsteps hpre).2]
    exact isMissing_iff_row.mp hmissing
  obtain ⟨r, hr, hst⟩ := hrow
  cases hi : d.sourceIdentities.get (c.snapshot.organizationID, c.snapshot.connectorID, x.observation.externalID) with
  | some i =>
    obtain ⟨r', hr', -, hk⟩ := hturn.sighted.known i hi
    rw [hr] at hr'
    cases hr'
    rw [hk, if_pos (.inl hst)]
    rfl
  | none =>
    rcases hturn.sighted.unknown hi with - | ⟨-, -, hnone, -⟩
    · -- the external ID is new, so an observation with a known one came before
      have hnew : db.assetOf c.snapshot.organizationID c.snapshot.connectorID x.observation.externalID = none := by
        rw [Option.eq_none_iff_forall_ne_some]
        intro b hb
        obtain ⟨i, hi', -⟩ := Option.map_eq_some_iff.mp ((turns_kept hsteps).assetOf hb)
        rw [hi] at hi'
        cases hi'
      obtain ⟨o, ho, hoa⟩ := hknown (pre.map Sight.observation) x.observation (post.map Sight.observation) x.asset
        (by simp [← h.assets, hsights]) hnew (h.sight_leads (by simp [hsights])) hmissing
      obtain ⟨y, hy, rfl⟩ := List.mem_map.mp ho
      have hlead := h.sight_leads (x := y) (by simp [hsights, hy])
      rw [h.leads_known hoa] at hlead
      exact absurd (Option.some.inj hlead).symm (hpre y hy)
    · rw [hr] at hnone
      cases hnone

/-- The assets whose return the call records are those that it takes out of MISSING. -/
theorem Traced.returned_iff
    (hknown : c.ReturnsKnown db) (hrec : db.Recorded) (hinv : Inventory db) (hinv' : Inventory db') :
    a ∈ (t.sights.filter fun x => x.kind.isReturned).map Sight.asset ↔
      db.isMissing a = true ∧ db'.isMissing a = false := by
  have hafter : db'.isMissing a = false ↔ ¬ ((db'.assets.get a).isSome ∧ c.Loses db a) := by
    rw [← h.isMissing_after hrec hinv', Bool.not_eq_true]
  constructor
  · intro ha
    obtain ⟨x, hx, rfl⟩ := List.mem_map.mp ha
    obtain ⟨hx, hk⟩ := List.mem_filter.mp hx
    refine ⟨?_, hafter.mpr fun hc => h.passes_iff.mp hc.2.passes x hx rfl⟩
    obtain ⟨_, d, d', _, hsteps, hturn, -⟩ := h.observe.at_mem hx
    rw [← Bool.not_eq_false, ← hinv.present_iff]
    exact fun hp => hturn.returned hk (turns_present hsteps hinv.toWf hp)
  · intro hparts
    obtain ⟨hbefore, hout⟩ := hparts
    have hseen : ∃ x ∈ t.sights, x.asset = a := by
      by_contra hno
      push Not at hno
      obtain ⟨hrow, hoff⟩ := hinv.isMissing_iff.mp hbefore
      refine hafter.mp hout ⟨?_, h.passes_iff.mpr hno, fun i hi hia hact => ?_⟩
      · rw [h.keys_after, (turns_unseen h.observe hno).2]
        exact hrow
      · exact absurd (Infragraph.anyActive_iff.mpr ⟨i, hi, hia, hact⟩) (by simp [hoff])
    obtain ⟨x, hx, hxa, hk⟩ := h.first_returned hknown hbefore hseen
    exact List.mem_map.mpr ⟨x, List.mem_filter.mpr ⟨hx, hk⟩, hxa⟩

theorem Traced.newRow_iff (hwf : Wf db) (hj : Journaled db) (type : String) :
    (∃ x ∈ db.changes.newRows db'.changes, x.assetID = a ∧ x.changeType = type) ↔
      a ∈ attemptAssets type (attempts c.snapshot (orNow c.snapshot.completedAt c.clock) t.sights t.links t.losses) := by
  have hsub := h.logged.newRows_sublist
  simp only [attemptAssets, List.mem_map, List.mem_filter, decide_eq_true_eq]
  constructor
  · rintro ⟨x, hx, hxa, htype⟩
    exact ⟨x, ⟨hsub.subset hx, htype⟩, hxa⟩
  · rintro ⟨r, ⟨hr, rfl⟩, rfl⟩
    obtain ⟨x, hx, hslot⟩ := h.logged.slot_taken hr
    have hnew : x ∉ db.changes := fun hold => h.free hwf hj hr x hold hslot
    have hattempt := (h.logged.mem_or hx).resolve_left hnew
    have hsame := (attempts_of hattempt).slot_inj (attempts_of hr) hslot
    refine ⟨x, Table.mem_newRows.mpr ⟨hx, ?_⟩, hsame⟩
    rw [Table.get_eq_none]
    intro y hy hid
    exact hnew (Table.eq_of_key (h.logged.kept hy) hx hid ▸ hy)

/-- A call writes one row for a transition of the asset and none otherwise. -/
theorem Traced.presence (hknown : c.ReturnsKnown db) (hrec : db.Recorded) (hj : Journaled db) (hinv : Inventory db)
    (hinv' : Inventory db') (a : String) : presenceChanges (db.changes.newRows db'.changes) a =
      if db.isMissing a = true ∧ db'.isMissing a = false then ["ASSET_RETURNED"]
      else if db.isMissing a = false ∧ db'.isMissing a = true then ["ASSET_MISSING"] else [] := by
  have hreturned : (∃ x ∈ db.changes.newRows db'.changes, x.assetID = a ∧ x.changeType = "ASSET_RETURNED") ↔
      db.isMissing a = true ∧ db'.isMissing a = false := by
    rw [h.newRow_iff hinv.toWf hj, attempts_assets, attemptAssets_flatMap (fun x => x.kind.isReturned) Sight.asset
      fun x => by simp [sightRows_assets], ← h.returned_iff hknown hrec hinv hinv']
    simp
  have hmissing : (∃ x ∈ db.changes.newRows db'.changes, x.assetID = a ∧ x.changeType = "ASSET_MISSING") ↔
      db.isMissing a = false ∧ db'.isMissing a = true := by
    rw [h.newRow_iff hinv.toWf hj, attempts_assets, attemptAssets_flatMap (fun _ => false) Sight.asset
      fun x => by simp [sightRows_assets], h.turns_missing hrec hinv hinv']
    simp
  obtain ⟨added, hrows, hsub, hnodup, -⟩ := h.logged.rows
  rw [Table.newRows_append hrows] at hreturned hmissing ⊢
  have honce : ∀ x ∈ added, ∀ y ∈ added, x.assetID = a → y.assetID = a → x.changeType = y.changeType → x = y := by
    intro x hx y hy hxa hya htype
    refine List.inj_on_of_nodup_map hnodup hx hy ?_
    rw [(attempts_of (hsub.subset hx)).slot, (attempts_of (hsub.subset hy)).slot, hxa, hya, htype]
  -- the two kinds exclude each other, so the rows of the asset are at most one
  have hkind : ∀ t, (∀ x ∈ added, x.assetID = a → (x.changeType = "ASSET_MISSING" ∨ x.changeType = "ASSET_RETURNED") →
      x.changeType = t) → (∃ x ∈ added, x.assetID = a ∧ x.changeType = t) →
      t = "ASSET_MISSING" ∨ t = "ASSET_RETURNED" → presenceChanges added a = [t] := by
    rintro t hall ⟨x, hx, hxa, hxt⟩ ht
    have hfilter : (added.filter fun x => x.assetID = a &&
        (x.changeType = "ASSET_MISSING" || x.changeType = "ASSET_RETURNED")).Perm [x] := by
      rw [List.perm_ext_iff_of_nodup ((List.Nodup.of_map _ hnodup).filter _) (List.nodup_singleton x)]
      intro y
      simp only [List.mem_filter, Bool.and_eq_true, decide_eq_true_eq, Bool.or_eq_true, List.mem_singleton]
      constructor
      · rintro ⟨hy, hya, hyt⟩
        exact honce y hy x hx hya hxa ((hall y hy hya hyt).trans hxt.symm)
      · rintro rfl
        exact ⟨hx, hxa, hxt ▸ ht⟩
    rw [presenceChanges, List.perm_singleton.mp hfilter, List.map_singleton, hxt]
  split_ifs with hr hm
  · refine hkind _ (fun x hx hxa ht => ht.resolve_left fun hxm => ?_) (hreturned.mpr hr) (.inr rfl)
    have := (hmissing.mp ⟨x, hx, hxa, hxm⟩).1
    rw [hr.1] at this
    cases this
  · refine hkind _ (fun x hx hxa ht => ht.resolve_right fun hxr => ?_) (hmissing.mpr hm) (.inl rfl)
    exact hr (hreturned.mp ⟨x, hx, hxa, hxr⟩)
  · rw [presenceChanges, List.filter_eq_nil_iff.mpr, List.map_nil]
    intro x hx hp
    simp only [Bool.and_eq_true, decide_eq_true_eq, Bool.or_eq_true] at hp
    rcases hp.2 with hxm | hxr
    · exact hm (hmissing.mp ⟨x, hx, hp.1, hxm⟩)
    · exact hr (hreturned.mp ⟨x, hx, hp.1, hxr⟩)

end

theorem Runs.presence {db₀ : Db} {h : List ApplyCall} (hr : Runs db₀ h db) (h0 : db₀.InventoryEmpty)
    (hknown : c.ReturnsKnown db) (hc : c.run db = .ok (sum, db')) :
    db'.changes.rows = db.changes.rows ++ db.changes.newRows db'.changes ∧
      ∀ a, presenceChanges (db.changes.newRows db'.changes) a =
        if db.isMissing a = true ∧ db'.isMissing a = false then ["ASSET_RETURNED"]
        else if db.isMissing a = false ∧ db'.isMissing a = true then ["ASSET_MISSING"] else [] := by
  obtain ⟨t, ht⟩ := ApplyCall.traced hc
  have hinv := hr.inventory h0
  obtain ⟨added, hrows, -⟩ := ht.logged.rows
  refine ⟨by rw [Table.newRows_append hrows]; exact hrows, ?_⟩
  exact ht.presence hknown (hr.recorded h0) (hr.journaled h0) hinv (ApplyCall.inventory hc hinv)

omit [Hashes] in
theorem presenceChanges_append (l l' : List ChangeRow) (a : String) :
    presenceChanges (l ++ l') a = presenceChanges l a ++ presenceChanges l' a := by
  simp [presenceChanges]

/-- The presence rows of an asset alternate, and the asset is MISSING after an odd number of them. -/
theorem RunsWhere.alternates {db₀ : Db} {h : List ApplyCall} (hr : RunsWhere ApplyCall.ReturnsKnown db₀ h db)
    (h0 : db₀.InventoryEmpty) (a : String) :
    ∃ n, presenceChanges db.changes.rows a = alternation n ∧ (db.isMissing a = true ↔ n % 2 = 1) := by
  induction hr with
  | nil => exact ⟨0, by simp [h0.changes, presenceChanges, Table.empty, alternation], by simp [Db.isMissing, h0.assets]⟩
  | @succeed h d c sum d' hruns hknown hc ih =>
    obtain ⟨n, hlog, hodd⟩ := ih
    obtain ⟨hrows, hnew⟩ := hruns.runs.presence h0 hknown hc
    rw [hrows, presenceChanges_append, hlog, hnew a]
    by_cases hbefore : d.isMissing a = true <;> by_cases hafter : d'.isMissing a = true
    · exact ⟨n, by simp [hbefore, hafter], by simpa [hafter, hbefore] using hodd⟩
    · have hn : n % 2 = 1 := hodd.mp hbefore
      exact ⟨n + 1, by simp [hbefore, hafter, alternation_succ, hn], iff_of_false hafter (by omega)⟩
    · have hn : ¬ n % 2 = 1 := fun hn => hbefore (hodd.mpr hn)
      exact ⟨n + 1, by simp [hbefore, hafter, alternation_succ, hn], iff_of_true hafter (by omega)⟩
    · exact ⟨n, by simp [hbefore, hafter], by simpa [hafter, hbefore] using hodd⟩
  | fail _ _ ih => exact ih
  | other p sn cn cl cr au _ ih => exact ih

/-- In every history whose calls meet the condition, the MISSING and RETURNED rows
of every asset alternate and begin with MISSING; a call adds its rows at the end,
one RETURNED for an asset it takes out of MISSING, one MISSING for an asset it
turns into MISSING, and no such row for any other. -/
theorem runs_presence {db₀ : Db} {h : List ApplyCall} (h0 : db₀.InventoryEmpty)
    (hr : RunsWhere ApplyCall.ReturnsKnown db₀ h db) :
    (∀ a, ∃ n, presenceChanges db.changes.rows a = alternation n ∧ (db.isMissing a = true ↔ n % 2 = 1)) ∧
    ∀ c sum db', ApplyCall.ReturnsKnown c db → c.run db = .ok (sum, db') →
      db'.changes.rows = db.changes.rows ++ db.changes.newRows db'.changes ∧
      ∀ a, presenceChanges (db.changes.newRows db'.changes) a =
        if db.isMissing a = true ∧ db'.isMissing a = false then ["ASSET_RETURNED"]
        else if db.isMissing a = false ∧ db'.isMissing a = true then ["ASSET_MISSING"] else [] :=
  ⟨hr.alternates h0, fun _ _ _ hknown hc => hr.runs.presence h0 hknown hc⟩

end

def appAsset : String := @stableID toy "asset" ["org", "one", "app"]

theorem runs_presence_lost : ∃ db, @RunsWhere toy (@ApplyCall.ReturnsKnown toy) emptyDb [firstCall, emptyCall] db ∧
    db.isMissing appAsset = true ∧ ∃ n, presenceChanges db.changes.rows appAsset = alternation n ∧ n % 2 = 1 := by
  have hok : succeeds firstCall emptyDb (fun out =>
      succeeds emptyCall out.2 (fun out' => out'.2.isMissing appAsset)) = true := by decide +kernel
  obtain ⟨sum, d, hrun, hsecond⟩ := run_of_succeeds hok
  obtain ⟨sum', d', hrun', hlost⟩ := run_of_succeeds hsecond
  have hruns : @RunsWhere toy (@ApplyCall.ReturnsKnown toy) emptyDb [firstCall, emptyCall] d' := by
    refine @RunsWhere.succeed toy _ _ [firstCall] _ _ _ _
      (@RunsWhere.succeed toy _ _ [] _ _ _ _ (@RunsWhere.nil toy _ _) ?_ hrun) ?_ hrun'
    · -- nothing is MISSING yet
      intro pre o post a _ _ _ hmissing
      exact absurd hmissing Bool.false_ne_true
    · -- nothing is observed
      intro pre o post a hassets
      exact absurd hassets (by simp [emptyCall, callOf, snapshotOf])
  obtain ⟨n, hlog, hodd⟩ := (@runs_presence toy _ _ _ emptyDb_inventory hruns).1 appAsset
  exact ⟨_, hruns, hlost, n, hlog, hodd.mp hlost⟩

def renamedCall : ApplyCall := callOf (snapshotOf "renamed" "one" [appSeen "app-renamed" "production"] [])

def emptyAgainCall : ApplyCall := callOf (snapshotOf "empty-again" "one" [] [])

/-- The application returns through its strong identity without a row. -/
theorem return_not_recorded : @Runs toy emptyDb [firstCall, emptyCall, renamedCall, emptyAgainCall]
      (replayed [firstCall, emptyCall, renamedCall, emptyAgainCall]) ∧
    (replayed [firstCall, emptyCall]).isMissing appAsset = true ∧
    (replayed [firstCall, emptyCall, renamedCall]).isMissing appAsset = false ∧
    presenceChanges (replayed [firstCall, emptyCall, renamedCall, emptyAgainCall]).changes.rows appAsset =
      ["ASSET_MISSING", "ASSET_MISSING"] :=
  ⟨runs_replayed (by decide +kernel), by decide +kernel, by decide +kernel, by decide +kernel⟩

end Infragraph
