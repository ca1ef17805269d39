import Infragraph.Proofs.MemoryLinks
import Infragraph.Proofs.Refusals
import Infragraph.Proofs.StoreLinks

/-! Where the two engines agree. Each of them keeps the register of the external IDs,
with the same threshold, and of the relationships, the in-memory one with the
threshold 1. What tells them apart on assets is only that `ApplyPostgres` refuses
long attribute keys, and PostgreSQL texts with a NUL. -/

namespace Infragraph

open Relational ReadCommitted Prog

/-- Successful snapshots of one connector, each of its own, that the contract accepts:
their asset types are known, no observation has a strong identity, and `safe` tells
their external IDs apart. -/
@[mk_iff] structure Comparable (org connector : String) (ts : List Twin) : Prop where
  source : ∀ t ∈ ts, t.snapshot.organizationID = org ∧ t.snapshot.connectorID = connector
  distinct : (ts.map fun t => t.snapshot.snapshotID).Nodup
  accepted : ∀ t ∈ ts, validSnapshotContract t.snapshot = true
  typed : ∀ t ∈ ts, ∀ o ∈ t.snapshot.assets, assetTypeLabels.lookup o.assetType ≠ none
  weak : ∀ t ∈ ts, t.snapshot.Weak
  safe : ∀ t ∈ ts, ∀ e ∈ t.snapshot.observedIDs, ∀ t' ∈ ts, ∀ e' ∈ t'.snapshot.observedIDs,
    Memory.safe e = Memory.safe e' → e = e'

instance (org connector : String) (ts : List Twin) : Decidable (Comparable org connector ts) :=
  decidable_of_iff _ (comparable_iff org connector ts).symm

/-- No attribute key is longer than `ApplyPostgres` takes it. -/
def SnapshotEnvelope.ShortKeys (s : SnapshotEnvelope) : Prop :=
  ∀ o ∈ s.assets, ∀ e ∈ o.attributes.entries, byteLen e.1 ≤ 200

instance (s : SnapshotEnvelope) : Decidable s.ShortKeys :=
  inferInstanceAs (Decidable (∀ o ∈ s.assets, ∀ e ∈ o.attributes.entries, byteLen e.1 ≤ 200))

theorem SnapshotEnvelope.Fitting.link_ends {s : SnapshotEnvelope} (h : s.Fitting) :
    ∀ k ∈ s.triples, k.1 ∈ s.observedIDs ∧ k.2.1 ∈ s.observedIDs := by
  intro k hk
  obtain ⟨x, hx, rfl⟩ := Memory.mem_triples.mp hk
  exact ⟨mem_observedIDs.mpr (h.ends x hx).1, mem_observedIDs.mpr (h.ends x hx).2⟩

namespace Memory

variable {s s' : SnapshotEnvelope} {n : ℕ} {r : Register String} {q : Register LinkName} {st : State}

theorem Follows.assetStatus (h : Follows s n r st) (e : String) :
    st.assetStatus s.organizationID s.connectorID e = r.state n .active .missing e := by
  have hfind : st.externalToAsset.find (s.organizationID ++ "|" ++ s.connectorID ++ "|" ++ e) =
    if e ∈ r.known then some ("asset-" ++ safe e) else none := h.find e
  unfold State.assetStatus
  rw [hfind]
  split_ifs with he
  · exact h.status e he
  · exact (if_neg he).symm

theorem scope_congr (horg : s'.organizationID = s.organizationID) (hconnector : s'.connectorID = s.connectorID) :
    scope s' = scope s := by
  unfold scope
  rw [horg, hconnector]

theorem Follows.source (h : Follows s n r st) (hscope : scope s' = scope s) : Follows s' n r st where
  externals key id := by rw [hscope, h.externals]
  absences e he := by rw [hscope, h.absences e he]
  status := h.status

theorem FollowsLinks.source (h : FollowsLinks s r q st) (hscope : scope s' = scope s) : FollowsLinks s' r q st where
  ends := h.ends
  link k hk := by
    have hkey : linkKey s' k = linkKey s k := by
      unfold linkKey
      rw [hscope]
    rw [hkey, h.link k hk]
  known key hkey := by
    obtain ⟨k, hk, heq⟩ := h.known key hkey
    refine ⟨k, hk, heq.trans ?_⟩
    unfold linkKey
    rw [hscope]

structure Keeps (org connector : String) (n : ℕ) (r : Register String) (q : Register LinkName) (ids : List String)
    (st : State) : Prop where
  processed : ∀ id, (st.processedSnapshots.find id).isSome → id ∈ ids
  follows : ∀ s : SnapshotEnvelope, s.organizationID = org → s.connectorID = connector → Follows s n r st
  links : ∀ s : SnapshotEnvelope, s.organizationID = org → s.connectorID = connector → FollowsLinks s r q st
  claims : OwnClaims connector st

section

variable {org connector : String} {ids : List String} (h : Keeps org connector n r q ids st) {t : Twin}
include h

theorem Keeps.run (hfresh : t.snapshot.snapshotID ∉ ids) : (t.memory n).run st = .ok
    ((reconcile ⟨t.attributeAuthority, n⟩ t.snapshot (orNow t.snapshot.completedAt t.memoryClock) t.ranges st).summary,
      (reconcile ⟨t.attributeAuthority, n⟩ t.snapshot (orNow t.snapshot.completedAt t.memoryClock) t.ranges
        st).state.process t.snapshot) := by
  refine apply_of_succeeded ?_
  cases hfind : st.processedSnapshots.find t.snapshot.snapshotID with
  | none => exact hfind
  | some hash => exact absurd (h.processed t.snapshot.snapshotID (by rw [hfind]; rfl)) hfresh

theorem Keeps.next {out : Summary × State} (hn : 1 ≤ n) (horg : t.snapshot.organizationID = org)
    (hconnector : t.snapshot.connectorID = connector) (hfresh : t.snapshot.snapshotID ∉ ids)
    (hfitting : t.snapshot.Fitting)
    (hsafe : ∀ e ∈ r.known ∪ t.snapshot.observedIDs, ∀ e' ∈ r.known ∪ t.snapshot.observedIDs,
      safe e = safe e' → e = e')
    (hrun : (t.memory n).run st = .ok out) :
    Keeps org connector n (r.tick t.snapshot.observedIDs) (q.tick t.snapshot.triples)
      (ids ++ [t.snapshot.snapshotID]) out.2 ∧ RoundSummary r n t.snapshot.observedIDs out.1 := by
  rw [h.run hfresh] at hrun
  cases hrun
  have hclaims : OwnClaims t.snapshot.connectorID st := hconnector ▸ h.claims
  have hold := h.follows t.snapshot horg hconnector
  obtain ⟨hfollows, hsummary⟩ := hold.reconcile ⟨t.attributeAuthority, n⟩
    (orNow t.snapshot.completedAt t.memoryClock) t.ranges hn rfl hclaims hfitting.distinct hsafe
  have hlinks := (h.links t.snapshot horg hconnector).reconcile ⟨t.attributeAuthority, n⟩
    (orNow t.snapshot.completedAt t.memoryClock) t.ranges hold hn hclaims hfitting.distinct hsafe hfitting.link_ends
  have hedits := edits_reconcile (s := t.snapshot) ⟨t.attributeAuthority, n⟩
    (orNow t.snapshot.completedAt t.memoryClock) t.ranges st
  have hprocessed := edits_processed hedits
  have hown := hclaims.edits rfl hedits
  refine ⟨⟨fun id hid => ?_, fun s hs hs' => ?_, fun s hs hs' => ?_, hconnector ▸ hown⟩, hsummary⟩
  · simp only [State.process, Dict.find_set, hprocessed] at hid
    split_ifs at hid with heq
    · simp [heq]
    · exact List.mem_append_left _ (h.processed id hid)
  · exact (hfollows.source (scope_congr (hs.trans horg.symm) (hs'.trans hconnector.symm))).congr rfl rfl rfl
  · exact (hlinks.source (scope_congr (hs.trans horg.symm) (hs'.trans hconnector.symm))).congr subset_rfl rfl

end

end Memory

section

variable [Hashes]

/-- At each snapshot hashes do not collide on what `ApplyPostgres` has hashed and can hash. -/
def HashesApart (n : ℕ) : Db → List Twin → Prop
  | _, [] => True
  | db, t :: ts => Collisionless (t.postgres n) db ∧
      ∀ sum db', (t.postgres n).run db = .ok (sum, db') → HashesApart n db' ts

structure StoreKeeps (db₀ : Db) (org connector : String) (n : ℕ) (r : Register String) (q : Register LinkName)
    (calls : List ApplyCall) (db : Db) : Prop where
  runs : Runs db₀ calls db
  mirrors : Mirrors org connector n r db
  links : MirrorsLinks org connector n q db

/-- Both engines keep the registers, and know no other external IDs than `known`. -/
structure InStep (db₀ : Db) (known : Set String) (org connector : String) (n : ℕ) (r : Register String)
    (q : Register LinkName) (calls : List ApplyCall) (st : Memory.State) (db : Db) : Prop where
  subset : ∀ e ∈ r.known, e ∈ known
  memory : Memory.Keeps org connector n r q (calls.map fun c => c.snapshot.snapshotID) st
  store : StoreKeeps db₀ org connector n r q calls db

structure Pending (known : Set String) (org connector : String) (n : ℕ) (calls : List ApplyCall) (db : Db)
    (ts : List Twin) : Prop where
  comparable : Comparable org connector ts
  subset : ∀ t ∈ ts, ∀ e ∈ t.snapshot.observedIDs, e ∈ known
  fresh : ∀ t ∈ ts, ∀ c ∈ calls, c.snapshot.snapshotID ≠ t.snapshot.snapshotID
  apart : HashesApart n db ts

variable {db₀ db : Db} {known : Set String} {org connector : String} {n : ℕ} {r : Register String}
  {q : Register LinkName} {calls : List ApplyCall} {st : Memory.State} {t : Twin} {ts : List Twin}
  {out : Summary × Memory.State} {out' : Summary × Db}

omit [Hashes] in
theorem Comparable.tail (h : Comparable org connector (t :: ts)) : Comparable org connector ts where
  source x hx := h.source x (.tail _ hx)
  distinct := (List.nodup_cons.mp h.distinct).2
  accepted x hx := h.accepted x (.tail _ hx)
  typed x hx := h.typed x (.tail _ hx)
  weak x hx := h.weak x (.tail _ hx)
  safe x hx e he x' hx' := h.safe x (.tail _ hx) e he x' (.tail _ hx')

theorem Pending.tail (h : Pending known org connector n calls db (t :: ts)) (hrun : (t.postgres n).run db = .ok out') :
    Pending known org connector n (calls ++ [t.postgres n]) out'.2 ts where
  comparable := h.comparable.tail
  subset x hx := h.subset x (.tail _ hx)
  fresh x hx c hc := by
    rcases List.mem_append.mp hc with hc | hc
    · exact h.fresh x (.tail _ hx) c hc
    · rw [List.mem_singleton.mp hc]
      intro heq
      refine (List.nodup_cons.mp h.comparable.distinct).1 (List.mem_map.mpr ⟨x, hx, heq.symm⟩)
  apart := h.apart.2 out'.1 out'.2 hrun

theorem Pending.unprocessed (h : Pending known org connector n calls db (t :: ts)) :
    t.snapshot.snapshotID ∉ calls.map fun c => c.snapshot.snapshotID := by
  intro hmem
  obtain ⟨c, hc, heq⟩ := List.mem_map.mp hmem
  exact h.fresh t (.head _) c hc heq

theorem answered_ok {c : ApplyCall} :
    c.answered db = .ok out' ↔ c.snapshot.storable = true ∧ c.run db = .ok out' := by
  unfold ApplyCall.answered
  split_ifs with hs <;> simp [hs]

/-- What an engine has taken has no long keys and no NUL. -/
theorem EnginesAgree.taken {same : SnapshotEnvelope → Summary × Memory.State → Summary × Db → Prop}
    (h : EnginesAgree same n st db ts) : ∀ t ∈ ts, t.snapshot.storable = true ∧ t.snapshot.ShortKeys := by
  induction ts generalizing st db with
  | nil => simp
  | cons t ts ih =>
    obtain ⟨out, out', -, hanswer, -, hrest⟩ := h
    obtain ⟨hstorable, hrun⟩ := answered_ok.mp hanswer
    intro t' ht'
    rcases List.mem_cons.mp ht' with rfl | ht'
    · refine ⟨hstorable, fun o ho => ?_⟩
      obtain ⟨pre, post, hassets⟩ := List.append_of_mem ho
      exact (ApplyCall.checked hrun hassets).2.1
    · exact ih hrest t' ht'

section

variable (h0 : db₀.InventoryEmpty) (hn : 1 ≤ n) (h : StoreKeeps db₀ org connector n r q calls db)
  (hp : Pending known org connector n calls db (t :: ts))
include h hp

include h0 in
theorem StoreKeeps.run (hshort : t.snapshot.ShortKeys) : ∃ out', (t.postgres n).run db = .ok out' := by
  have ht : t ∈ t :: ts := .head _
  have hready := h.runs.ready (c := t.postgres n) h0 (hp.fresh t ht) (hp.comparable.accepted t ht) hp.apart.1
  cases hrun : (t.postgres n).run db with
  | ok out => exact ⟨out, rfl⟩
  | error err =>
    exfalso
    obtain ⟨pre, o, post, hassets, hrefused⟩ := hready.error hrun
    have ho : o ∈ t.snapshot.assets := by
      rw [show t.snapshot.assets = pre ++ o :: post from hassets]
      simp
    have hstrong := hp.comparable.weak t ht o ho
    cases hrefused with
    | assetType htype => exact hp.comparable.typed t ht o ho htype
    | attributeKey he hlong => exact absurd (hshort o ho _ he) (not_le.mpr hlong)
    | conflicting hrefuses | bound hrefuses =>
      obtain ⟨e, he, -⟩ := hrefuses
      rw [hstrong] at he
      cases he

theorem StoreKeeps.assetsApart : AssetsApart org connector (r.known ∪ t.snapshot.observedIDs) := by
  obtain ⟨horg, hconnector⟩ := hp.comparable.source t (.head _)
  have hmem : ∀ e ∈ r.known ∪ t.snapshot.observedIDs, [org, connector, e] ∈
      db.sourceIdentities.rows.map (fun i => [i.organizationID, i.connectorID, i.externalID]) ++
        (t.postgres n).snapshot.assets.map fun o =>
          [(t.postgres n).snapshot.organizationID, (t.postgres n).snapshot.connectorID, o.externalID] := by
    intro e he
    rcases Finset.mem_union.mp he with he | he
    · obtain ⟨i, hi⟩ := (h.mirrors.known e).mpr he
      have hkey := Table.key_of_get hi
      refine List.mem_append_left _ (List.mem_map.mpr ⟨i, Table.mem_rows.mpr (Table.mem_of_get hi), ?_⟩)
      rw [show i.organizationID = org from congrArg Prod.fst hkey,
        show i.connectorID = connector from congrArg (·.2.1) hkey, show i.externalID = e from congrArg (·.2.2) hkey]
    · obtain ⟨o, ho, rfl⟩ := List.mem_map.mp (mem_observedIDs.mp he)
      refine List.mem_append_right _ (List.mem_map.mpr ⟨o, ho, ?_⟩)
      rw [← horg, ← hconnector]
      rfl
  intro e he e' he' heq
  have hvalues := hp.apart.1.asset _ (hmem e he) _ (hmem e' he') heq
  simpa using hvalues

include h0 hn

theorem StoreKeeps.next (hrun : (t.postgres n).run db = .ok out') :
    StoreKeeps db₀ org connector n (r.tick t.snapshot.observedIDs) (q.tick t.snapshot.triples)
      (calls ++ [t.postgres n]) out'.2 ∧ RoundSummary r n t.snapshot.observedIDs out'.1 := by
  have ht : t ∈ t :: ts := .head _
  obtain ⟨horg, hconnector⟩ := hp.comparable.source t ht
  have hfitting := fitting_of_contract (hp.comparable.accepted t ht)
  have hweak : (t.postgres n).snapshot.Weak := hp.comparable.weak t ht
  have hapart := h.assetsApart hp
  have hruns : Runs db₀ (calls ++ [t.postgres n]) out'.2 := h.runs.succeed hrun
  have hrec := h.runs.recorded h0
  subst horg hconnector
  have hmirrors := Mirrors.step (c := t.postgres n) h.mirrors hn rfl hweak hrec hrun
  have hlinks := MirrorsLinks.step (c := t.postgres n) h.links h.mirrors hn rfl hweak (h.runs.linked h0) hrec
    hfitting.link_ends hrun
  obtain ⟨_, htrace⟩ := ApplyCall.traced hrun
  have hround := Mirrors.roundSummary (c := t.postgres n) h.mirrors htrace hapart hmirrors hn hrec
    (h.runs.inventory h0) (hruns.inventory h0) (h.runs.rooted h0) (hruns.rooted h0) hweak hfitting.distinct
  exact ⟨⟨hruns, hmirrors, hlinks⟩, hround⟩

end

section

variable (h0 : db₀.InventoryEmpty) (hn : 1 ≤ n) (h : InStep db₀ known org connector n r q calls st db)
  (hp : Pending known org connector n calls db (t :: ts))
  (hsafe : ∀ e ∈ known, ∀ e' ∈ known, Memory.safe e = Memory.safe e' → e = e')
include h0 hn h hp hsafe

section

variable (hmemory : (t.memory n).run st = .ok out) (hpostgres : (t.postgres n).run db = .ok out')
include hmemory hpostgres

/-- A snapshot that both engines take is a round of both registers. -/
theorem InStep.next : InStep db₀ known org connector n (r.tick t.snapshot.observedIDs) (q.tick t.snapshot.triples)
      (calls ++ [t.postgres n]) out.2 out'.2 ∧
    RoundSummary r n t.snapshot.observedIDs out.1 ∧ RoundSummary r n t.snapshot.observedIDs out'.1 := by
  have ht : t ∈ t :: ts := .head _
  obtain ⟨horg, hconnector⟩ := hp.comparable.source t ht
  have hsubset : ∀ e ∈ r.known ∪ t.snapshot.observedIDs, e ∈ known := by
    intro e he
    rcases Finset.mem_union.mp he with he | he
    · exact h.subset e he
    · exact hp.subset t ht e he
  obtain ⟨hkeeps, hround⟩ := h.memory.next hn horg hconnector hp.unprocessed
    (fitting_of_contract (hp.comparable.accepted t ht))
    (fun e he e' he' => hsafe e (hsubset e he) e' (hsubset e' he')) hmemory
  obtain ⟨hstore, hround'⟩ := h.store.next h0 hn hp hpostgres
  refine ⟨⟨hsubset, ?_, hstore⟩, hround, hround'⟩
  rw [List.map_append]
  exact hkeeps

/-- After it the assets and the counts are the same, -/
theorem InStep.sameAssets : SameAssets t.snapshot out out' := by
  obtain ⟨hnext, hround, hround'⟩ := h.next h0 hn hp hsafe hmemory hpostgres
  obtain ⟨horg, hconnector⟩ := hp.comparable.source t (.head _)
  have hapart := h.store.assetsApart hp
  refine ⟨fun e => ?_, hround.created.trans hround'.created.symm, hround.updated.trans hround'.updated.symm,
    hround.unchanged.trans hround'.unchanged.symm, hround.missing.trans hround'.missing.symm,
    hround.conflicting.trans hround'.conflicting.symm⟩
  rw [(hnext.memory.follows t.snapshot horg hconnector).assetStatus e, horg, hconnector,
    hnext.store.mirrors.assetStatus (hnext.store.runs.inventory h0) hapart e]

end

/-- and the relationships are where none was absent, or one absence is enough. -/
theorem InStep.sameLinks_iff (hq : n = 1 ∨ ∀ k ∈ q.known, q.absences k = 0) (hmemory : (t.memory n).run st = .ok out)
    (hpostgres : (t.postgres n).run db = .ok out') :
    SameLinks t.snapshot out out' ↔ n = 1 ∨ q.known ⊆ t.snapshot.triples := by
  obtain ⟨hnext, -, -⟩ := h.next h0 hn hp hsafe hmemory hpostgres
  obtain ⟨horg, hconnector⟩ := hp.comparable.source t (.head _)
  have hapart := h.store.assetsApart hp
  have hfollows := hnext.memory.follows t.snapshot horg hconnector
  have hlinks := hnext.memory.links t.snapshot horg hconnector
  have hsafe' : ∀ e ∈ (r.tick t.snapshot.observedIDs).known, ∀ e' ∈ (r.tick t.snapshot.observedIDs).known,
      Memory.safe e = Memory.safe e' → e = e' :=
    fun e he e' he' => hsafe e (hnext.subset e he) e' (hnext.subset e' he')
  rw [← Register.state_one_eq_iff (show RelationshipStatus.active ≠ .removed by decide) hn hq]
  refine forall_congr' fun k => ?_
  rw [hlinks.linkStatus hsafe' hfollows k, horg, hconnector,
    hnext.store.links.linkStatus hnext.store.mirrors hapart (hnext.store.runs.linked h0) k]

end

omit [Hashes] in
theorem kept_cons {known : Finset LinkName} : ((∀ t' ∈ t :: ts, known ⊆ t'.snapshot.triples) ∧
      (t :: ts).Pairwise fun t t' => t.snapshot.triples ⊆ t'.snapshot.triples) ↔
    known ⊆ t.snapshot.triples ∧ (∀ t' ∈ ts, known ∪ t.snapshot.triples ⊆ t'.snapshot.triples) ∧
      ts.Pairwise fun t t' => t.snapshot.triples ⊆ t'.snapshot.triples := by
  simp only [List.forall_mem_cons, List.pairwise_cons, Finset.union_subset_iff, forall_and]
  tauto

section

variable (h0 : db₀.InventoryEmpty) (hn : 1 ≤ n)
  (hsafe : ∀ e ∈ known, ∀ e' ∈ known, Memory.safe e = Memory.safe e' → e = e')
include h0 hn hsafe

section

variable (h : InStep db₀ known org connector n r q calls st db) (hp : Pending known org connector n calls db ts)
include h hp

theorem InStep.agree_on_assets (htaken : ∀ t ∈ ts, t.snapshot.storable = true ∧ t.snapshot.ShortKeys) :
    EnginesAgree SameAssets n st db ts := by
  induction ts generalizing r q calls st db with
  | nil => trivial
  | cons t ts ih =>
    obtain ⟨⟨hstorable, hshort⟩, htail⟩ := List.forall_mem_cons.mp htaken
    obtain ⟨out', hpostgres⟩ := h.store.run h0 hp hshort
    have hmemory := h.memory.run hp.unprocessed
    obtain ⟨hnext, -⟩ := h.next h0 hn hp hsafe hmemory hpostgres
    exact ⟨_, out', hmemory, answered_ok.mpr ⟨hstorable, hpostgres⟩, h.sameAssets h0 hn hp hsafe hmemory hpostgres,
      ih hnext (hp.tail hpostgres) htail⟩

theorem InStep.agree_on_links_iff (hq : n = 1 ∨ ∀ k ∈ q.known, q.absences k = 0) :
    EnginesAgree SameLinks n st db ts ↔ (∀ t ∈ ts, t.snapshot.storable = true ∧ t.snapshot.ShortKeys) ∧
      (n = 1 ∨ (∀ t ∈ ts, q.known ⊆ t.snapshot.triples) ∧
        ts.Pairwise fun t t' => t.snapshot.triples ⊆ t'.snapshot.triples) := by
  induction ts generalizing r q calls st db with
  | nil => simp [EnginesAgree]
  | cons t ts ih =>
    rw [kept_cons]
    -- what one snapshot contributes on either side, once both engines have taken it
    have hstep : ∀ out out', (t.memory n).run st = .ok out → (t.postgres n).run db = .ok out' →
        (SameLinks t.snapshot out out' ∧ EnginesAgree SameLinks n out.2 out'.2 ts ↔
          (∀ t ∈ ts, t.snapshot.storable = true ∧ t.snapshot.ShortKeys) ∧ (n = 1 ∨ q.known ⊆ t.snapshot.triples ∧
            (∀ t' ∈ ts, q.known ∪ t.snapshot.triples ⊆ t'.snapshot.triples) ∧
            ts.Pairwise fun t t' => t.snapshot.triples ⊆ t'.snapshot.triples)) := by
      intro out out' hmemory hpostgres
      obtain ⟨hnext, -⟩ := h.next h0 hn hp hsafe hmemory hpostgres
      rw [h.sameLinks_iff h0 hn hp hsafe hq hmemory hpostgres]
      by_cases hkept : n = 1 ∨ q.known ⊆ t.snapshot.triples
      · rw [ih hnext (hp.tail hpostgres) (hkept.imp_right Register.absences_tick_eq_zero)]
        tauto
      · tauto
    refine ⟨fun hagree => ?_, fun hcondition => ?_⟩
    · have htaken := hagree.taken
      obtain ⟨out, out', hmemory, hanswer, hagree⟩ := hagree
      exact ⟨htaken, ((hstep out out' hmemory (answered_ok.mp hanswer).2).mp hagree).2⟩
    · obtain ⟨htaken, hkept⟩ := hcondition
      obtain ⟨⟨hstorable, hshort⟩, htail⟩ := List.forall_mem_cons.mp htaken
      obtain ⟨out', hpostgres⟩ := h.store.run h0 hp hshort
      have hmemory := h.memory.run hp.unprocessed
      exact ⟨_, out', hmemory, answered_ok.mpr ⟨hstorable, hpostgres⟩,
        (hstep _ out' hmemory hpostgres).mpr ⟨htail, hkept⟩⟩

end

end

theorem InStep.start (h0 : db₀.InventoryEmpty) :
    InStep db₀ known org connector n Register.empty Register.empty [] Memory.newState db₀ where
  subset e he := absurd he (Finset.notMem_empty e)
  memory :=
    { processed := fun id hid => by simp [Memory.newState] at hid
      follows := fun s _ _ => ⟨by simp [Memory.newState, Register.empty], by simp [Register.empty],
        by simp [Register.empty]⟩
      links := fun s _ _ => ⟨by simp [Register.empty], by simp [Register.empty], by simp [Memory.newState]⟩
      claims := fun ck c hc => by simp [Memory.State.claimsAt, Memory.newState] at hc }
  store :=
    { runs := .nil
      mirrors := ⟨by simp [h0.sourceIdentities], by simp [h0.sourceIdentities, Register.empty],
        by simp [h0.sourceIdentities], by simp [h0.sourceIdentities], by simp [h0.claims]⟩
      links := ⟨by simp [h0.relationshipSources], by simp [h0.relationshipSources, Register.empty],
        by simp [h0.relationshipSources], by simp [h0.relationships]⟩ }

theorem Comparable.pending (h : Comparable org connector ts) (hapart : HashesApart n db₀ ts) :
    Pending {e | ∃ t ∈ ts, e ∈ t.snapshot.observedIDs} org connector n [] db₀ ts where
  comparable := h
  subset t ht e he := ⟨t, ht, he⟩
  fresh t ht c hc := by cases hc
  apart := hapart

omit [Hashes] in
theorem Comparable.safe_known (h : Comparable org connector ts) :
    ∀ e ∈ {e | ∃ t ∈ ts, e ∈ t.snapshot.observedIDs}, ∀ e' ∈ {e | ∃ t ∈ ts, e ∈ t.snapshot.observedIDs},
      Memory.safe e = Memory.safe e' → e = e' := by
  intro e he e' he'
  obtain ⟨t, ht, he⟩ := he
  obtain ⟨t', ht', he'⟩ := he'
  exact h.safe t ht e he t' ht' e' he'

end

def twinOf (s : SnapshotEnvelope) : Twin := ⟨s, GoMap.nil, .ascending, 0, .plain, 7000⟩

def bothSeen (id : String) (relationships : List RelationshipObservation) : Twin :=
  twinOf (snapshotOf id "one" [hinted "app" GoMap.nil, hinted "db" GoMap.nil] relationships)

def linkDropped : List Twin := [bothSeen "linked" [usesDatabase], bothSeen "unlinked" []]

def linkKept : List Twin := [bothSeen "linked" [usesDatabase], bothSeen "again" [usesDatabase]]

theorem hashesApart_linked {t : Twin}
    (h : @Collisionless toy (t.postgres 2) (replayed [(bothSeen "linked" [usesDatabase]).postgres 2])) :
    @HashesApart toy 2 emptyDb [bothSeen "linked" [usesDatabase], t] := by
  refine ⟨by decide +kernel, fun sum db' hrun => ⟨?_, fun _ _ _ => trivial⟩⟩
  have hdb : replayed [(bothSeen "linked" [usesDatabase]).postgres 2] = db' := by
    unfold replayed replay
    rw [hrun]
    rfl
  rw [← hdb]
  exact h

theorem hashesApart_linkDropped : @HashesApart toy 2 emptyDb linkDropped := hashesApart_linked (by decide +kernel)

/-- From empty inventories, the two engines keep the same statuses of assets and return
the same counts, unless `ApplyPostgres` refuses a long attribute key or PostgreSQL a NUL. -/
theorem engines_agree_on_assets [Hashes] {db₀ : Db} {org connector : String} {n : ℕ} {ts : List Twin}
    (h0 : db₀.InventoryEmpty) (hn : 1 ≤ n) (hc : Comparable org connector ts) (hapart : HashesApart n db₀ ts) :
    EnginesAgree SameAssets n Memory.newState db₀ ts ↔
      ∀ t ∈ ts, t.snapshot.storable = true ∧ t.snapshot.ShortKeys :=
  ⟨fun hagree => hagree.taken,
    (InStep.start h0).agree_on_assets h0 hn hc.safe_known (hc.pending hapart)⟩

theorem engines_agree_on_assets_pair : @EnginesAgree toy SameAssets 2 Memory.newState emptyDb linkDropped :=
  (@engines_agree_on_assets toy emptyDb "org" "one" 2 linkDropped emptyDb_inventory (by decide) (by decide +kernel)
    hashesApart_linkDropped).mpr (by decide +kernel)

def wordyTwin : Twin :=
  twinOf (snapshotOf "wordy" "one" [{ hinted "app" GoMap.nil with
    attributes := goMap [(String.ofList (List.replicate 201 'k'), .str "v")] (List.nodup_singleton _) }] [])

theorem wordy_refused : Comparable "org" "one" [wordyTwin] ∧ @HashesApart toy 1 emptyDb [wordyTwin] ∧
    (Memory.run [wordyTwin.memory 1]).assetStatus "org" "one" "app" = some .active ∧
    (@ApplyCall.run toy (wordyTwin.postgres 1) emptyDb).toBool = false ∧
    ¬ @EnginesAgree toy SameAssets 1 Memory.newState emptyDb [wordyTwin] := by
  have hrefused : (@ApplyCall.run toy (wordyTwin.postgres 1) emptyDb).toBool = false := by decide +kernel
  refine ⟨by decide +kernel, ⟨by decide +kernel, fun _ _ _ => trivial⟩, by decide +kernel, hrefused, ?_⟩
  intro hagree
  obtain ⟨out, out', -, hanswer, -⟩ := hagree
  obtain ⟨-, hrun⟩ := (@answered_ok toy _ _ _).mp hanswer
  rw [hrun] at hrefused
  cases hrefused

/-- The in-memory engine removes a relationship at its first absence. With a threshold
above one the engines so agree on relationships iff each that is observed once is
observed ever after. -/
theorem engines_agree_on_links_iff [Hashes] {db₀ : Db} {org connector : String} {n : ℕ} {ts : List Twin}
    (h0 : db₀.InventoryEmpty) (hn : 1 ≤ n) (hc : Comparable org connector ts) (hapart : HashesApart n db₀ ts) :
    EnginesAgree SameLinks n Memory.newState db₀ ts ↔
      (∀ t ∈ ts, t.snapshot.storable = true ∧ t.snapshot.ShortKeys) ∧
      (n = 1 ∨ ts.Pairwise fun t t' => t.snapshot.triples ⊆ t'.snapshot.triples) := by
  rw [(InStep.start h0).agree_on_links_iff h0 hn hc.safe_known (hc.pending hapart) (.inr (by simp [Register.empty]))]
  simp [Register.empty]

theorem engines_agree_on_links_kept : @EnginesAgree toy SameLinks 2 Memory.newState emptyDb linkKept :=
  (@engines_agree_on_links_iff toy emptyDb "org" "one" 2 linkKept emptyDb_inventory (by decide) (by decide +kernel)
    (hashesApart_linked (by decide +kernel))).mpr ⟨by decide +kernel, .inr (by decide +kernel)⟩

/-- A relationship is seen, and then absent once: the one engine removes it, the other
waits for a second absence. -/
theorem link_dropped_disagrees : Comparable "org" "one" linkDropped ∧ @HashesApart toy 2 emptyDb linkDropped ∧
    (Memory.run (linkDropped.map (·.memory 2))).linkStatus "org" "one" usesDatabase.triple = some .removed ∧
    (replayed (linkDropped.map (·.postgres 2))).linkStatus "org" "one" usesDatabase.triple = some .active ∧
    ¬ @EnginesAgree toy SameLinks 2 Memory.newState emptyDb linkDropped := by
  have hremoved : (Memory.run (linkDropped.map (·.memory 2))).linkStatus "org" "one" usesDatabase.triple =
    some .removed := by decide +kernel
  have hactive : (replayed (linkDropped.map (·.postgres 2))).linkStatus "org" "one" usesDatabase.triple =
    some .active := by decide +kernel
  refine ⟨by decide +kernel, hashesApart_linkDropped, hremoved, hactive, ?_⟩
  intro hagree
  obtain ⟨out, out', hmemory, hanswer, -, last, last', hmemory', hanswer', hsame, -⟩ := hagree
  obtain ⟨-, hpostgres⟩ := (@answered_ok toy _ _ _).mp hanswer
  obtain ⟨-, hpostgres'⟩ := (@answered_ok toy _ _ _).mp hanswer'
  have hstate : Memory.run (linkDropped.map (·.memory 2)) = last.2 := by
    simp [Memory.run, linkDropped, Memory.Call.after, hmemory, hmemory']
  have hdb : replayed (linkDropped.map (·.postgres 2)) = last'.2 := by
    simp [replayed, linkDropped, replay, hpostgres, hpostgres']
  have hstatus := hsame usesDatabase.triple
  rw [← hstate, ← hdb] at hstatus
  exact absurd ((hremoved.symm.trans hstatus).trans hactive) (by decide)

end Infragraph
