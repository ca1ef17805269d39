import Infragraph.Sanity.Statements

/-! What the body of the relationship loop does to the tables. -/

namespace Infragraph

open Relational ReadCommitted Prog

variable [Hashes] {db db' : Db} {s : SnapshotEnvelope} {now : Time} {assets : List (String × String)}
  {sum sum' : Summary} {r : RelationshipObservation}

def relationshipID (org fromAsset toAsset type : String) : String :=
  stableID "relationship" [org, fromAsset, toAsset, type]

structure Related (s : SnapshotEnvelope) (r : RelationshipObservation) (t : Time) (fromAsset toAsset : String)
    (db db' : Db) : Prop where
  frame : db' = { db with relationships := db'.relationships
                          relationshipSources := db'.relationshipSources
                          relationshipObservations := db'.relationshipObservations
                          changes := db'.changes }
  relationship : ∃ x, db'.relationships = db.relationships.put x ∧
    x.key = (s.organizationID, fromAsset, toAsset, r.type) ∧ x.status = .active ∧
    ((∃ old ∈ db.relationships, old.key = x.key ∧ x.id = old.id) ∨
      ((∀ old ∈ db.relationships, old.key ≠ x.key) ∧ db.relationships.get x.id = none ∧
        x.id = relationshipID s.organizationID fromAsset toAsset r.type))
  source : ∃ y, db'.relationshipSources = db.relationshipSources.put y ∧
    y.key = (s.organizationID, s.connectorID, r.externalFromID, r.externalToID, r.type) ∧
    y.relationshipID = relationshipID s.organizationID fromAsset toAsset r.type ∧
    y.status = .active ∧ y.consecutiveAbsences = 0
  observation : db'.relationshipObservations = db.relationshipObservations.put
    (relationshipObservationRow s r (relationshipID s.organizationID fromAsset toAsset r.type) t)
  fresh : db.relationshipObservations.get
    (relationshipObservationRow s r (relationshipID s.organizationID fromAsset toAsset r.type) t).id = none

structure Link where
  observation : RelationshipObservation
  fromAsset : String
  toAsset : String
  existing : Bool

def Link.key (s : SnapshotEnvelope) (x : Link) : String × String × String × String :=
  (s.organizationID, x.fromAsset, x.toAsset, x.observation.type)

def Link.row (s : SnapshotEnvelope) (now : Time) (x : Link) : RelationshipRow :=
  relationshipRow s x.fromAsset x.toAsset x.observation.type (orNow x.observation.observedAt now)

def Link.rows (s : SnapshotEnvelope) (now : Time) (x : Link) : List ChangeRow :=
  if x.existing then [] else [addedRow s (x.row s now)]

def Link.count (x : Link) (sum : Summary) : Summary :=
  { sum with relationshipsCreated := sum.relationshipsCreated + (!x.existing).toNat
             changes := sum.changes + (!x.existing).toNat }

structure LinkTurn (s : SnapshotEnvelope) (now : Time) (assets : List (String × String)) (db : Db) (x : Link)
    (db' : Db) : Prop extends
    Related s x.observation (orNow x.observation.observedAt now) x.fromAsset x.toAsset db db' where
  source_end : assets.lookup x.observation.externalFromID = some x.fromAsset
  target_end : assets.lookup x.observation.externalToID = some x.toAsset
  found : x.existing = (db.findRelationship (x.key s)).isSome
  logged : Logged ChangeRow.slot db.changes (x.rows s now) db'.changes

theorem run_recordAddition {row : RelationshipRow} {existing : Bool}
    (h : (recordAddition s row existing sum).run db = .ok (sum', db')) : db' = { db with changes := db'.changes } ∧
      sum' = { sum with relationshipsCreated := sum.relationshipsCreated + (!existing).toNat
                        changes := sum.changes + (!existing).toNat } ∧
      Logged ChangeRow.slot db.changes (if existing then [] else [addedRow s row]) db'.changes := by
  cases existing with
  | true =>
    cases h
    exact ⟨rfl, rfl, .nil⟩
  | false =>
    obtain ⟨u, d, h1, h2⟩ := run_bind_ok.mp h
    cases h2
    exact ⟨(run_insertChange h1).1, rfl, (run_insertChange h1).2⟩

section

variable (h : (relate s now assets sum r).run db = .ok (sum', db'))
include h

/-- The body of the relationship loop, when it succeeds: both ends are assets of
the snapshot. -/
theorem run_relate_turn : ∃ x : Link, x.observation = r ∧ sum' = x.count sum ∧ LinkTurn s now assets db x db' := by
  simp only [relate, run_bind_ok] at h
  obtain ⟨u, d, h1, h⟩ := h
  obtain ⟨hends, rfl⟩ := run_failIf_ok.mp h1
  simp only [not_or, Option.isNone_iff_eq_none] at hends
  obtain ⟨hf, ht, -, -⟩ := hends
  obtain ⟨f, hfrom⟩ := Option.ne_none_iff_exists'.mp hf
  obtain ⟨g, hto⟩ := Option.ne_none_iff_exists'.mp ht
  simp only [hfrom, hto, relateAssets, Option.getD_some, run_bind_ok] at h
  obtain ⟨existing, d₁, h1, u2, d₂, h2, sum₁, d₃, h3, u4, d₄, h4, u5, d₅, h5, h6⟩ := h
  obtain ⟨hexisting, rfl⟩ := run_select_ok.mp h1
  obtain ⟨x, rfl, hxkey, hx⟩ := run_upsertRelationship h2
  obtain ⟨hd₃, rfl, hlog⟩ := run_recordAddition h3
  obtain ⟨y, rfl, hykey, hy⟩ := run_upsertRelationshipSource h4
  obtain ⟨hfresh, rfl⟩ := run_insertRelationshipObservation h5
  cases h6
  rw [hd₃] at hfresh
  refine ⟨⟨r, f, g, existing⟩, rfl, rfl, ⟨by rw [hd₃], ⟨x, by rw [hd₃], hxkey, ?_⟩, ⟨y, by rw [hd₃], hykey, ?_⟩,
    by rw [hd₃]; rfl, hfresh⟩, hfrom, hto, hexisting, hlog⟩
  · rcases hx with ⟨old, hold, hkey, rfl⟩ | ⟨hnone, hfree, rfl⟩
    · exact ⟨rfl, .inl ⟨old, hold, rfl, rfl⟩⟩
    · exact ⟨rfl, .inr ⟨hnone, hfree, rfl⟩⟩
  · rcases hy with ⟨old, -, rfl⟩ | ⟨-, rfl⟩
    · exact ⟨rfl, rfl, rfl⟩
    · exact ⟨rfl, rfl, rfl⟩

theorem run_relate : ∃ fromAsset toAsset, assets.lookup r.externalFromID = some fromAsset ∧
      assets.lookup r.externalToID = some toAsset ∧
      Related s r (orNow r.observedAt now) fromAsset toAsset db db' := by
  obtain ⟨x, rfl, -, hturn⟩ := run_relate_turn h
  exact ⟨x.fromAsset, x.toAsset, hturn.source_end, hturn.target_end, hturn.toRelated⟩

end

end Infragraph
