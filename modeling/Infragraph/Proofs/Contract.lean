import Infragraph.Sanity.Apply
import Infragraph.Sanity.Contract

/-! What the contract decides. A repeated relationship is found by its two external IDs
and its type joined with NUL characters, which a string of a JSON document may have:
the rule of the contract is decided exactly where these joints can be told apart. -/

namespace Infragraph

@[mk_iff] structure Observation.Bounded (o : Observation) : Prop where
  externalID : o.externalID ≠ "" ∧ byteLen o.externalID ≤ 1024
  assetType : byteLen o.assetType ≤ 80
  observedAt : o.observedAt ≠ 0
  attributes : o.attributes.len ≤ 128
  identityHints : o.identityHints.len ≤ 32
  fingerprint : byteLen o.fingerprint ≤ 128
  status : o.status = "OBSERVED" ∨ o.status = "UNKNOWN"

@[mk_iff] structure RelationshipObservation.Bounded (r : RelationshipObservation) : Prop where
  externalFromID : r.externalFromID ≠ "" ∧ byteLen r.externalFromID ≤ 1024
  externalToID : r.externalToID ≠ "" ∧ byteLen r.externalToID ≤ 1024
  type : r.type ≠ "" ∧ byteLen r.type ≤ 80
  observedAt : r.observedAt ≠ 0
  attributes : r.attributes.len ≤ 64

/-- The bounds on the rest of a snapshot. -/
@[mk_iff] structure SnapshotEnvelope.Bounded (s : SnapshotEnvelope) : Prop where
  snapshotID : s.snapshotID ≠ "" ∧ byteLen s.snapshotID ≤ 160
  organizationID : s.organizationID ≠ ""
  collectorID : s.collectorID ≠ ""
  connectorID : s.connectorID ≠ ""
  sequence : 1 ≤ s.sequence
  protocolVersion : s.protocolVersion = "1.0"
  assets : s.assets.length ≤ 100000
  relationships : s.relationships.length ≤ 250000
  warnings : s.warnings.length ≤ 1000 ∧ ∀ w ∈ s.warnings, byteLen w ≤ 2000
  statistics : s.statistics.len ≤ 32 ∧ ∀ e ∈ s.statistics.entries, 0 ≤ e.2
  times : s.startedAt ≠ 0 ∧ s.completedAt ≠ 0 ∧ s.startedAt ≤ s.completedAt

/-- What the contract is meant to accept. -/
@[mk_iff] structure SnapshotEnvelope.Lawful (s : SnapshotEnvelope) : Prop where
  bounded : s.Bounded
  assets : ∀ o ∈ s.assets, o.Bounded
  distinct : (externalIDs s.assets).Nodup
  relationships : ∀ r ∈ s.relationships, r.Bounded
  ends : ∀ r ∈ s.relationships, r.externalFromID ∈ externalIDs s.assets ∧ r.externalToID ∈ externalIDs s.assets
  triples : (s.relationships.map (·.triple)).Nodup

instance (o : Observation) : Decidable o.Bounded := decidable_of_iff _ (Observation.bounded_iff o).symm

instance (r : RelationshipObservation) : Decidable r.Bounded :=
  decidable_of_iff _ (RelationshipObservation.bounded_iff r).symm

instance (s : SnapshotEnvelope) : Decidable s.Bounded := decidable_of_iff _ (SnapshotEnvelope.bounded_iff s).symm

instance (s : SnapshotEnvelope) : Decidable s.Lawful := decidable_of_iff _ (SnapshotEnvelope.lawful_iff s).symm

theorem observation_withinLimits_iff {o : Observation} : o.withinLimits = true ↔ o.Bounded := by
  simp only [Observation.withinLimits, Bool.not_eq_true', Bool.or_eq_false_iff, decide_eq_false_iff_not,
    Bool.and_eq_false_iff, ne_eq, not_not, not_lt]
  refine ⟨fun h => ?_, fun h => ?_⟩
  · obtain ⟨⟨⟨⟨⟨⟨⟨hempty, hlong⟩, htype⟩, hat⟩, hattributes⟩, hhints⟩, hfingerprint⟩, hstatus⟩ := h
    exact ⟨⟨hempty, hlong⟩, htype, hat, hattributes, hhints, hfingerprint, hstatus⟩
  · exact ⟨⟨⟨⟨⟨⟨⟨h.externalID.1, h.externalID.2⟩, h.assetType⟩, h.observedAt⟩, h.attributes⟩, h.identityHints⟩,
      h.fingerprint⟩, h.status⟩

theorem link_withinLimits_iff {r : RelationshipObservation} {seen : List String} :
    r.withinLimits seen = true ↔ r.Bounded ∧ r.externalFromID ∈ seen ∧ r.externalToID ∈ seen := by
  simp only [RelationshipObservation.withinLimits, Bool.not_eq_true', Bool.or_eq_false_iff, decide_eq_false_iff_not,
    not_lt, Bool.not_eq_false', List.contains_iff_mem]
  refine ⟨fun h => ?_, fun h => ?_⟩
  · obtain ⟨⟨⟨⟨⟨⟨⟨⟨⟨hfrom, hfrom'⟩, hto⟩, hto'⟩, htype⟩, htype'⟩, hat⟩, hattributes⟩, hsource⟩, htarget⟩ := h
    exact ⟨⟨⟨hfrom, hfrom'⟩, ⟨hto, hto'⟩, ⟨htype, htype'⟩, hat, hattributes⟩, hsource, htarget⟩
  · obtain ⟨hbounded, hsource, htarget⟩ := h
    exact ⟨⟨⟨⟨⟨⟨⟨⟨⟨hbounded.externalFromID.1, hbounded.externalFromID.2⟩, hbounded.externalToID.1⟩,
      hbounded.externalToID.2⟩, hbounded.type.1⟩, hbounded.type.2⟩, hbounded.observedAt⟩, hbounded.attributes⟩,
      hsource⟩, htarget⟩

theorem header_iff {s : SnapshotEnvelope} : s.Bounded ↔
    ¬ (s.snapshotID = "" || 160 < byteLen s.snapshotID || s.organizationID = "" || s.collectorID = "" ||
      s.connectorID = "" || s.sequence < 1 || s.protocolVersion ≠ "1.0" || 100000 < s.assets.length ||
      250000 < s.relationships.length || 1000 < s.warnings.length || 32 < s.statistics.len ||
      s.startedAt = 0 || s.completedAt = 0 || s.completedAt < s.startedAt) = true ∧
    ¬ s.warnings.any (2000 < byteLen ·) = true ∧ ¬ s.statistics.entries.any (·.2 < 0) = true := by
  simp only [Bool.or_eq_true, decide_eq_true_eq, not_or, ne_eq, not_not, not_lt, List.any_eq_true, not_exists, not_and]
  refine ⟨fun h => ?_, fun h => ?_⟩
  · exact ⟨⟨⟨⟨⟨⟨⟨⟨⟨⟨⟨⟨⟨⟨h.snapshotID.1, h.snapshotID.2⟩, h.organizationID⟩, h.collectorID⟩, h.connectorID⟩,
      h.sequence⟩, h.protocolVersion⟩, h.assets⟩, h.relationships⟩, h.warnings.1⟩, h.statistics.1⟩, h.times.1⟩,
      h.times.2.1⟩, h.times.2.2⟩, h.warnings.2, h.statistics.2⟩
  · obtain ⟨⟨⟨⟨⟨⟨⟨⟨⟨⟨⟨⟨⟨⟨hempty, hlong⟩, horg⟩, hcollector⟩, hconnector⟩, hsequence⟩, hversion⟩, hassets⟩, hlinks⟩,
      hwarnings⟩, hstatistics⟩, hstarted⟩, hcompleted⟩, horder⟩, hwarning, hcount⟩ := h
    exact ⟨⟨hempty, hlong⟩, horg, hcollector, hconnector, hsequence, hversion, hassets, hlinks, ⟨hwarnings, hwarning⟩,
      ⟨hstatistics, hcount⟩, hstarted, hcompleted, horder⟩

/-- The contract is the rule with the joined keys in the place of the triples. -/
theorem validSnapshotContract_iff {s : SnapshotEnvelope} : validSnapshotContract s = true ↔
    s.Bounded ∧ ((∀ o ∈ s.assets, o.Bounded) ∧ (externalIDs s.assets).Nodup) ∧
      (∀ r ∈ s.relationships, r.Bounded ∧ r.externalFromID ∈ externalIDs s.assets ∧
        r.externalToID ∈ externalIDs s.assets) ∧ (s.relationships.map relationshipKey).Nodup := by
  rw [header_iff]
  unfold validSnapshotContract
  split_ifs with hhead hwarnings hstatistics
  · simp only [hhead, not_true_eq_false, false_and]
  · simp only [hwarnings, not_true_eq_false, false_and, and_false]
  · simp only [hstatistics, not_true_eq_false, false_and, and_false]
  · rw [and_iff_right ⟨hhead, hwarnings, hstatistics⟩]
    have hassets : ∀ seen, validAssets [] s.assets = some seen ↔
        ((∀ o ∈ s.assets, o.Bounded) ∧ (externalIDs s.assets).Nodup) ∧ seen = (externalIDs s.assets).reverse := by
      intro seen
      rw [validAssets_eq_some]
      simp only [observation_withinLimits_iff, List.not_mem_nil, not_false_eq_true, and_true, List.append_nil]
    cases hseen : validAssets [] s.assets with
    | none =>
      refine ⟨fun h => (by cases h), fun h => ?_⟩
      rw [(hassets _).mpr ⟨h.1, rfl⟩] at hseen
      cases hseen
    | some seen =>
      obtain ⟨hok, rfl⟩ := (hassets seen).mp hseen
      rw [validRelationships_iff]
      simp only [link_withinLimits_iff, List.mem_reverse, List.not_mem_nil, not_false_eq_true, and_true]
      exact ⟨fun h => ⟨hok, h⟩, fun h => h.2⟩

def pieces (v : String) : List (List Char) := v.toList.splitOn '\x00'

/-- The pieces of both external IDs and of the type, in this order. -/
def RelationshipObservation.pieces (r : RelationshipObservation) : List (List Char) :=
  Infragraph.pieces r.externalFromID ++ Infragraph.pieces r.externalToID ++ Infragraph.pieces r.type

theorem splitOn_relationshipKey (r : RelationshipObservation) :
    (relationshipKey r).toList.splitOn '\x00' = r.pieces := by
  have hmark : "\x00".toList = ['\x00'] := rfl
  unfold relationshipKey RelationshipObservation.pieces Infragraph.pieces List.splitOn
  simp only [String.toList_append, hmark, List.append_assoc, List.cons_append, List.nil_append]
  rw [List.splitOnP_append_cons _ _ (by simp), List.splitOnP_append_cons _ _ (by simp)]

theorem relationshipKey_eq_iff {r r' : RelationshipObservation} :
    relationshipKey r = relationshipKey r' ↔ r.pieces = r'.pieces := by
  rw [← splitOn_relationshipKey, ← splitOn_relationshipKey]
  refine ⟨fun h => by rw [h], fun h => String.toList_injective ?_⟩
  have hjoined := congrArg (List.intercalate ['\x00']) h
  rw [List.intercalate_splitOn, List.intercalate_splitOn] at hjoined
  exact hjoined

theorem relationshipKey_congr {r r' : RelationshipObservation} (h : r.triple = r'.triple) :
    relationshipKey r = relationshipKey r' := by
  simp only [RelationshipObservation.triple, Prod.mk.injEq] at h
  unfold relationshipKey
  rw [h.1, h.2.1, h.2.2]

/-- No two relationships that differ are joined to one key. -/
def SnapshotEnvelope.TellsApart (s : SnapshotEnvelope) : Prop :=
  ∀ r ∈ s.relationships, ∀ r' ∈ s.relationships, r.pieces = r'.pieces → r.triple = r'.triple

theorem nodup_keys_iff {s : SnapshotEnvelope} : (s.relationships.map relationshipKey).Nodup ↔
    (s.relationships.map (·.triple)).Nodup ∧ s.TellsApart := by
  unfold SnapshotEnvelope.TellsApart
  simp only [← relationshipKey_eq_iff]
  refine ⟨fun h => ⟨?_, ?_⟩, fun h => ?_⟩
  · rw [List.Nodup, List.pairwise_map] at h ⊢
    exact h.imp fun hne heq => hne (relationshipKey_congr heq)
  · intro r hr r' hr' hkey
    rw [List.inj_on_of_nodup_map h hr hr' hkey]
  · obtain ⟨hnodup, hapart⟩ := h
    rw [List.Nodup, List.pairwise_map] at hnodup ⊢
    exact hnodup.imp_of_mem fun hr hr' hne hkey => hne (hapart _ hr _ hr' hkey)

theorem valid_iff_lawful_apart {s : SnapshotEnvelope} : validSnapshotContract s = true ↔ s.Lawful ∧ s.TellsApart := by
  rw [validSnapshotContract_iff, nodup_keys_iff]
  refine ⟨fun h => ?_, fun h => ?_⟩
  · obtain ⟨hbounded, ⟨hassets, hdistinct⟩, hlinks, htriples, hapart⟩ := h
    exact ⟨⟨hbounded, hassets, hdistinct, fun r hr => (hlinks r hr).1, fun r hr => (hlinks r hr).2, htriples⟩, hapart⟩
  · obtain ⟨hlawful, hapart⟩ := h
    exact ⟨hlawful.bounded, ⟨hlawful.assets, hlawful.distinct⟩,
      fun r hr => ⟨hlawful.relationships r hr, hlawful.ends r hr⟩, hlawful.triples, hapart⟩

/-- The contract decides its rule for a snapshot unless the snapshot obeys the rule and
two relationships of it that differ have the same pieces. -/
theorem contract_decides_iff (s : SnapshotEnvelope) :
    (validSnapshotContract s = true ↔ s.Lawful) ↔ (s.Lawful → s.TellsApart) := by
  rw [valid_iff_lawful_apart]
  tauto

def observedPlain (external : String) : Observation :=
  { externalID := external, assetType := "SERVICE", observedAt := 5000, attributes := GoMap.nil
    identityHints := GoMap.nil, status := "OBSERVED" }

def uses (source target : String) : RelationshipObservation :=
  { externalFromID := source, externalToID := target, type := "USES", observedAt := 5000, attributes := GoMap.nil }

def jointSnapshot : SnapshotEnvelope :=
  snapshotOf "joint" "one" (["a", "b\x00c", "a\x00b", "c"].map observedPlain) [uses "a" "b\x00c", uses "a\x00b" "c"]

theorem joint_refused : jointSnapshot.Lawful ∧ validSnapshotContract jointSnapshot = false := by decide +kernel

end Infragraph
