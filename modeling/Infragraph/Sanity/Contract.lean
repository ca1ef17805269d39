import Infragraph.Lib.Delimited
import Infragraph.Sanity.Ingest
import Infragraph.Sanity.Collector

/-! When the contract takes what a collector found: a snapshot of `runOnce` is
refused for its size, for an asset or a relationship outside the limits, or for a
repetition. -/

namespace Infragraph

def externalIDs (os : List Observation) : List String := os.map (·.externalID)

/-- An element that passes and is not seen yet moves from the list to those seen. -/
theorem fresh_cons {α : Type} {P : α → Prop} {key : α → String} {x : α} {xs : List α} {seen : List String}
    (hx : P x ∧ key x ∉ seen) : ((∀ y ∈ xs, P y ∧ key y ∉ key x :: seen) ∧ (xs.map key).Nodup) ↔
      (∀ y ∈ x :: xs, P y ∧ key y ∉ seen) ∧ ((x :: xs).map key).Nodup := by
  rw [List.forall_mem_cons, List.map_cons, List.nodup_cons]
  constructor
  · intro h
    refine ⟨⟨hx, fun y hy => ⟨(h.1 y hy).1, fun hseen => (h.1 y hy).2 (.tail _ hseen)⟩⟩, ?_, h.2⟩
    intro hmem
    obtain ⟨y, hy, heq⟩ := List.mem_map.mp hmem
    exact (h.1 y hy).2 (heq ▸ .head _)
  · intro h
    refine ⟨fun y hy => ⟨(h.1.2 y hy).1, fun hmem => ?_⟩, h.2.2⟩
    rcases List.mem_cons.mp hmem with heq | hseen
    · exact h.2.1 (heq ▸ List.mem_map_of_mem hy)
    · exact (h.1.2 y hy).2 hseen

theorem validAssets_eq_some {seen seen' : List String} {os : List Observation} : validAssets seen os = some seen' ↔
      ((∀ o ∈ os, o.withinLimits = true ∧ o.externalID ∉ seen) ∧ (externalIDs os).Nodup) ∧
        seen' = (externalIDs os).reverse ++ seen := by
  induction os generalizing seen with
  | nil => simp [validAssets, externalIDs, eq_comm (a := seen)]
  | cons o os ih =>
    by_cases hok : o.withinLimits = true ∧ o.externalID ∉ seen
    · have hstep : validAssets seen (o :: os) = validAssets (o.externalID :: seen) os := by
        simp [validAssets, hok.1, hok.2]
      rw [hstep, ih, externalIDs, fresh_cons hok, externalIDs]
      simp
    · have hstep : validAssets seen (o :: os) = none := by
        rw [validAssets, if_pos]
        by_contra hno
        exact hok (by simpa using hno)
      rw [hstep]
      refine ⟨fun h => (by cases h), fun h => absurd (h.1.1 o (.head _)) hok⟩

theorem validRelationships_iff {seenAssets seen : List String} {rs : List RelationshipObservation} :
    validRelationships seenAssets seen rs = true ↔
      (∀ r ∈ rs, r.withinLimits seenAssets = true ∧ relationshipKey r ∉ seen) ∧
        (rs.map relationshipKey).Nodup := by
  induction rs generalizing seen with
  | nil => simp [validRelationships]
  | cons r rs ih =>
    by_cases hok : r.withinLimits seenAssets = true ∧ relationshipKey r ∉ seen
    · have hstep : validRelationships seenAssets seen (r :: rs) =
          validRelationships seenAssets (relationshipKey r :: seen) rs := by
        simp [validRelationships, hok.1, hok.2]
      rw [hstep, ih, fresh_cons hok]
    · have hstep : validRelationships seenAssets seen (r :: rs) = false := by
        rw [validRelationships, if_pos]
        by_contra hno
        exact hok (by simpa using hno)
      rw [hstep]
      refine ⟨fun h => (by cases h), fun h => absurd (h.1 r (.head _)) hok⟩

/-- The key of a relationship determines its type and what stands before it. -/
theorem linkKey_inj {a b t a' b' t' : String} (ht : '\x00' ∉ t.toList) (ht' : '\x00' ∉ t'.toList)
    (h : a ++ "\x00" ++ b ++ "\x00" ++ t = a' ++ "\x00" ++ b' ++ "\x00" ++ t') :
    a ++ "\x00" ++ b = a' ++ "\x00" ++ b' ∧ t = t' := by
  -- the last mark is the first one from the right
  have hrev := congrArg (fun s => s.toList.reverse) h
  have hmark : "\x00".toList.reverse = ['\x00'] := rfl
  simp only [String.toList_append, List.reverse_append, hmark, List.singleton_append, List.append_assoc] at hrev
  obtain ⟨htype, hrest⟩ := Delimited.mark_inj (fun hm => ht (List.mem_reverse.mp hm))
    (fun hm => ht' (List.mem_reverse.mp hm)) hrev
  refine ⟨?_, String.toList_injective (List.reverse_injective htype)⟩
  apply String.toList_injective
  apply List.reverse_injective
  simp only [String.toList_append, List.reverse_append, hmark, List.singleton_append]
  exact hrest

/-- What `runOnce` has at hand when it builds a snapshot: an enrolled identity, a
number `nextSequence` gave out, and readings of a clock that does not go back. -/
structure Identity.Runs (id : Identity) (sequence : ℤ) (startedAt completedAt : Time) : Prop where
  organizationID : id.organizationID ≠ ""
  collectorID : id.collectorID ≠ ""
  connectorID : id.connectorID ≠ ""
  sequence_pos : 0 < sequence
  sequence_lt : sequence < 2 ^ 63
  started : 0 < startedAt
  completed : startedAt ≤ completedAt

structure Observation.Sendable (o : Observation) : Prop where
  externalID : o.externalID ≠ "" ∧ byteLen o.externalID ≤ 1024
  assetType : byteLen o.assetType ≤ 80
  observedAt : o.observedAt ≠ 0
  attributes : o.attributes.len ≤ 128
  identityHints : o.identityHints.len ≤ 32

/-- What the contract asks of a relationship between these assets. -/
structure RelationshipObservation.Sendable (r : RelationshipObservation) (ids : List String) : Prop where
  externalFromID : r.externalFromID ∈ ids
  externalToID : r.externalToID ∈ ids
  type : r.type ≠ "" ∧ byteLen r.type ≤ 80
  observedAt : r.observedAt ≠ 0
  attributes : r.attributes.len ≤ 64

theorem byteLen_append (a b : String) : byteLen (a ++ b) = byteLen a + byteLen b := String.utf8ByteSize_append

theorem byteLen_ofList {cs : List Char} (h : ∀ c ∈ cs, c.toNat < 128) : byteLen (String.ofList cs) = cs.length := by
  unfold byteLen
  rw [String.utf8ByteSize_ofList]
  induction cs with
  | nil => rfl
  | cons c cs ih =>
    have hsize : c.utf8Size = 1 := by
      have hc : c.toNat < 128 := h c (.head _)
      have hval : c.val ≤ 127 := by
        show c.toNat ≤ 127
        omega
      simp [Char.utf8Size, hval]
    rw [String.utf8Len, hsize, ih fun d hd => h d (.tail _ hd)]
    rfl

theorem byteLen_toString {n : ℤ} (h : 0 ≤ n) (hlt : n < 2 ^ 63) : byteLen (toString n) ≤ 19 := by
  have hlist := toString_toList h
  have hdigit : ∀ c ∈ Nat.toDigits 10 n.toNat, c.toNat < 128 := by
    intro c hc
    have hc := Nat.isDigit_of_mem_toDigits (by omega) le_rfl hc
    simp only [Char.isDigit, Bool.and_eq_true, decide_eq_true_iff] at hc
    have h57 : c.toNat ≤ 57 := hc.2
    omega
  have htext : toString n = String.ofList (Nat.toDigits 10 n.toNat) := by rw [← hlist]; simp
  rw [htext, byteLen_ofList hdigit]
  apply Nat.toDigits_length 10 n.toNat 19 (by omega)
  omega

theorem hexEncode_length (bs : List UInt8) : (hexEncode bs).length = 2 * bs.length := by
  induction bs with
  | nil => rfl
  | cons b bs ih =>
    unfold hexEncode at ih ⊢
    simp only [List.flatMap_cons, List.length_append, ih, List.length_cons, List.length_nil]
    omega

theorem byteLen_hexSum [Hashes] (hsum : ∀ bs, (sum256 bs).length ≤ 32) (bs : List UInt8) :
    byteLen (hexSum bs) ≤ 64 := by
  have hascii : ∀ c ∈ hexEncode (sum256 bs), c.toNat < 128 := by
    intro c hc
    obtain ⟨b, -, hb⟩ := List.mem_flatMap.mp hc
    have hdigit : ∀ n < 16, (hexDigit n).toNat < 128 := by decide
    have hlt := b.toNat_lt
    rcases List.mem_cons.mp hb with rfl | hb
    · exact hdigit _ (by omega)
    · rw [List.mem_singleton.mp hb]
      exact hdigit _ (by omega)
  have hlen := hsum bs
  unfold hexSum
  rw [byteLen_ofList hascii, hexEncode_length]
  omega

section

variable [Hashes]

theorem completed_withinLimits_iff (hsum : ∀ bs, (sum256 bs).length ≤ 32) {o : Observation} :
    (completed o).withinLimits = true ↔ o.Sendable := by
  have hfinger : ¬ 128 < byteLen (completed o).fingerprint := by
    have := byteLen_hexSum hsum
    exact not_lt.mpr ((this _).trans (by omega))
  have hstatus : (completed o).status = "OBSERVED" := rfl
  have hid : (completed o).externalID = o.externalID := rfl
  have htype : (completed o).assetType = o.assetType := rfl
  have hat : (completed o).observedAt = o.observedAt := rfl
  have hattr : (completed o).attributes.len = o.attributes.len := rfl
  have hhints : (completed o).identityHints.len = o.identityHints.len := rfl
  unfold Observation.withinLimits
  rw [hstatus, hid, htype, hat, hattr]
  simp only [hfinger, decide_false, Bool.or_false, Bool.not_eq_true', Bool.or_eq_false_iff, decide_eq_false_iff_not,
    ne_eq, not_true_eq_false, Bool.false_and, not_lt]
  constructor
  · intro h
    exact ⟨⟨h.1.1.1.1.1, h.1.1.1.1.2⟩, h.1.1.1.2, h.1.1.2, h.1.2, h.2⟩
  · intro h
    exact ⟨⟨⟨⟨⟨h.externalID.1, h.externalID.2⟩, h.assetType⟩, h.observedAt⟩, h.attributes⟩, h.identityHints⟩

omit [Hashes] in
theorem relationship_withinLimits_iff {r : RelationshipObservation} {ids seen : List String}
    (hids : ∀ id ∈ ids, id ≠ "" ∧ byteLen id ≤ 1024) (hseen : ∀ id, id ∈ seen ↔ id ∈ ids) :
    ({ r with attributes := r.attributes.made } : RelationshipObservation).withinLimits seen = true ↔
      r.Sendable ids := by
  have hlen : r.attributes.made.len = r.attributes.len := rfl
  unfold RelationshipObservation.withinLimits
  simp only [hlen, Bool.not_eq_true', Bool.or_eq_false_iff, decide_eq_false_iff_not, not_lt, Bool.not_eq_false',
    List.contains_iff_mem, hseen]
  constructor
  · intro h
    obtain ⟨⟨⟨⟨⟨⟨⟨⟨⟨-, -⟩, -⟩, -⟩, htype⟩, hlong⟩, hat⟩, hattr⟩, hfrom⟩, hto⟩ := h
    exact ⟨hfrom, hto, ⟨htype, hlong⟩, hat, hattr⟩
  · intro h
    have hfrom := hids _ h.externalFromID
    have hto := hids _ h.externalToID
    exact ⟨⟨⟨⟨⟨⟨⟨⟨⟨hfrom.1, hfrom.2⟩, hto.1⟩, hto.2⟩, h.type.1⟩, h.type.2⟩, h.observedAt⟩, h.attributes⟩,
      h.externalFromID⟩, h.externalToID⟩

variable [Signatures] {id : Identity} {sequence : ℤ} {startedAt completedAt : Time}

/-- The header passes, so only what was found decides. -/
theorem valid_newSnapshot (hrun : id.Runs sequence startedAt completedAt) (found : Discovery) :
    validSnapshotContract (newSnapshot id sequence startedAt completedAt found) = true ↔
      (found.assets.length ≤ 100000 ∧ found.relationships.length ≤ 250000) ∧
      ∃ seen, validAssets [] (found.assets.map completed) = some seen ∧
        (∀ r ∈ found.relationships.map fun r => { r with attributes := r.attributes.made },
          r.withinLimits seen = true) ∧ (found.relationships.map relationshipKey).Nodup := by
  have hlong : byteLen ("snapshot-" ++ sequence.repr) ≤ 160 := by
    have hnumber : byteLen sequence.repr ≤ 19 := byteLen_toString hrun.sequence_pos.le hrun.sequence_lt
    have hpre : byteLen "snapshot-" = 9 := rfl
    rw [byteLen_append]
    omega
  have hpos : 1 ≤ sequence := hrun.sequence_pos
  have hstarted : startedAt ≠ 0 := hrun.started.ne'
  have hcompleted : completedAt ≠ 0 := (hrun.started.trans_le hrun.completed).ne'
  have hkeys : (found.relationships.map fun r => { r with attributes := r.attributes.made }).map relationshipKey =
      found.relationships.map relationshipKey := by
    rw [List.map_map]
    rfl
  cases hassets : validAssets [] (found.assets.map completed) with
  | none => simp [validSnapshotContract, newSnapshot, signSnapshot, hassets]
  | some seen =>
    have hhead : validSnapshotContract (newSnapshot id sequence startedAt completedAt found) = true ↔
        (found.assets.length ≤ 100000 ∧ found.relationships.length ≤ 250000) ∧ validRelationships seen []
          (found.relationships.map fun r => { r with attributes := r.attributes.made }) = true := by
      simp [validSnapshotContract, newSnapshot, signSnapshot, GoMap.len, hrun.organizationID, hrun.collectorID,
        hrun.connectorID, hrun.completed, hlong, hpos, hstarted, hcompleted, hassets]
    rw [hhead, validRelationships_iff, hkeys]
    simp

omit [Signatures] in
theorem validAssets_newSnapshot (hsum : ∀ bs, (sum256 bs).length ≤ 32) {os : List Observation} {seen : List String} :
    validAssets [] (os.map completed) = some seen ↔
      ((∀ o ∈ os, o.Sendable) ∧ (externalIDs os).Nodup) ∧ seen = (externalIDs os).reverse := by
  have hids : externalIDs (os.map completed) = externalIDs os := by
    unfold externalIDs
    rw [List.map_map]
    rfl
  rw [validAssets_eq_some, hids, List.append_nil, List.forall_mem_map]
  simp only [completed_withinLimits_iff hsum, List.not_mem_nil, not_false_eq_true, and_true]

omit [Hashes] [Signatures] in
theorem sendable_ids {os : List Observation} (h : ∀ o ∈ os, o.Sendable) :
    ∀ id ∈ externalIDs os, id ≠ "" ∧ byteLen id ≤ 1024 := by
  intro id hid
  obtain ⟨o, ho, rfl⟩ := List.mem_map.mp hid
  exact (h o ho).externalID

/-- The snapshot is accepted exactly when what was found is within the limits,
without repetitions and with no relationship to something else. -/
theorem valid_newSnapshot_iff (hrun : id.Runs sequence startedAt completedAt) (hsum : ∀ bs, (sum256 bs).length ≤ 32)
    (found : Discovery) : validSnapshotContract (newSnapshot id sequence startedAt completedAt found) = true ↔
      (found.assets.length ≤ 100000 ∧ found.relationships.length ≤ 250000) ∧
      ((∀ o ∈ found.assets, o.Sendable) ∧ (externalIDs found.assets).Nodup) ∧
      (∀ r ∈ found.relationships, r.Sendable (externalIDs found.assets)) ∧
      (found.relationships.map relationshipKey).Nodup := by
  simp only [valid_newSnapshot hrun, validAssets_newSnapshot hsum]
  constructor
  · rintro ⟨hsize, seen, ⟨hassets, hseen⟩, hrels⟩
    have hids : ∀ id, id ∈ seen ↔ id ∈ externalIDs found.assets := by
      intro id
      rw [hseen, List.mem_reverse]
    have hwithin := fun r => relationship_withinLimits_iff (r := r) (sendable_ids hassets.1) hids
    rw [List.forall_mem_map] at hrels
    refine ⟨hsize, hassets, fun r hr => (hwithin r).mp (hrels.1 r hr), hrels.2⟩
  · rintro ⟨hsize, hassets, hrels, hkeys⟩
    have hids : ∀ id, id ∈ (externalIDs found.assets).reverse ↔ id ∈ externalIDs found.assets := by
      intro id
      rw [List.mem_reverse]
    refine ⟨hsize, _, ⟨hassets, rfl⟩, ?_, hkeys⟩
    rw [List.forall_mem_map]
    intro r hr
    exact (relationship_withinLimits_iff (sendable_ids hassets.1) hids).mpr (hrels r hr)

end

end Infragraph
