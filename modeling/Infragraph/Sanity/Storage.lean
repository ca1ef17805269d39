import Infragraph.Sanity.Marshal
import Infragraph.Sanity.Times
import Infragraph.Spec.Audit

/-! What a jsonb and a timestamptz column give back. A value is marshalled as it
was before it was stored exactly when every number in it is printed as its
float64 is and the fields of every struct are declared in the order of their
names; a time exactly when it is a whole number of microseconds. -/

namespace Infragraph

variable {n : ℤ} {j : ℕ} {es es' : List (String × List Char)}

theorem toDigits_pow {d : ℕ} (hd : 0 < d) (j : ℕ) :
    Nat.toDigits 10 (d * 10 ^ j) = Nat.toDigits 10 d ++ List.replicate j '0' := by
  induction j with
  | zero => simp
  | succ j ih =>
    have hstep := Nat.toDigits_append_toDigits (b := 10) (n := d * 10 ^ j) (d := 0) (by omega) (by positivity)
      (by omega)
    rw [show d * 10 ^ (j + 1) = 10 * (d * 10 ^ j) + 0 by ring, ← hstep, ih, List.replicate_succ',
      List.append_assoc]
    rfl

theorem stripZeros_spec {fuel m : ℕ} (hm : m ≠ 0) (hfuel : m < 2 ^ fuel) (k : ℕ) :
    ∃ d j, stripZeros fuel m k = (d, k + j) ∧ d % 10 ≠ 0 ∧ d * 10 ^ j = m := by
  induction fuel generalizing m k with
  | zero => omega
  | succ fuel ih =>
    rw [stripZeros]
    split_ifs with h
    · obtain ⟨d, j, hs, hd, hj⟩ := ih (m := m / 10) (by omega) (by omega) (k + 1)
      refine ⟨d, j + 1, by rw [hs, Nat.add_assoc, Nat.add_comm 1], hd, ?_⟩
      rw [pow_succ, ← Nat.mul_assoc, hj]
      omega
    · exact ⟨m, 0, rfl, by omega, by simp⟩

theorem ofInt_zero (h : shortest64 n.natAbs = 0) : Number.ofInt n = .zero := by
  unfold Number.ofInt
  rw [h]
  rfl

theorem ofInt_spec (h : shortest64 n.natAbs ≠ 0) : ∃ d j : ℕ, ∃ hd : d % 10 ≠ 0,
    Number.ofInt n = ⟨n < 0, d, j, .inl hd⟩ ∧ d * 10 ^ j = shortest64 n.natAbs := by
  obtain ⟨d, j, hs, hd, hj⟩ := stripZeros_spec h (Nat.lt_log2_self (n := shortest64 n.natAbs)) 0
  refine ⟨d, j, hd, ?_, hj⟩
  unfold Number.ofInt
  dsimp only
  rw [hs, Number.ofDigits, dif_pos hd, Nat.zero_add]

/-- Printed in full up to 21 digits. -/
theorem marshal_full {f : Number} (hf : f.exponent = j) (hlen : (Nat.toDigits 10 f.digits).length + j ≤ 21) :
    f.marshal = f.sign.toList ++ (Nat.toDigits 10 f.digits ++ List.replicate j '0') := by
  have hlength : (toString f.digits).length = (Nat.toDigits 10 f.digits).length := by
    rw [← String.length_toList, toList_toString]
  unfold Number.marshal
  rw [if_pos (.inl (by omega)), String.toList_append, Number.scaled, hf,
    if_pos (Int.natCast_nonneg j), String.toList_append, toList_toString, zeros, String.toList_ofList,
    Int.toNat_natCast]

/-- Printed with an exponent beyond. -/
theorem marshal_exponent {f : Number} (hf : f.exponent = j) (h0 : f.digits ≠ 0)
    (hlen : 21 < (Nat.toDigits 10 f.digits).length + j) : 'e' ∈ f.marshal := by
  have hlength : (toString f.digits).length = (Nat.toDigits 10 f.digits).length := by
    rw [← String.length_toList, toList_toString]
  have hneg : ¬((((toString f.digits).length : ℤ) + f.exponent - 1) < 0) := by
    omega
  unfold Number.marshal
  rw [if_neg (by omega), if_neg hneg]
  simp

theorem length_lt_iff {d : ℕ} (hd : 0 < d) : (Nat.toDigits 10 d).length + j ≤ 21 ↔ d * 10 ^ j < 10 ^ 21 := by
  rw [← Nat.length_toDigits_le_iff (b := 10) (k := 21) (by omega) (by omega), toDigits_pow hd]
  simp

/-- Below 10 ^ 21 an integer comes back as its shortest float64 decimal. -/
theorem marshal_ofInt (h : shortest64 n.natAbs < 10 ^ 21) : (Number.ofInt n).marshal =
      (if n < 0 ∧ shortest64 n.natAbs ≠ 0 then ['-'] else []) ++ Nat.toDigits 10 (shortest64 n.natAbs) := by
  by_cases hm : shortest64 n.natAbs = 0
  · rw [ofInt_zero hm, hm, if_neg (by simp)]
    rfl
  · obtain ⟨d, j, hd, hf, hj⟩ := ofInt_spec hm
    have hlen : (Nat.toDigits 10 d).length + j ≤ 21 := by
      rw [length_lt_iff (by omega), hj]
      exact h
    rw [marshal_full (j := j) (by rw [hf]) (by rw [hf]; exact hlen), hf, ← hj, toDigits_pow (by omega)]
    by_cases hn : n < 0
    · simp [Number.sign, hn, hj, hm]
    · simp [Number.sign, hn]

/-- From 10 ^ 21 on with an exponent. -/
theorem marshal_ofInt_large (h : 10 ^ 21 ≤ shortest64 n.natAbs) : 'e' ∈ (Number.ofInt n).marshal := by
  obtain ⟨d, j, hd, hf, hj⟩ := ofInt_spec (n := n) (by omega)
  have hlen : ¬(Nat.toDigits 10 d).length + j ≤ 21 := by
    rw [length_lt_iff (by omega), hj]
    omega
  exact marshal_exponent (j := j) (by rw [hf]) (by rw [hf]; dsimp only; omega) (by rw [hf]; dsimp only; omega)

theorem int_not_exponent (n : ℤ) : 'e' ∉ (toString n).toList := by
  rw [toList_toString_int]
  intro h
  rcases List.mem_append.mp h with h | h
  · split_ifs at h
    · simp at h
    · cases h
  · cases Nat.isDigit_of_mem_toDigits (by omega) le_rfl h

theorem signed_digits_iff (n : ℤ) (m : ℕ) : (if n < 0 ∧ m ≠ 0 then ['-'] else []) ++ Nat.toDigits 10 m =
      (if n < 0 then ['-'] else []) ++ Nat.toDigits 10 n.natAbs ↔ m = n.natAbs := by
  constructor
  · intro heq
    by_cases hn : n < 0
    · by_cases h0 : m = 0
      · simp [hn, h0] at heq
      · exact toDigits_inj (by simpa [hn, h0] using heq)
    · exact toDigits_inj (by simpa [hn] using heq)
  · rintro rfl
    by_cases hn : n < 0
    · have h0 : n.natAbs ≠ 0 := by omega
      simp [hn, h0]
    · simp [hn]

theorem marshal_reloaded_int (n : ℤ) :
    (Number.ofInt n).marshal = (toString n).toList ↔ shortest64 n.natAbs = n.natAbs ∧ n.natAbs < 10 ^ 21 := by
  rcases Nat.lt_or_ge (shortest64 n.natAbs) (10 ^ 21) with h | h
  · rw [marshal_ofInt h, toList_toString_int, signed_digits_iff]
    refine ⟨fun hm => ⟨hm, ?_⟩, And.left⟩
    rw [← hm]
    exact h
  · constructor
    · intro heq
      have hexp := marshal_ofInt_large h
      rw [heq] at hexp
      exact absurd hexp (int_not_exponent n)
    · rintro ⟨hm, hlt⟩
      rw [hm] at h
      exact absurd hlt (Nat.not_lt.mpr h)

theorem marshal_numeric (f : Number) : f.numeric.marshal = f.marshal ↔ (f.digits = 0 → f.negative = false) := by
  unfold Number.numeric
  split_ifs with h0
  · obtain ⟨negative, digits, exponent, hshort⟩ := f
    obtain rfl : digits = 0 := h0
    obtain rfl : exponent = 0 := by simpa using hshort
    cases negative <;> simp [Number.marshal, Number.zero, Number.sign, Number.scaled]
  · simp [h0]

instance : Std.Total keyLe := ⟨fun a b => le_total a.1 b.1⟩

instance : IsTrans (String × List Char) keyLe := ⟨fun _ _ _ => le_trans⟩

theorem map_fst_insertionSort (es : List (String × List Char)) :
    (es.insertionSort keyLe).map Prod.fst = (es.map Prod.fst).insertionSort (· ≤ ·) :=
  List.map_insertionSort keyLe (· ≤ ·) Prod.fst es fun _ _ _ _ => Iff.rfl

/-- Where a field is inserted depends on the keys only. -/
theorem orderedInsert_inj {k : String} {t t' : List Char} (hkeys : es.map Prod.fst = es'.map Prod.fst)
    (h : es.orderedInsert keyLe (k, t) = es'.orderedInsert keyLe (k, t')) : t = t' ∧ es = es' := by
  induction es generalizing es' with
  | nil =>
    cases es' with
    | nil => simpa using h
    | cons e' es' => cases hkeys
  | cons e es ih =>
    cases es' with
    | nil => cases hkeys
    | cons e' es' =>
      obtain ⟨hk, hks⟩ := List.cons.inj hkeys
      have hsame : keyLe (k, t') e' ↔ keyLe (k, t) e := by rw [keyLe, keyLe, hk]
      by_cases hle : keyLe (k, t) e
      · have hle' := hsame.mpr hle
        rw [List.orderedInsert_cons_of_le keyLe _ hle, List.orderedInsert_cons_of_le keyLe _ hle'] at h
        simpa using h
      · have hle' := fun h => hle (hsame.mp h)
        rw [List.orderedInsert_of_not_le keyLe _ hle, List.orderedInsert_of_not_le keyLe _ hle'] at h
        obtain ⟨rfl, hrest⟩ := List.cons.inj h
        obtain ⟨rfl, rfl⟩ := ih hks hrest
        exact ⟨rfl, rfl⟩

theorem insertionSort_inj (hkeys : es.map Prod.fst = es'.map Prod.fst)
    (h : es.insertionSort keyLe = es'.insertionSort keyLe) : es = es' := by
  induction es generalizing es' with
  | nil =>
    cases es' with
    | nil => rfl
    | cons e' es' => cases hkeys
  | cons e es ih =>
    cases es' with
    | nil => cases hkeys
    | cons e' es' =>
      obtain ⟨k, t⟩ := e
      obtain ⟨k', t'⟩ := e'
      obtain ⟨rfl : k = k', hks⟩ := List.cons.inj hkeys
      have hsorted : (es.insertionSort keyLe).map Prod.fst = (es'.insertionSort keyLe).map Prod.fst := by
        rw [map_fst_insertionSort, map_fst_insertionSort, hks]
      obtain ⟨rfl, hrest⟩ := orderedInsert_inj hsorted h
      rw [ih hks hrest]

theorem pairwise_keyLe : es.Pairwise keyLe ↔ (es.map Prod.fst).Pairwise (· ≤ ·) := by
  rw [List.pairwise_map]
  rfl

/-- Fields in their own order against the same keys sorted. -/
theorem eq_insertionSort_iff (hkeys : es.map Prod.fst = es'.map Prod.fst) :
    es'.insertionSort keyLe = es ↔ (es.map Prod.fst).Pairwise (· ≤ ·) ∧ es' = es := by
  constructor
  · intro h
    have hsorted : (es.map Prod.fst).Pairwise (· ≤ ·) := by
      rw [← h, map_fst_insertionSort]
      exact List.pairwise_insertionSort _ _
    refine ⟨hsorted, ?_⟩
    rw [← h, List.Pairwise.insertionSort_eq]
    rw [hkeys] at hsorted
    exact pairwise_keyLe.mpr hsorted
  · rintro ⟨hsorted, rfl⟩
    exact List.Pairwise.insertionSort_eq (pairwise_keyLe.mpr hsorted)

theorem objectText_iff (h : ∀ e ∈ es, Delimited.Closed e.2) (h' : ∀ e ∈ es', Delimited.Closed e.2)
    (hlen : es.length = es'.length) : objectText es = objectText es' ↔ es = es' :=
  ⟨objectText_inj h h' hlen, fun heq => heq ▸ rfl⟩

namespace GoValue

mutual

/-- Marshalled after a jsonb column as before. -/
def Storable : GoValue → Prop
  | null => True
  | bool _ => True
  | int n => shortest64 n.natAbs = n.natAbs ∧ n.natAbs < 10 ^ 21
  | float f => f.digits = 0 → f.negative = false
  | str _ => True
  | slice items => Storables items
  | map entries => StorableFields entries
  | struct fields => (fields.map Prod.fst).Pairwise (· ≤ ·) ∧ StorableFields fields

def Storables : List GoValue → Prop
  | [] => True
  | v :: vs => Storable v ∧ Storables vs

def StorableFields : List (String × GoValue) → Prop
  | [] => True
  | (_, v) :: es => Storable v ∧ StorableFields es

end

theorem length_marshals (vs : List GoValue) : (marshals vs).length = vs.length := by
  induction vs with
  | nil => rfl
  | cons v vs ih => rw [marshals, List.length_cons, ih, List.length_cons]

theorem length_reloadeds (vs : List GoValue) : (reloadeds vs).length = vs.length := by
  induction vs with
  | nil => rfl
  | cons v vs ih => rw [reloadeds, List.length_cons, ih, List.length_cons]

theorem keys_marshalFields (es : List (String × GoValue)) : (marshalFields es).map Prod.fst = es.map Prod.fst := by
  induction es with
  | nil => rfl
  | cons e es ih =>
    rw [marshalFields, List.map_cons, ih, List.map_cons]

theorem keys_reloadedFields (es : List (String × GoValue)) : (reloadedFields es).map Prod.fst = es.map Prod.fst := by
  induction es with
  | nil => rfl
  | cons e es ih =>
    rw [reloadedFields, List.map_cons, ih, List.map_cons]

theorem keys_marshal_reloaded (es : List (String × GoValue)) :
    (marshalFields es).map Prod.fst = (marshalFields (reloadedFields es)).map Prod.fst := by
  rw [keys_marshalFields, keys_marshalFields, keys_reloadedFields]

theorem length_marshal_reloaded (es : List (String × GoValue)) :
    (marshalFields (reloadedFields es)).length = (marshalFields es).length := by
  have h := congrArg List.length (keys_marshal_reloaded es)
  simpa using h.symm

mutual

theorem marshal_reloaded : ∀ v : GoValue, v.reloaded.marshal = v.marshal ↔ v.Storable
  | null => by simp [reloaded, Storable]
  | bool b => by simp [reloaded, Storable]
  | int n => by rw [reloaded, marshal, marshal, Storable]; exact marshal_reloaded_int n
  | float f => by rw [reloaded, marshal, marshal, Storable]; exact marshal_numeric f
  | str s => by simp [reloaded, Storable]
  | slice items => by
    rw [reloaded, marshal, marshal, Storable, ← marshals_reloadeds items]
    refine ⟨fun h => ?_, fun h => by rw [h]⟩
    exact commaSep_inj (closed_marshals _) (closed_marshals _)
      (by rw [length_marshals, length_marshals, length_reloadeds])
      (List.append_cancel_right (List.cons.inj h).2)
  | map entries => by
    rw [reloaded, marshal_map, marshal_map, Storable, ← marshalFields_reloaded entries, objectText_iff]
    · exact ⟨insertionSort_inj (keys_marshal_reloaded entries).symm, fun h => by rw [h]⟩
    · exact fun e he => closed_marshalFields _ e ((List.mem_insertionSort _).mp he)
    · exact fun e he => closed_marshalFields _ e ((List.mem_insertionSort _).mp he)
    · rw [List.length_insertionSort, List.length_insertionSort, length_marshal_reloaded]
  | struct fields => by
    rw [reloaded, marshal_map, marshal_struct, Storable, ← marshalFields_reloaded fields, objectText_iff,
      eq_insertionSort_iff (keys_marshal_reloaded fields), keys_marshalFields]
    · exact fun e he => closed_marshalFields _ e ((List.mem_insertionSort _).mp he)
    · exact closed_marshalFields fields
    · rw [List.length_insertionSort, length_marshal_reloaded]

theorem marshals_reloadeds : ∀ vs : List GoValue, marshals (reloadeds vs) = marshals vs ↔ Storables vs
  | [] => by simp [reloadeds, Storables]
  | v :: vs => by
    rw [reloadeds, marshals, marshals, Storables, List.cons.injEq, marshal_reloaded v, marshals_reloadeds vs]

theorem marshalFields_reloaded : ∀ es : List (String × GoValue),
    marshalFields (reloadedFields es) = marshalFields es ↔ StorableFields es
  | [] => by simp [reloadedFields, StorableFields]
  | (k, v) :: es => by
    rw [reloadedFields, marshalFields, marshalFields, StorableFields, List.cons.injEq, Prod.mk.injEq,
      marshal_reloaded v, marshalFields_reloaded es]
    simp

end

end GoValue

theorem canonical_eq (e : AuditEvent) : e.canonical = objectText
    [("action", marshalString e.action), ("actorId", marshalString e.actorID), ("id", marshalString e.id),
      ("occurredAt", marshalString (String.ofList (rfc3339Nano e.occurredAt))),
      ("organizationId", marshalString e.organizationID), ("payload", (GoValue.ofMap e.payload).marshal),
      ("requestId", marshalString e.requestID), ("resourceId", marshalString e.resourceID),
      ("resourceType", marshalString e.resourceType)] := by
  rw [AuditEvent.canonical, AuditEvent.content, GoValue.marshal_map]
  simp [GoValue.marshalFields, keyLe, GoValue.marshal]

structure SameContent (e e' : AuditEvent) : Prop where
  id : e.id = e'.id
  organizationID : e.organizationID = e'.organizationID
  actorID : e.actorID = e'.actorID
  action : e.action = e'.action
  resourceType : e.resourceType = e'.resourceType
  resourceID : e.resourceID = e'.resourceID
  requestID : e.requestID = e'.requestID
  payload : (GoValue.ofMap e.payload).marshal = (GoValue.ofMap e'.payload).marshal
  occurredAt : e.occurredAt = e'.occurredAt

theorem marshalString_inj {s s' : String} (h : marshalString s = marshalString s') : s = s' := by
  have happ : marshalString s ++ [] = marshalString s' ++ [] := by rw [h]
  exact (marshalString_append_inj happ).1

/-- The canonical bytes determine the content. -/
theorem canonical_iff {e e' : AuditEvent} : e.canonical = e'.canonical ↔ SameContent e e' := by
  constructor
  · intro h
    rw [canonical_eq, canonical_eq, objectText_iff] at h
    · simp only [List.cons.injEq, Prod.mk.injEq, true_and, and_true] at h
      obtain ⟨haction, hactor, hid, htime, horg, hpayload, hrequest, hresource, htype⟩ := h
      refine ⟨marshalString_inj hid, marshalString_inj horg, marshalString_inj hactor, marshalString_inj haction,
        marshalString_inj htype, marshalString_inj hresource, marshalString_inj hrequest, hpayload, ?_⟩
      exact rfc3339Nano_inj (String.ofList_injective (marshalString_inj htime))
    · simp [closed_marshalString, GoValue.closed_marshal]
    · simp [closed_marshalString, GoValue.closed_marshal]
    · simp only [List.length_cons]
  · rintro ⟨hid, horg, hactor, haction, htype, hresource, hrequest, hpayload, htime⟩
    rw [canonical_eq, canonical_eq, hid, horg, hactor, haction, htype, hresource, hrequest, hpayload, htime]

/-- An event that is stored as it was hashed. -/
def AuditEvent.Storable (e : AuditEvent) : Prop :=
  e.occurredAt % 1000 = 0 ∧ (GoValue.ofMap e.payload).Storable

theorem orEmpty_nullIf (s : String) : orEmpty (nullIf s) = s := by
  unfold nullIf
  split_ifs with h
  · exact h.symm
  · rfl

theorem ofMap_reloaded (m : GoMap GoValue) :
    GoValue.ofMap (GoValue.ofMap m).reloaded.toMap = (GoValue.ofMap m).reloaded := by
  unfold GoValue.ofMap
  split_ifs with hnil h h
  · rfl
  · cases h rfl
  · simp [GoValue.reloaded, GoValue.toMap, GoValue.keys_reloadedFields, m.nodup] at h
  · simp [GoValue.reloaded, GoValue.toMap, GoValue.keys_reloadedFields, m.nodup]

/-- What `Verify` hashes of a stored event is what `Append` hashed exactly when
the event is storable. -/
theorem canonical_stored (e : AuditEvent) : e.row.event.canonical = e.canonical ↔ e.Storable := by
  rw [canonical_iff]
  constructor
  · intro h
    refine ⟨(rfc3339Nano_timestamptz _).mp (congrArg rfc3339Nano h.occurredAt), ?_⟩
    rw [← GoValue.marshal_reloaded, ← ofMap_reloaded]
    exact h.payload
  · rintro ⟨htime, hpayload⟩
    refine ⟨rfl, rfl, orEmpty_nullIf _, rfl, orEmpty_nullIf _, orEmpty_nullIf _, rfl, ?_, ?_⟩
    · rw [← GoValue.marshal_reloaded, ← ofMap_reloaded] at hpayload
      exact hpayload
    · exact rfc3339Nano_inj ((rfc3339Nano_timestamptz _).mpr htime)

end Infragraph
