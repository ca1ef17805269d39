import Infragraph.Sanity.Apply
import Infragraph.Sanity.Envelope

/-! A signed snapshot is bound to its signature and to its content hash: what was
signed verifies, nothing else verifies with that signature, and two envelopes that
verify with one content hash are the same but for the signature. A secret decrypts to
what was encrypted. -/

namespace Infragraph

section

variable [Hashes] [Signatures] {s t : SnapshotEnvelope} {key pub priv : List UInt8}

def SnapshotEnvelope.unhashed (s : SnapshotEnvelope) : SnapshotEnvelope := { s with signature := "", contentHash := "" }

theorem verifySnapshot_iff : verifySnapshot s key = none ↔
    s.signatureAlgorithm = "Ed25519" ∧
      (∃ sig, base64Decode s.signature = some sig ∧ verifies key s.signingBytes sig = true) ∧
      s.contentHash = hexSum s.unhashed.signingBytes := by
  unfold verifySnapshot
  by_cases halgorithm : s.signatureAlgorithm = "Ed25519"
  · rw [if_neg (not_not.mpr halgorithm)]
    cases hsig : base64Decode s.signature with
    | none => simp
    | some sig =>
      by_cases hverifies : verifies key s.signingBytes sig = true <;>
        by_cases hhash : s.contentHash = hexSum s.unhashed.signingBytes <;>
        simp_all [SnapshotEnvelope.unhashed]
  · simp [halgorithm]

section

variable (hkeys : ∀ m m', verifies pub m (sign priv m') = true ↔ m = m')
include hkeys

theorem signSnapshot_verifies (s : SnapshotEnvelope) : verifySnapshot (signSnapshot s priv) pub = none := by
  refine verifySnapshot_iff.mpr ⟨rfl, ⟨_, base64Decode_encode _, ?_⟩, rfl⟩
  exact (hkeys _ _).mpr rfl

theorem agree_of_signature (hs : s.Proper) (ht : t.Proper)
    (h : verifySnapshot { t with signature := (signSnapshot s priv).signature } pub = none) :
    t.Agree (signSnapshot s priv) := by
  obtain ⟨-, ⟨sig, hdecode, hverifies⟩, -⟩ := verifySnapshot_iff.mp h
  have hsig : sig = sign priv (signSnapshot s priv).signingBytes :=
    Option.some.inj (hdecode.symm.trans (base64Decode_encode _))
  rw [hsig, hkeys] at hverifies
  exact SnapshotEnvelope.agree_of_signingBytes ht ⟨hs.assets, hs.relationships, hs.warnings⟩ hverifies

end

theorem agree_of_contentHash (hsha : Function.Injective (sum256 : List UInt8 → List UInt8)) (hs : s.Proper)
    (ht : t.Proper) {key' : List UInt8} (hvs : verifySnapshot s key = none) (hvt : verifySnapshot t key' = none)
    (hhash : s.contentHash = t.contentHash) : s.Agree t := by
  obtain ⟨-, -, hs'⟩ := verifySnapshot_iff.mp hvs
  obtain ⟨-, -, ht'⟩ := verifySnapshot_iff.mp hvt
  have hsum : sum256 s.unhashed.signingBytes = sum256 t.unhashed.signingBytes := by
    apply hexSum_inj
    rw [← hs', ← ht', hhash]
  have hagree := SnapshotEnvelope.agree_of_signingBytes (s := s.unhashed) (t := t.unhashed)
    ⟨hs.assets, hs.relationships, hs.warnings⟩ ⟨ht.assets, ht.relationships, ht.warnings⟩ (hsha hsum)
  exact { hagree with contentHash := hhash }

/-- Signatures bind the whole envelope, and so does the content hash. -/
theorem signature_binds_envelope (hsha : Function.Injective (sum256 : List UInt8 → List UInt8)) (pub priv : List UInt8)
    (hkeys : ∀ m m', verifies pub m (sign priv m') = true ↔ m = m') :
    (∀ s, verifySnapshot (signSnapshot s priv) pub = none) ∧
      (∀ s t : SnapshotEnvelope, s.Proper → t.Proper → ¬ t.Agree (signSnapshot s priv) →
        verifySnapshot { t with signature := (signSnapshot s priv).signature } pub ≠ none) ∧
      ∀ (s t : SnapshotEnvelope) key key', s.Proper → t.Proper → verifySnapshot s key = none →
        verifySnapshot t key' = none → s.contentHash = t.contentHash → s.Agree t := by
  refine ⟨signSnapshot_verifies hkeys, ?_, ?_⟩
  · intro s t hs ht hdiffer hverified
    exact hdiffer (agree_of_signature hkeys hs ht hverified)
  · intro s t key key' hs ht hvs hvt hhash
    exact agree_of_contentHash hsha hs ht hvs hvt hhash

end

section

/-- A sum that is the text itself, and signatures that repeat what they sign. -/
abbrev copyingHashes : Hashes := ⟨id, fun _ => 0⟩

abbrev copyingSignatures : Signatures := ⟨fun key m => key ++ m, fun key m sig => decide (sig = key ++ m)⟩

attribute [local instance] copyingHashes copyingSignatures

theorem copying_exact (m m' : List UInt8) : verifies [1] m (sign [1] m') = true ↔ m = m' := by
  show decide ([1] ++ m' = [1] ++ m) = true ↔ m = m'
  rw [decide_eq_true_iff, List.append_cancel_left_eq, eq_comm]

/-- A signature does not carry over to another snapshot ID. -/
theorem signature_binds_id : verifySnapshot
      { snapshotOf "second" "one" [] [] with
        signature := (signSnapshot (snapshotOf "first" "one" [] []) [1]).signature } [1] ≠ none :=
  (signature_binds_envelope (fun _ _ h => h) [1] [1] copying_exact).2.1 (snapshotOf "first" "one" [] [])
    (snapshotOf "second" "one" [] []) ⟨nofun, nofun, nofun⟩ ⟨nofun, nofun, nofun⟩
    fun h => absurd h.snapshotID (by decide)

end

/-- `Decrypt` panics exactly for an envelope of its version with a nonce of another
length; it returns a plaintext for its encryptions and for nothing else, and it undoes
`Encrypt`. -/
theorem decrypt_iff [Gcm] (s : SecretStore) :
    (∀ e, ((∃ text, s.decrypt e = .error (.panic text)) ↔ e.keyVersion = s.version ∧
        (base64Decode e.ciphertext).isSome ∧ ∃ n, base64Decode e.nonce = some n ∧ n.length ≠ 12) ∧
      ∀ p, s.decrypt e = .ok p ↔ e.keyVersion = s.version ∧ ∃ n : Nonce, base64Decode e.nonce = some n.1 ∧
        base64Decode e.ciphertext = some (Gcm.sealed s.key n p s.aad)) ∧
    ∀ random p metadata e, s.encrypt random p metadata = .ok e → s.decrypt e = .ok p := by
  refine ⟨fun e => ?_, fun random p metadata e he => ?_⟩
  · unfold SecretStore.decrypt
    by_cases hversion : e.keyVersion = s.version
    · cases base64Decode e.ciphertext with
      | none => simp [hversion]
      | some c =>
        cases base64Decode e.nonce with
        | none => simp [hversion]
        | some n =>
          by_cases hn : n.length = 12
          · cases hopen : Gcm.opened s.key ⟨n, hn⟩ c s.aad <;>
              simp [hversion, hn, ← Gcm.opened_iff, hopen]
          · simp [hversion, hn]
    · simp [hversion]
  · cases random with
    | error text => cases he
    | ok n =>
      cases he
      simp [SecretStore.decrypt, base64Decode_encode, n.2, Gcm.opened_iff.mpr rfl]

/-- A row of `mfa_secrets` with no nonce. -/
theorem decrypt_without_nonce : @SecretStore.decrypt ⟨fun _ _ p _ => p, fun _ _ c _ => some c, Option.some_inj⟩
    ⟨List.replicate 32 7, 1, rfl⟩ ⟨"", "", 1, .nil⟩ =
      .error (.panic "crypto/cipher: incorrect nonce length given to GCM") := rfl

end Infragraph
