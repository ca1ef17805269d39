import Infragraph.Spec.Marshal

/-! Signed snapshots: `SigningBytes`, `SignSnapshot` and `VerifySnapshot`; and the
encrypted secrets of `SecretStore`. -/

namespace Infragraph

/-- The Ed25519 functions the code calls. -/
class Signatures where
  /-- `ed25519.Sign` with a private key -/
  sign : List UInt8 → List UInt8 → List UInt8
  /-- `ed25519.Verify` with a public key -/
  verifies : List UInt8 → List UInt8 → List UInt8 → Bool

export Signatures (sign verifies)

namespace Json

mutual

def toGo : Json → GoValue
  | null => .null
  | bool b => .bool b
  | num n => .float n
  | str s => .str s
  | arr items => .slice (toGos items)
  | obj entries => .map (toGoFields entries)

def toGos : List Json → List GoValue
  | [] => []
  | v :: vs => toGo v :: toGos vs

def toGoFields : List (String × Json) → List (String × GoValue)
  | [] => []
  | (k, v) :: es => (k, toGo v) :: toGoFields es

end

end Json

/-- A `map[string]any` of decoded values. -/
def GoMap.toGo (m : GoMap Json) : GoValue := if m.isNil then .null else .map (Json.toGoFields m.entries)

/-- A `time.Time` marshals as its RFC 3339 text. -/
def goTime (t : Time) : GoValue := .str (String.ofList (rfc3339Nano t))

def goSlice (isNil : Bool) (items : List GoValue) : GoValue := if isNil then .null else .slice items

def Observation.toGo (o : Observation) : GoValue :=
  .struct [("ID", .str o.id), ("OrganizationID", .str o.organizationID), ("SnapshotID", .str o.snapshotID),
    ("ConnectorID", .str o.connectorID), ("CollectorID", .str o.collectorID),
    ("ExternalID", .str o.externalID), ("AssetType", .str o.assetType), ("ObservedAt", goTime o.observedAt),
    ("Attributes", o.attributes.toGo), ("IdentityHints", o.identityHints.toGo),
    ("Fingerprint", .str o.fingerprint), ("Status", .str o.status)]

def RelationshipObservation.toGo (r : RelationshipObservation) : GoValue :=
  .struct [("RelationshipID", .str r.relationshipID), ("SnapshotID", .str r.snapshotID),
    ("ConnectorID", .str r.connectorID), ("ExternalFromID", .str r.externalFromID),
    ("ExternalToID", .str r.externalToID), ("Type", .str r.type), ("ObservedAt", goTime r.observedAt),
    ("Attributes", r.attributes.toGo)]

def SnapshotEnvelope.toGo (s : SnapshotEnvelope) : GoValue :=
  .struct [("protocolVersion", .str s.protocolVersion), ("snapshotId", .str s.snapshotID),
    ("organizationId", .str s.organizationID), ("collectorId", .str s.collectorID),
    ("connectorId", .str s.connectorID), ("connectorType", .str s.connectorType),
    ("connectorVersion", .str s.connectorVersion), ("startedAt", goTime s.startedAt),
    ("completedAt", goTime s.completedAt), ("sequence", .int s.sequence),
    ("assets", goSlice s.nilAssets (s.assets.map (·.toGo))),
    ("relationships", goSlice s.nilRelationships (s.relationships.map (·.toGo))),
    ("warnings", goSlice s.nilWarnings (s.warnings.map .str)),
    ("statistics", if s.statistics.isNil then .null else
      .map (s.statistics.entries.map fun e => (e.1, .int e.2))),
    ("contentHash", .str s.contentHash), ("signatureAlgorithm", .str s.signatureAlgorithm),
    ("signature", .str s.signature)]

/-- `SigningBytes`: the envelope without its signature. -/
def SnapshotEnvelope.signingBytes (s : SnapshotEnvelope) : List UInt8 :=
  utf8 ({ s with signature := "" } : SnapshotEnvelope).toGo.marshal

def base64Alphabet : List Char := "ABCDEFGHIJKLMNOPQRSTUVWXYZabcdefghijklmnopqrstuvwxyz0123456789+/".toList

def base64Digit (n : ℕ) : Char := (base64Alphabet.drop n).headD '='

/-- `base64.StdEncoding.EncodeToString`. -/
def base64Encode : List UInt8 → List Char
  | [] => []
  | [a] =>
    let n := a.toNat * 16
    [base64Digit (n / 64), base64Digit (n % 64), '=', '=']
  | [a, b] =>
    let n := (a.toNat * 256 + b.toNat) * 4
    [base64Digit (n / 4096), base64Digit (n / 64 % 64), base64Digit (n % 64), '=']
  | a :: b :: c :: rest =>
    let n := (a.toNat * 256 + b.toNat) * 256 + c.toNat
    base64Digit (n / 262144) :: base64Digit (n / 4096 % 64) :: base64Digit (n / 64 % 64) ::
      base64Digit (n % 64) :: base64Encode rest

def base64Value (c : Char) : Option ℕ :=
  if c ∈ base64Alphabet then some (base64Alphabet.idxOf c) else none

/-- Four characters at a time; padding ends the text. -/
def base64Quanta : List Char → Option (List UInt8)
  | [] => some []
  | [a, b, '=', '='] => do
    let n := (← base64Value a) * 64 + (← base64Value b)
    return [UInt8.ofNat (n / 16)]
  | [a, b, c, '='] => do
    let n := ((← base64Value a) * 64 + (← base64Value b)) * 64 + (← base64Value c)
    return [UInt8.ofNat (n / 1024), UInt8.ofNat (n / 4)]
  | a :: b :: c :: d :: rest => do
    let n := (((← base64Value a) * 64 + (← base64Value b)) * 64 + (← base64Value c)) * 64 + (← base64Value d)
    return UInt8.ofNat (n / 65536) :: UInt8.ofNat (n / 256) :: UInt8.ofNat n :: (← base64Quanta rest)
  | _ => none

/-- `base64.StdEncoding.DecodeString`, which skips line ends. -/
def base64Decode (s : String) : Option (List UInt8) :=
  base64Quanta (s.toList.filter fun c => c ≠ '\r' ∧ c ≠ '\n')

section

variable [Hashes]

/-- `security.TokenHash`. -/
def tokenHash (token : String) : String := hexSum (bytes token)

variable [Signatures]

def signSnapshot (s : SnapshotEnvelope) (key : List UInt8) : SnapshotEnvelope :=
  let s := { s with signatureAlgorithm := "Ed25519", signature := "", contentHash := "" }
  let s := { s with contentHash := hexSum s.signingBytes }
  { s with signature := String.ofList (base64Encode (sign key s.signingBytes)) }

/-- `VerifySnapshot`: the message of its error, or none. -/
def verifySnapshot (s : SnapshotEnvelope) (key : List UInt8) : Option String :=
  if s.signatureAlgorithm ≠ "Ed25519" then some "unsupported signature algorithm"
  else match base64Decode s.signature with
    | none => some "invalid signature encoding"
    | some sig =>
      if !verifies key s.signingBytes sig then some "invalid snapshot signature"
      else if s.contentHash ≠ hexSum ({ s with signature := "", contentHash := "" } : SnapshotEnvelope).signingBytes
      then some "invalid snapshot content hash"
      else none

end

abbrev Nonce := { n : List UInt8 // n.length = 12 }

/-- AES-256-GCM: `Seal`, and `Open` for what was sealed and nothing else. -/
class Gcm where
  sealed : (key : List UInt8) → Nonce → (plaintext aad : List UInt8) → List UInt8
  opened : (key : List UInt8) → Nonce → (ciphertext aad : List UInt8) → Option (List UInt8)
  opened_iff : ∀ {key n c aad p}, opened key n c aad = some p ↔ c = sealed key n p aad

structure SecretEnvelope where
  ciphertext : String
  nonce : String
  keyVersion : ℤ
  metadata : GoMap String

/-- `SecretStore`, which `NewSecretStore` makes of 32 bytes only. -/
structure SecretStore where
  key : List UInt8
  version : ℤ
  length_key : key.length = 32

inductive SecretError where
  | message (text : String)
  | panic (text : String)

/-- The additional data: `strconv.Itoa` of the version. -/
def SecretStore.aad (s : SecretStore) : List UInt8 := bytes (toString s.version)

section

variable [Gcm]

/-- `Encrypt`, with the nonce or the error of `rand.Read`. -/
def SecretStore.encrypt (s : SecretStore) (random : Except String Nonce) (plaintext : List UInt8)
    (metadata : GoMap String) : Except String SecretEnvelope := do
  let n ← random
  let c := Gcm.sealed s.key n plaintext s.aad
  return ⟨String.ofList (base64Encode c), String.ofList (base64Encode n), s.version, metadata⟩

def SecretStore.decrypt (s : SecretStore) (e : SecretEnvelope) : Except SecretError (List UInt8) :=
  if e.keyVersion ≠ s.version then .error (.message "unsupported key version")
  else match base64Decode e.ciphertext, base64Decode e.nonce with
    | some c, some n =>
      if h : n.length = 12 then
        match Gcm.opened s.key ⟨n, h⟩ c s.aad with
        | none => .error (.message "cipher: message authentication failed")
        | some p => .ok p
      -- `Open` returns no error for this
      else .error (.panic "crypto/cipher: incorrect nonce length given to GCM")
    | _, _ => .error (.message "invalid envelope encoding")

end

end Infragraph
