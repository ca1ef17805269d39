import Infragraph.Spec.Ingest

/-! `enroll` of `internal/app/app.go`: a one-time token is exchanged for a
collector with its credential and its connector. The token is used up by the first
statement of the transaction; whatever goes wrong later rolls it back. -/

namespace Infragraph

open Relational ReadCommitted Prog

/-- A row of `collector_enrollment_tokens`. -/
structure TokenRow where
  id : String
  organizationID : String
  tokenHash : String
  expiresAt : Time
  usedAt : Option Time
  scope : String

/-- The columns of `collectors` that enrollment fills. -/
structure EnrolledCollector where
  id : String
  organizationID : String
  name : String
  publicKey : List UInt8
  fingerprint : String
  status : String
  collectorVersion : String
  protocolVersion : String
  compatibilityStatus : String

structure EnrolledCredential where
  id : String
  organizationID : String
  collectorID : String
  credentialHash : String

structure EnrolledConnector where
  id : String
  organizationID : String
  collectorID : String
  name : String
  type : String
  enabled : Bool
  authoritativeLevel : String
  lastStatus : String

/-- The tables of enrollment; a token is found by `UNIQUE (token_hash)`. -/
structure Enrollments where
  tokens : Table TokenRow.tokenHash
  collectors : Table EnrolledCollector.id
  credentials : Table EnrolledCredential.id
  connectors : Table EnrolledConnector.id

inductive EnrollWrite where
  | token (r : TokenRow)
  | collector (r : EnrolledCollector)
  | credential (r : EnrolledCredential)
  | connector (r : EnrolledConnector)

def Enrollments.write (db : Enrollments) : EnrollWrite → Enrollments
  | .token r => { db with tokens := db.tokens.put r }
  | .collector r => { db with collectors := db.collectors.put r }
  | .credential r => { db with credentials := db.credentials.put r }
  | .connector r => { db with connectors := db.connectors.put r }

instance : Store Enrollments EnrollWrite := ⟨Enrollments.write⟩

inductive EnrollIndex where
  | tokens | collectors | fingerprints | credentials | connectors
deriving DecidableEq

structure EnrollLock where
  index : EnrollIndex
  values : List String
deriving DecidableEq

abbrev EnrollSql (β : Type) := Stmt Enrollments EnrollWrite EnrollLock EnrollIndex β

abbrev EnrollHandler (α : Type) := Prog Enrollments EnrollWrite EnrollLock Reply α

def TokenRow.usable (t : TokenRow) (now : Time) : Bool :=
  t.usedAt = none && now < t.expiresAt && t.scope = "collector.enroll"

def useToken (hash : String) (now : Time) : EnrollSql (List String) :=
  Stmt.update ⟨"UPDATE collector_enrollment_tokens SET used_at=now()", [hash]⟩ Enrollments.tokens
    EnrollWrite.token (fun t => ⟨.tokens, [t.tokenHash]⟩) (fun _ t => t.tokenHash = hash && t.usable now)
    (fun t => { t with usedAt := some now }) (·.organizationID)

def insertCollector (r : EnrolledCollector) : EnrollSql Unit :=
  Stmt.insert ⟨"INSERT INTO collectors", [r.id]⟩ EnrollWrite.collector
    [⟨.collectors, [r.id]⟩, ⟨.fingerprints, [r.organizationID, r.fingerprint]⟩]
    (fun db =>
      if (db.collectors.get r.id).isSome then some .collectors
      else if db.collectors.rows.any fun c =>
        c.organizationID = r.organizationID && c.fingerprint = r.fingerprint then some .fingerprints
      else none) r

def insertCredential (r : EnrolledCredential) : EnrollSql Unit :=
  Stmt.insert ⟨"INSERT INTO collector_credentials", [r.id]⟩ EnrollWrite.credential [⟨.credentials, [r.id]⟩]
    (fun db => if (db.credentials.get r.id).isSome then some .credentials else none) r

def insertConnector (r : EnrolledConnector) : EnrollSql Unit :=
  Stmt.insert ⟨"INSERT INTO infrastructure_connectors", [r.id]⟩ EnrollWrite.connector [⟨.connectors, [r.id]⟩]
    (fun db => if (db.connectors.get r.id).isSome then some .connectors else none) r

structure EnrollInput where
  token : String
  name : String
  publicKey : String
  collectorVersion : String
  protocolVersion : String
  connectorName : String
  connectorType : String

/-- What `decode` makes of the request body. -/
inductive EnrollBody where
  | tooLarge
  | malformed
  | trailing
  | input (i : EnrollInput)

/-- A request, with what its execution reads elsewhere: the answer of the rate
limiter, the transaction's `now()` and the random identifiers. -/
structure EnrollRequest where
  allowed : Bool
  body : EnrollBody
  now : Time
  collectorID : String
  connectorID : String
  credentialID : String
  credential : String

structure Enrolled where
  collectorID : String
  connectorID : String
  organizationID : String
  credential : String
  compatibilityStatus : String

/-- `unicode.ToUpper`, as far as ASCII is its image. -/
def upperCase (c : Char) : Char :=
  if c.toNat = 0x131 then 'I' else if c.toNat = 0x17F then 'S' else c.toUpper

def EnrollInput.type (i : EnrollInput) : String :=
  let connectorType := String.ofList ((trimSpace i.connectorType).toList.map upperCase)
  if connectorType = "" then "DOCKER" else connectorType

def EnrollInput.TypeInvalid (i : EnrollInput) : Prop := i.type ≠ "DOCKER" ∧ i.type ≠ "KUBERNETES"

instance (i : EnrollInput) : Decidable i.TypeInvalid := inferInstanceAs (Decidable (_ ∧ _))

def EnrollInput.nameOfConnector (i : EnrollInput) : String :=
  let connectorName := trimSpace i.connectorName
  if connectorName = "" then i.name ++ " " ++ String.ofList (i.type.toList.map Char.toLower)
  else connectorName

def EnrollInput.compatibility (i : EnrollInput) : String :=
  if "1.".toList.isPrefixOf i.protocolVersion.toList then "COMPATIBLE" else "INCOMPATIBLE"

def decodeEnroll : EnrollBody → EnrollHandler EnrollInput
  | .tooLarge => throw ⟨413, "payload_too_large", "request body exceeds configured limit"⟩
  | .malformed => throw ⟨400, "invalid_request", "request body is invalid"⟩
  | .trailing => throw ⟨400, "invalid_request", "request body must contain one JSON document"⟩
  | .input i => ret i

def orAnswer {α : Type} (s : EnrollSql α) (reply : Reply) : EnrollHandler α :=
  (exec s).mapError fun _ => reply

def invalidToken : Reply :=
  ⟨401, "invalid_enrollment_token", "token invalid, expired, or already used"⟩

def invalidPublicKey : Reply := ⟨422, "invalid_public_key", "Ed25519 public key required"⟩

def invalidConnectorType : Reply :=
  ⟨422, "invalid_connector_type", "connector type must be DOCKER or KUBERNETES"⟩

def enrollmentFailed : Reply := ⟨500, "internal_error", "enrollment failed"⟩

section

variable [Hashes]

def EnrollRequest.collector (r : EnrollRequest) (i : EnrollInput) (raw : List UInt8) (org : String) :
    EnrolledCollector :=
  { id := r.collectorID, organizationID := org, name := i.name, publicKey := raw, fingerprint := hexSum raw
    status := "ACTIVE", collectorVersion := i.collectorVersion, protocolVersion := i.protocolVersion
    compatibilityStatus := i.compatibility }

def EnrollRequest.credentialRow (r : EnrollRequest) (org : String) : EnrolledCredential :=
  { id := r.credentialID, organizationID := org, collectorID := r.collectorID
    credentialHash := tokenHash r.credential }

def EnrollRequest.connector (r : EnrollRequest) (i : EnrollInput) (org : String) : EnrolledConnector :=
  { id := r.connectorID, organizationID := org, collectorID := r.collectorID, name := i.nameOfConnector
    type := i.type, enabled := true, authoritativeLevel := "OBSERVED", lastStatus := "ENROLLED" }

/-- The transaction after the token was used up. A failed insert is answered only
after the check of the connector type. -/
def createCollector (r : EnrollRequest) (i : EnrollInput) (raw : List UInt8) (org : String) :
    EnrollHandler Enrolled := do
  let failed := if i.TypeInvalid then invalidConnectorType else enrollmentFailed
  orAnswer (insertCollector (r.collector i raw org)) failed
  orAnswer (insertCredential (r.credentialRow org)) failed
  failIf i.TypeInvalid invalidConnectorType
  orAnswer (insertConnector (r.connector i org)) enrollmentFailed
  return { collectorID := r.collectorID, connectorID := r.connectorID, organizationID := org
           credential := r.credential, compatibilityStatus := i.compatibility }

def enrollWith (r : EnrollRequest) (i : EnrollInput) (raw : List UInt8) : EnrollHandler Enrolled := do
  match ← orAnswer (useToken (tokenHash i.token) r.now) invalidToken with
  | [] => throw invalidToken
  | org :: _ => createCollector r i raw org

def enroll (r : EnrollRequest) : EnrollHandler Enrolled := do
  failIf (¬ r.allowed) ⟨429, "rate_limited", "too many enrollment attempts"⟩
  let i ← decodeEnroll r.body
  match base64Decode i.publicKey with
  | none => throw invalidPublicKey
  | some raw =>
    failIf (raw.length ≠ 32) invalidPublicKey
    enrollWith r i raw

/-- The control plane: any enroll requests at any time, in any interleaving. -/
def enrollSystem : System Enrollments EnrollWrite EnrollLock Reply Enrolled EnrollRequest := { code := enroll }

def EnrollRequest.presents (r : EnrollRequest) (hash : String) : Bool :=
  match r.body with
  | .input i => tokenHash i.token = hash
  | _ => false

end

structure Created where
  collector : EnrolledCollector
  credential : EnrolledCredential
  connector : EnrolledConnector

structure Created.Of (c : Created) (org : String) : Prop where
  collector : c.collector.organizationID = org
  credential : c.credential.organizationID = org ∧ c.credential.collectorID = c.collector.id
  connector : c.connector.organizationID = org ∧ c.connector.collectorID = c.collector.id

abbrev EnrollState := State Enrollments EnrollWrite EnrollLock Reply Enrolled EnrollRequest

/-- Each committed request added its rows; no other row of the three tables was
added, changed or removed. -/
structure EnrollState.Adds (db₀ : Enrollments) (s : EnrollState) (created : List (EnrollRequest × Created)) :
    Prop where
  log : created.map (·.1) = s.log.map (·.1)
  collectors : s.db.collectors.rows = db₀.collectors.rows ++ created.map (·.2.collector)
  credentials : s.db.credentials.rows = db₀.credentials.rows ++ created.map (·.2.credential)
  connectors : s.db.connectors.rows = db₀.connectors.rows ++ created.map (·.2.connector)

end Infragraph
