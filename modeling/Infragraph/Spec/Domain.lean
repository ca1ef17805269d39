import Infragraph.Spec.Json

/-! The domain model: times, statuses, the snapshot envelope a collector sends,
and the identifiers the control plane derives from it. -/

namespace Infragraph

/-- A `time.Time` as nanoseconds since Go's zero time, so that `IsZero` is `0`. -/
abbrev Time := ℤ

/-- A timestamptz column keeps whole microseconds; the driver drops the rest. -/
def timestamptz (t : Time) : Time := t - t % 1000

def orNow (time now : Time) : Time := if time = 0 then now else time

inductive AssetStatus where
  | active | stale | missing | conflicting | retired | unknown
deriving DecidableEq, Repr

def AssetStatus.text : AssetStatus → String
  | active => "ACTIVE"
  | stale => "STALE"
  | missing => "MISSING"
  | conflicting => "CONFLICTING"
  | retired => "RETIRED"
  | unknown => "UNKNOWN"

/-- Status of a row of `asset_source_identities`. -/
inductive SourceStatus where
  | active | missing
deriving DecidableEq, Repr

inductive RelationshipStatus where
  | active | removed
deriving DecidableEq, Repr

/-- `domain.AssetTypeLabels`. -/
def assetTypeLabels : List (String × String) :=
  [("PHYSICAL_HOST", "Physical host"), ("VIRTUAL_MACHINE", "Virtual machine"),
    ("CONTAINER", "Container"), ("CONTAINER_IMAGE", "Container image"),
    ("KUBERNETES_CLUSTER", "Kubernetes cluster"), ("KUBERNETES_NODE", "Kubernetes node"),
    ("KUBERNETES_NAMESPACE", "Kubernetes namespace"), ("KUBERNETES_WORKLOAD", "Kubernetes workload"),
    ("KUBERNETES_POD", "Kubernetes pod"), ("APPLICATION", "Application"), ("SERVICE", "Service"),
    ("DATABASE", "Database"), ("CACHE", "Cache"), ("MESSAGE_BROKER", "Message broker"),
    ("STORAGE", "Storage"), ("NETWORK", "Network"), ("IP_ADDRESS", "IP address"),
    ("DNS_NAME", "DNS name"), ("LOAD_BALANCER", "Load balancer"), ("CERTIFICATE", "Certificate"),
    ("VOLUME", "Volume"), ("CLOUD_RESOURCE", "Cloud resource"), ("UNKNOWN", "Unknown")]

structure Observation where
  id : String := ""
  organizationID : String := ""
  snapshotID : String := ""
  connectorID : String := ""
  collectorID : String := ""
  externalID : String
  assetType : String
  observedAt : Time
  attributes : GoMap Json
  identityHints : GoMap Json
  fingerprint : String := ""
  status : String := ""

structure RelationshipObservation where
  relationshipID : String := ""
  snapshotID : String := ""
  connectorID : String := ""
  externalFromID : String
  externalToID : String
  type : String
  observedAt : Time
  attributes : GoMap Json

/-- A relationship as a snapshot names it: the external IDs of its ends, and its type. -/
abbrev LinkName := String × String × String

def RelationshipObservation.triple (r : RelationshipObservation) : LinkName :=
  (r.externalFromID, r.externalToID, r.type)

structure SnapshotEnvelope where
  protocolVersion : String
  snapshotID : String
  organizationID : String
  collectorID : String
  connectorID : String
  connectorType : String
  connectorVersion : String
  startedAt : Time
  completedAt : Time
  sequence : ℤ
  assets : List Observation
  relationships : List RelationshipObservation
  warnings : List String
  statistics : GoMap ℤ
  contentHash : String
  signatureAlgorithm : String
  signature : String
  /-- a nil slice is empty, and marshals as null -/
  nilAssets : Bool := false
  nilRelationships : Bool := false
  nilWarnings : Bool := false

structure Summary where
  created : ℕ := 0
  updated : ℕ := 0
  unchanged : ℕ := 0
  missing : ℕ := 0
  conflicting : ℕ := 0
  relationshipsCreated : ℕ := 0
  relationshipsRemoved : ℕ := 0
  changes : ℕ := 0
deriving DecidableEq, Repr

/-- The hash functions the code calls. -/
class Hashes where
  /-- `sha256.Sum256` -/
  sum256 : List UInt8 → List UInt8
  /-- PostgreSQL's `hashtextextended(text, 0)`, which names an advisory lock. -/
  hashtextextended : String → ℤ

export Hashes (sum256 hashtextextended)

def bytes (s : String) : List UInt8 := s.toUTF8.data.toList

def utf8 (text : List Char) : List UInt8 := text.flatMap String.utf8EncodeChar

/-- `hex.EncodeToString`. -/
def hexEncode (bs : List UInt8) : List Char :=
  bs.flatMap fun b => [hexDigit (b.toNat / 16), hexDigit (b.toNat % 16)]

def hexSum [Hashes] (bs : List UInt8) : String := String.ofList (hexEncode (sum256 bs))

/-- The bytes `stableID` hashes: every value, ended by a NUL. -/
def stableStream (values : List String) : List UInt8 := values.flatMap fun v => bytes v ++ [0]

def stableID [Hashes] (pre : String) (values : List String) : String :=
  pre ++ "-" ++ String.ofList ((hexEncode (sum256 (stableStream values))).take 32)

def stringAttribute (attributes : GoMap Json) (key : String) : String :=
  match attributes.get key with
  | some (.str value) => trimSpace value
  | _ => ""

def observationName (o : Observation) : String :=
  match (["name", "hostname", "display_name"].map (stringAttribute o.attributes)).find? (· ≠ "") with
  | some value => value
  | none => o.externalID

def strongKeys : List String :=
  ["cloud_id", "kubernetes_uid", "docker_container_id", "vm_uuid", "hardware_uuid",
    "terraform_resource_id", "external_cmdb_id"]

/-- `fmt.Sprint(hints[key])`: a missing key prints as nil. -/
def hintText (hints : GoMap Json) (key : String) : String :=
  trimSpace ((hints.get key).getD .null).sprint

/-- `resolution.StrongIdentities`, as the list of its entries. -/
def strongIdentities (o : Observation) : List (String × String) :=
  (strongKeys.map fun key => (key, hintText o.identityHints key)).filter
    fun e => e.2 ≠ "" ∧ e.2 ≠ "<nil>"

end Infragraph
