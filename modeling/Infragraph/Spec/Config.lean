import Infragraph.Spec.Collector
import Infragraph.Spec.Graph
import Infragraph.Spec.Memory

/-! `Config.Validate` of `internal/config/config.go` and `assetRoute` of
`internal/app/app.go`: the configured ceilings of a traversal, and the limits that
a request for an asset's subresource sets under them. -/

namespace Infragraph

open Relational ReadCommitted Prog

/-- `url.Values`, in the order of the text. -/
abbrev UrlValues := List (String × String)

/-- `Get`: the first value of the key, or the empty text. -/
def UrlValues.get (values : UrlValues) (key : String) : String := (values.lookup key).getD ""

/-- `url.URL`, with what `Validate` reads. -/
structure Url where
  scheme : String
  host : String
  hostname : String
  path : String
  rawQuery : String
  query : UrlValues
  fragment : String

/-- `url.Parse`. -/
class Urls where
  parse : String → Option Url

/-- `Config`, with what `Validate` reads. -/
structure Config where
  environment : String
  databaseURL : String
  sessionSecret : String
  masterKey : String
  allowedOrigins : List String
  objectStorageType : String
  s3Endpoint : String
  s3Bucket : String
  s3AccessKey : String
  s3SecretKey : String
  s3UseTLS : Bool
  otelEnabled : Bool
  otelEndpoint : String
  debug : Bool
  maxGraphDepth : ℤ
  maxGraphNodes : ℤ
  maxImportBytes : ℤ
  maxSnapshotBytes : ℤ
  maxConcurrentReconciliations : ℤ

inductive ConfigError where
  | message (text : String)
  | nilPointer
deriving DecidableEq

def toLower (s : String) : String := String.ofList (s.toList.map Memory.lower)

/-- `strings.Contains`. -/
def contains (s part : String) : Bool := s.toList.tails.any (part.toList.isPrefixOf ·)

def Config.weakSecret (c : Config) : Bool :=
  byteLen c.sessionSecret < 32 || contains (toLower c.sessionSecret) "development" ||
    contains (toLower c.sessionSecret) "change-me"

def Config.badKey (c : Config) : Bool :=
  match base64Decode c.masterKey with
  | none => true
  | some key => key.length ≠ 32 || key.all (· = 0)

def Url.plainDatabase (u : Url) : Bool :=
  let sslMode := toLower (u.query.get "sslmode")
  (u.scheme ≠ "postgres" && u.scheme ≠ "postgresql") || u.hostname = "" ||
    (sslMode ≠ "require" && sslMode ≠ "verify-ca" && sslMode ≠ "verify-full")

def Config.incompleteStorage (c : Config) : Bool :=
  c.objectStorageType ≠ "s3" || c.s3Endpoint = "" || c.s3Bucket = "" || c.s3AccessKey = "" ||
    c.s3SecretKey = "" || !c.s3UseTLS

variable [Urls]

def badOrigin (o : String) : Bool :=
  match Urls.parse o with
  | none => true
  | some u => o = "*" || u.scheme ≠ "https" || u.host = "" || u.path ≠ "" || u.rawQuery ≠ "" || u.fragment ≠ ""

/-- What `Validate` asks of production beyond the rest. -/
def Config.problems (c : Config) (database : Url) : List String :=
  (if c.weakSecret then ["strong session secret required"] else []) ++
    (if c.badKey then ["master key must be base64-encoded 32 bytes"] else []) ++
    (if database.plainDatabase then ["production database URL must be PostgreSQL with TLS enabled"] else []) ++
    (if c.allowedOrigins = [] then ["allowed origins required"] else []) ++
    (c.allowedOrigins.filter badOrigin).map (fun _ => "production origins must be explicit HTTPS origins") ++
    (if c.incompleteStorage then ["production requires complete TLS-enabled S3 object storage"] else []) ++
    if c.debug then ["debug must be disabled"] else []

def Config.validate (c : Config) : Except ConfigError Unit :=
  if c.environment ≠ "development" ∧ c.environment ≠ "test" ∧ c.environment ≠ "production" then
    .error (.message "environment must be development, test, or production")
  else if c.databaseURL = "" then .error (.message "database URL required")
  else if c.maxGraphDepth < 1 ∨ 20 < c.maxGraphDepth ∨ c.maxGraphNodes < 1 ∨ 5000 < c.maxGraphNodes then
    .error (.message "graph limits are outside safe bounds")
  else if c.maxImportBytes < 1024 ∨ c.maxSnapshotBytes < 1024 then .error (.message "payload limits are invalid")
  else if c.maxConcurrentReconciliations < 1 ∨ 64 < c.maxConcurrentReconciliations then
    .error (.message "concurrent reconciliation limit is outside safe bounds")
  else if c.objectStorageType ≠ "local" ∧ c.objectStorageType ≠ "s3" then
    .error (.message "object storage type must be local or s3")
  else if c.otelEnabled = true ∧ trimSpace c.otelEndpoint = "" then
    .error (.message "OpenTelemetry endpoint required when telemetry is enabled")
  else if c.environment ≠ "production" then .ok ()
  else
    match Urls.parse c.databaseURL with
    -- the query of the URL is read before the error
    | none => .error .nilPointer
    | some database =>
      if c.problems database ≠ [] then
        .error (.message ("unsafe production configuration: " ++ "; ".intercalate (c.problems database)))
      else .ok ()

def boundedInt (v : String) (d min max : ℤ) : ℤ :=
  match atoi v with
  | none => d
  | some n => if n < min then min else if max < n then max else n

/-- The depth and the node limit that `assetRoute` passes to `TraversePostgres`. -/
def Config.traversalLimits (c : Config) (query : UrlValues) : ℤ × ℤ :=
  (boundedInt (query.get "maxDepth") 3 1 c.maxGraphDepth, boundedInt (query.get "maxNodes") 100 1 c.maxGraphNodes)

inductive AssetAnswer where
  | asset (row : AssetRow)
  | traversal (result : TraverseResult)

def selectAsset (id org : String) : Stmt Db Write Lock Reply (Option AssetRow) :=
  .select ⟨"SELECT canonical_name FROM assets", [id, org]⟩ fun db => (db.assets.get id).filter (·.organizationID = org)

/-- The answer to an error of `TraversePostgres`. -/
def traverseReply : TraverseError → Reply
  | .limitExceeded none => ⟨422, "graph_limit_exceeded", "graph traversal limit exceeded"⟩
  | .limitExceeded (some maxNodes) =>
    ⟨422, "graph_limit_exceeded", "graph traversal limit exceeded: maxNodes=" ++ toString maxNodes⟩
  | .noRows => ⟨404, "not_found", "asset not found"⟩
  | .required _ => ⟨500, "graph_failed", "graph query failed"⟩

/-- `assetRoute`, of a route that begins with `assets/`, for a principal of the
organization who may read assets. -/
def assetRoute (c : Config) (collation : Collation) (org route : String) (query : UrlValues) :
    Prog Db Write Lock Reply AssetAnswer :=
  match (route.toList.splitOn '/').map String.ofList with
  | [_, id] => do
    match ← exec (selectAsset id org) with
    | none => throw ⟨404, "not_found", "asset not found"⟩
    | some row => return .asset row
  | [_, id, kind] =>
    if kind = "dependencies" ∨ kind = "dependents" ∨ kind = "impact" ∨ kind = "relationships" then do
      let limits := c.traversalLimits query
      let result ← (traversePostgres collation org id limits.1 limits.2
        (kind = "dependents" ∨ kind = "impact")).mapError traverseReply
      return .traversal result
    else throw ⟨404, "not_found", "asset subresource not found"⟩
  | _ => throw ⟨404, "not_found", "asset subresource not found"⟩

end Infragraph
