import Mathlib.Data.Set.Card
import Infragraph.Spec.Docker

/-! `Discover` of `internal/connectors/kubernetes/kubernetes.go`: the resources that
the Kubernetes API lists page by page, as assets and relationships of a cluster. -/

namespace Infragraph.Kubernetes

/-- `Config`, with what bounds and names a discovery. -/
structure Config where
  clusterID : String
  clusterName : String
  pageSize : ℤ
  maxResources : ℤ

structure Connector where
  clusterID : String
  clusterName : String
  pageSize : ℕ
  maxResources : ℕ

def defaultPageSize : ℕ := 500

def defaultMaxResources : ℕ := 100000

/-- `NewWithConfig`, of a configuration whose URL, token and certificates it takes. -/
def newWithConfig (config : Config) : Connector where
  clusterID := trimSpace config.clusterID
  clusterName := trimSpace config.clusterName
  pageSize := if config.pageSize ≤ 0 ∨ 1000 < config.pageSize then defaultPageSize else config.pageSize.toNat
  maxResources :=
    if config.maxResources ≤ 0 ∨ defaultMaxResources < config.maxResources then defaultMaxResources
    else config.maxResources.toNat

/-- `item`, with the fields `Discover` reads; `rules` lists the services of the
paths, rule by rule. -/
structure Item where
  name : String
  namespaceName : String
  uid : String
  labels : GoMap String
  ownerUIDs : List String
  nodeName : String
  serviceName : String
  volumeName : String
  selector : Option Json
  defaultBackend : String
  rules : List (List String)

structure Resource where
  path : String
  kind : String
  type : String

def resources : List Resource :=
  [⟨"/api/v1/namespaces", "Namespace", "KUBERNETES_NAMESPACE"⟩, ⟨"/api/v1/nodes", "Node", "KUBERNETES_NODE"⟩,
    ⟨"/api/v1/pods", "Pod", "KUBERNETES_POD"⟩, ⟨"/api/v1/services", "Service", "SERVICE"⟩,
    ⟨"/apis/apps/v1/deployments", "Deployment", "KUBERNETES_WORKLOAD"⟩,
    ⟨"/apis/apps/v1/statefulsets", "StatefulSet", "KUBERNETES_WORKLOAD"⟩,
    ⟨"/apis/apps/v1/daemonsets", "DaemonSet", "KUBERNETES_WORKLOAD"⟩,
    ⟨"/apis/apps/v1/replicasets", "ReplicaSet", "KUBERNETES_WORKLOAD"⟩,
    ⟨"/apis/networking.k8s.io/v1/ingresses", "Ingress", "LOAD_BALANCER"⟩,
    ⟨"/api/v1/persistentvolumes", "PersistentVolume", "STORAGE"⟩,
    ⟨"/api/v1/persistentvolumeclaims", "PersistentVolumeClaim", "VOLUME"⟩]

structure Discovered where
  resource : Resource
  item : Item

structure Page where
  items : List Item
  continueToken : String

/-- What the API answers to the request for a page of a path, by its number and
continuation token. -/
abbrev Api := String → ℕ → String → Except Error Page

/-- The loop of `list`, with the number of pages it may still request. -/
def Connector.listPages (c : Connector) (api : Api) (path : String) (result : List Item) (page : ℕ)
    (continuation : String) : ℕ → Except Error (List Item)
  | 0 => .error (.errorf "Kubernetes pagination exceeded safe page limit" [])
  | n + 1 => do
    let listed ← api path page continuation
    let result := result ++ listed.items
    if c.maxResources < result.length then
      .error (.errorf "Kubernetes API %s exceeded resource limit %d" [path, toString c.maxResources])
    else if listed.continueToken = "" then .ok result
    else c.listPages api path result (page + 1) listed.continueToken n

def Connector.list (c : Connector) (api : Api) (path : String) : Except Error (List Item) :=
  c.listPages api path [] 0 "" (c.maxResources / c.pageSize + 2)

/-- The continuation tokens of the requests that the loop makes, in order. -/
def Connector.requestPages (c : Connector) (api : Api) (path : String) (result : List Item) (page : ℕ)
    (continuation : String) : ℕ → List String
  | 0 => []
  | n + 1 => continuation ::
    match api path page continuation with
    | .error _ => []
    | .ok listed =>
      let result := result ++ listed.items
      if c.maxResources < result.length then []
      else if listed.continueToken = "" then []
      else c.requestPages api path result (page + 1) listed.continueToken n

def Connector.requests (c : Connector) (api : Api) (path : String) : List String :=
  c.requestPages api path [] 0 "" (c.maxResources / c.pageSize + 2)

/-- What a request ends with: no answer, an answer that breaks off, or a status with
its line and a body. -/
inductive Fetched where
  | failed (message : String)
  | cut (message : String)
  | answered (code : ℕ) (status : String) (body : List UInt8)

def maxResponseBytes : ℕ := 10 * 2 ^ 20

/-- The part of the loop of `list` that reads an answer. `json.Unmarshal` into a
`list` is given by what it makes of a body. -/
def readPage (unmarshal : List UInt8 → Option Page) (path : String) : Fetched → Except Error Page
  | .failed message => .error (.errorf "Kubernetes API %s: %w" [path, message])
  | .cut message => .error (.errorf message [])
  | .answered code status body =>
    if maxResponseBytes < (body.take (maxResponseBytes + 1)).length then
      .error (.errorf "Kubernetes API %s response exceeds %d bytes" [path, toString maxResponseBytes])
    else if code ≠ 200 then .error (.errorf "Kubernetes API %s returned %s" [path, status])
    else
      match unmarshal body with
      | none => .error (.errorf "decode Kubernetes API %s: %w" [path])
      | some page => .ok page

/-- The API of a server that answers requests for a path by their number and token. -/
def httpApi (unmarshal : List UInt8 → Option Page) (server : String → ℕ → String → Fetched) : Api :=
  fun path page continuation => readPage unmarshal path (server path page continuation)

def Connector.collectItem (c : Connector) (r : Resource) (items : List Discovered) (value : Item) :
    Except Error (List Discovered) :=
  if value.uid = "" ∨ value.name = "" then
    .error (.errorf "Kubernetes API %s returned resource without name or UID" [r.path])
  else
    let items := items ++ [⟨r, value⟩]
    if c.maxResources < items.length then
      .error (.errorf "Kubernetes discovery exceeded resource limit %d" [toString c.maxResources])
    else .ok items

/-- The first loop of `Discover`. -/
def Connector.collect (c : Connector) (api : Api) : Except Error (List Discovered) :=
  resources.foldlM (fun items r => do
    let listed ← c.list api r.path
    listed.foldlM (c.collectItem r) items) []

def namespacedName (namespaceName kind name : String) : String :=
  namespaceName ++ "\x00" ++ kind ++ "\x00" ++ name

/-- The value that the last item with a key left in a map of UIDs; a missing key
gives the empty string. -/
def lastUID (items : List Discovered) (keyOf : Discovered → Option String) (key : String) : String :=
  items.foldl (fun uid v => if keyOf v = some key then v.item.uid else uid) ""

/-- `byNamespace`. -/
def byNamespace (items : List Discovered) : String → String :=
  lastUID items fun v => if v.resource.kind = "Namespace" then some v.item.name else none

/-- `byNode`. -/
def byNode (items : List Discovered) : String → String :=
  lastUID items fun v => if v.resource.kind = "Node" then some v.item.name else none

def Discovered.fullName (v : Discovered) : String :=
  namespacedName v.item.namespaceName v.resource.kind v.item.name

/-- `byName`. -/
def byName (items : List Discovered) : String → String := lastUID items fun v => some v.fullName

def clusterIdentity (c : Connector) (items : List Discovered) : String :=
  if c.clusterID = "" then
    match items.find? fun v => v.resource.kind = "Namespace" ∧ v.item.name = "kube-system" with
    | some v => v.item.uid
    | none => ""
  else c.clusterID

/-- A map with string values as `json.Unmarshal` reads it, before later keys
replace earlier ones. -/
def stringMap : Json → Option (List (String × String))
  | .null => some []
  | .obj entries => entries.mapM fun e =>
    match e.2 with
    | .str s => some (e.1, s)
    | .null => some (e.1, "")
    | _ => none
  | _ => none

def lastEntries (entries : List (String × String)) : List (String × String) :=
  entries.foldr (fun e later => if later.any (·.1 = e.1) then later else e :: later) []

/-- The field `matchLabels` of an object, found by its name up to case. -/
def matchLabels (entries : List (String × Json)) : Option (List (String × String)) :=
  entries.foldlM (fun m e =>
    if equalFold e.1 "matchLabels" then
      match e.2 with
      | .null => some []
      | value => (stringMap value).map (m ++ ·)
    else some m) []

def selectorLabels : Option Json → List (String × String)
  | none => []
  | some raw =>
    match stringMap raw with
    | some direct => lastEntries direct
    | none =>
      match raw with
      | .obj entries => lastEntries ((matchLabels entries).getD [])
      | _ => []

def labelsMatch (selector : List (String × String)) (labels : GoMap String) : Bool :=
  selector.all (fun e => (labels.get e.1).getD "" = e.2) && !selector.isEmpty

def ingressServices (value : Item) : List String :=
  (value.defaultBackend :: value.rules.flatten).foldl
    (fun out name => if name ≠ "" ∧ name ∉ out then out ++ [name] else out) []

def presentFields (fields : List (String × Option Json)) (h : (fields.map Prod.fst).Nodup) : GoMap Json where
  entries := fields.filterMap fun f => f.2.map (Prod.mk f.1)
  nodup := by
    have hsub : ((fields.filterMap fun f => f.2.map (Prod.mk f.1)).map Prod.fst).Sublist (fields.map Prod.fst) := by
      clear h
      induction fields with
      | nil => simp
      | cons f fields ih =>
        obtain ⟨k, o⟩ := f
        cases o with
        | none => simpa using ih.trans (List.sublist_cons_self _ _)
        | some v => simpa using ih
    exact hsub.nodup h

def nonEmpty (s : String) : Option Json := if s = "" then none else some (.str s)

def textMap (entries : List (String × String)) : Option Json :=
  if entries = [] then none else some (.obj (entries.map fun e => (e.1, .str e.2)))

def Discovered.attributes (v : Discovered) : GoMap Json :=
  presentFields [("name", some (.str v.item.name)), ("kind", some (.str v.resource.kind)),
    ("namespace", nonEmpty v.item.namespaceName), ("labels", textMap v.item.labels.entries),
    ("nodeName", nonEmpty v.item.nodeName), ("selector", textMap (selectorLabels v.item.selector)),
    ("serviceName", nonEmpty v.item.serviceName), ("volumeName", nonEmpty v.item.volumeName)] (by simp)

def Discovered.observation (now : Time) (v : Discovered) : Observation :=
  { externalID := v.item.uid, assetType := v.resource.type, observedAt := now, attributes := v.attributes
    identityHints := .single "kubernetes_uid" (.str v.item.uid) }

def clusterObservation (now : Time) (c : Connector) (identity : String) : Observation :=
  { externalID := "cluster:" ++ identity, assetType := "KUBERNETES_CLUSTER", observedAt := now
    attributes := .single "name" (.str (if c.clusterName = "" then identity else c.clusterName))
    identityHints := .single "kubernetes_cluster_id" (.str identity) }

/-- What contains the item: its namespace if that is listed, else the cluster. -/
def parent (items : List Discovered) (cluster : String) (v : Discovered) : String :=
  if v.item.namespaceName ≠ "" ∧ byNamespace items v.item.namespaceName ≠ "" then
    byNamespace items v.item.namespaceName
  else cluster

def relationTo (now : Time) (uid target type : String) : List RelationshipObservation :=
  if target ≠ "" then [relation uid target type now] else []

def Discovered.relations (now : Time) (items : List Discovered) (cluster : String) (v : Discovered) :
    List RelationshipObservation :=
  let assetIDs := cluster :: items.map (·.item.uid)
  let pods := items.filter (·.resource.kind = "Pod")
  let selector := selectorLabels v.item.selector
  [relation (parent items cluster v) v.item.uid "CONTAINS" now] ++
    (v.item.ownerUIDs.filter (assetIDs.contains ·)).map (fun owner => relation v.item.uid owner "MANAGED_BY" now) ++
    relationTo now v.item.uid (byNode items v.item.nodeName) "RUNS_ON" ++
    (if v.item.serviceName ≠ "" then
      relationTo now v.item.uid (byName items (namespacedName v.item.namespaceName "Service" v.item.serviceName))
        "USES_SERVICE"
    else []) ++
    (if v.item.volumeName ≠ "" then
      relationTo now v.item.uid (byName items (namespacedName "" "PersistentVolume" v.item.volumeName)) "BOUND_TO"
    else []) ++
    (if v.resource.kind = "Service" ∧ selector ≠ [] then
      (pods.filter fun pod => pod.item.namespaceName = v.item.namespaceName ∧
        labelsMatch selector pod.item.labels).map fun pod => relation v.item.uid pod.item.uid "ROUTES_TO" now
    else []) ++
    if v.resource.kind = "Ingress" then
      (ingressServices v.item).flatMap fun name =>
        relationTo now v.item.uid (byName items (namespacedName v.item.namespaceName "Service" name)) "ROUTES_TO"
    else []

/-- The rest of `Discover`, for the collected items. -/
def describe (c : Connector) (now : Time) (items : List Discovered) : Except Error Discovery :=
  let identity := clusterIdentity c items
  if identity = "" then
    .error (.errorf ("cannot determine cluster identity: set INFRAGRAPH_KUBERNETES_CLUSTER_ID " ++
      "or allow kube-system namespace listing") [])
  else
    let cluster := "cluster:" ++ identity
    .ok { assets := clusterObservation now c identity :: items.map (Discovered.observation now)
          relationships := items.flatMap (Discovered.relations now items cluster)
          nilAssets := false, nilRelationships := false }

def Connector.discover (c : Connector) (api : Api) (now : Time) : Except Error Discovery := do
  let items ← c.collect api
  describe c now items

/-- The links between the listed resources and the cluster. -/
inductive Link (items : List Discovered) (cluster : String) : String → String → String → Prop
  | contains {v} : v ∈ items → Link items cluster (parent items cluster v) v.item.uid "CONTAINS"
  | managedBy {v owner} : v ∈ items → owner ∈ v.item.ownerUIDs →
      (owner = cluster ∨ ∃ w ∈ items, w.item.uid = owner) → Link items cluster v.item.uid owner "MANAGED_BY"
  | runsOn {v node} : v ∈ items → byNode items v.item.nodeName = node → node ≠ "" →
      Link items cluster v.item.uid node "RUNS_ON"
  | usesService {v service} : v ∈ items → v.item.serviceName ≠ "" →
      byName items (namespacedName v.item.namespaceName "Service" v.item.serviceName) = service → service ≠ "" →
      Link items cluster v.item.uid service "USES_SERVICE"
  | boundTo {v volume} : v ∈ items → v.item.volumeName ≠ "" →
      byName items (namespacedName "" "PersistentVolume" v.item.volumeName) = volume → volume ≠ "" →
      Link items cluster v.item.uid volume "BOUND_TO"
  | selects {v pod} : v ∈ items → v.resource.kind = "Service" → pod ∈ items → pod.resource.kind = "Pod" →
      pod.item.namespaceName = v.item.namespaceName →
      labelsMatch (selectorLabels v.item.selector) pod.item.labels = true →
      Link items cluster v.item.uid pod.item.uid "ROUTES_TO"
  | routes {v name service} : v ∈ items → v.resource.kind = "Ingress" → name ∈ ingressServices v.item →
      byName items (namespacedName v.item.namespaceName "Service" name) = service → service ≠ "" →
      Link items cluster v.item.uid service "ROUTES_TO"

/-- The UIDs tell the resources apart, and the owners of each. -/
structure Distinct (items : List Discovered) (cluster : String) : Prop where
  uids : (items.map (·.item.uid)).Nodup
  bytes : ∀ v ∈ items, byteLen v.item.uid ≤ 1000
  cluster : ∀ v ∈ items, v.item.uid ≠ cluster
  owners : ∀ v ∈ items, v.item.ownerUIDs.Nodup

/-- The listing leaves room for the cluster itself, has at most 250000 links, its
identity fits into an external ID, and no two links of a type look alike for a NUL
in a UID. -/
structure Fits (items : List Discovered) (identity : String) : Prop where
  assets : items.length < 100000
  links : {l : String × String × String | Link items ("cluster:" ++ identity) l.1 l.2.1 l.2.2}.ncard ≤ 250000
  name : byteLen identity ≤ 1016
  apart : ∀ a b a' b' t, Link items ("cluster:" ++ identity) a b t → Link items ("cluster:" ++ identity) a' b' t →
    a ++ "\x00" ++ b = a' ++ "\x00" ++ b' → a = a' ∧ b = b'

end Infragraph.Kubernetes
