import Infragraph.Spec.Collector

/-! `Discover` of `internal/connectors/docker/docker.go`: the containers that the
Docker API lists, as assets and relationships. Assets are added once per ID,
relationships as they come. -/

namespace Infragraph

/-- `relation` of the connectors. -/
def relation (a b t : String) (now : Time) : RelationshipObservation :=
  { externalFromID := a, externalToID := b, type := t, observedAt := now
    attributes := .empty }

namespace Docker

structure Mount where
  name : String
  type : String

/-- `item`, with the fields `Discover` reads. -/
structure Container where
  id : String
  names : List String
  image : String
  imageID : String
  labels : GoMap String
  networks : GoMap Json
  mounts : List Mount

/-- `path.Base`. -/
def pathBase (path : String) : String :=
  if path = "" then "." else
    let base := ((path.toList.reverse.dropWhile (· = '/')).takeWhile (· ≠ '/')).reverse
    if base = [] then "/" else String.ofList base

def first (v : List String) : String :=
  match v.find? (· ≠ "") with
  | some s => pathBase s
  | none => ""

/-- `strings.TrimPrefix(first(v.Names), "/")`. -/
def Container.name (v : Container) : String :=
  match (first v.names).toList with
  | '/' :: rest => String.ofList rest
  | rest => String.ofList rest

/-- The map `byName`; a missing key gives the empty string. -/
def byName (containers : List Container) : String → String :=
  containers.foldl (fun m v => Function.update m v.name v.id) fun _ => ""

structure Found where
  assets : List Observation
  rels : List RelationshipObservation
  seen : List String

def Found.add (now : Time) (id t name : String) (hints : GoMap Json) (s : Found) : Found :=
  if s.seen.contains id then s
  else
    { s with
      seen := id :: s.seen
      assets := s.assets ++
        [{ externalID := id, assetType := t, observedAt := now, attributes := .single "name" (.str name)
           identityHints := hints }] }

def Found.relate (now : Time) (a b t : String) (s : Found) : Found :=
  { s with rels := s.rels ++ [relation a b t now] }

def discoverNetwork (now : Time) (v : Container) (s : Found) (n : String) : Found :=
  let id := "network:" ++ n
  (s.add now id "NETWORK" n .nil).relate now v.id id "CONNECTED_TO"

def discoverMount (now : Time) (v : Container) (s : Found) (m : Mount) : Found :=
  if m.type = "volume" ∧ m.name ≠ "" then
    let id := "volume:" ++ m.name
    (s.add now id "VOLUME" m.name .nil).relate now v.id id "USES_VOLUME"
  else s

def Container.dependency (v : Container) (containers : List Container) : String :=
  byName containers ((v.labels.get "com.infragraph.depends-on").getD "")

def discoverContainer (now : Time) (containers : List Container) (s : Found) (v : Container) : Found :=
  let s := s.add now v.id "CONTAINER" v.name (.single "docker_container_id" (.str v.id))
  let s := s.add now v.imageID "CONTAINER_IMAGE" v.image (.single "docker_image_id" (.str v.imageID))
  let s := (s.relate now v.id "docker-host" "RUNS_ON").relate now v.id v.imageID "USES_IMAGE"
  let s := (v.networks.entries.map Prod.fst).foldl (discoverNetwork now v) s
  let s := v.mounts.foldl (discoverMount now v) s
  let target := v.dependency containers
  if target ≠ "" then s.relate now v.id target "CONNECTED_TO" else s

def hostFound (now : Time) : Found where
  assets := [{ externalID := "docker-host", assetType := "PHYSICAL_HOST", observedAt := now
               attributes := .single "name" (.str "Docker Host")
               identityHints := .empty }]
  rels := []
  seen := ["docker-host"]

/-- `Discover`, of the list that the API returned. -/
def discover (now : Time) (containers : List Container) : Discovery :=
  let found := containers.foldl (discoverContainer now containers) (hostFound now)
  { assets := found.assets, relationships := found.rels, nilAssets := false, nilRelationships := false }

def Container.networkNames (v : Container) : List String := v.networks.entries.map Prod.fst

/-- The named volumes among the mounts, once for every mount. -/
def Container.volumes (v : Container) : List String :=
  (v.mounts.filter fun m => m.type = "volume" ∧ m.name ≠ "").map (·.name)

/-- What the container is related to, and how. -/
def Container.links (v : Container) (containers : List Container) : List (String × String) :=
  [("docker-host", "RUNS_ON"), (v.imageID, "USES_IMAGE")] ++
    v.networkNames.map (fun n => ("network:" ++ n, "CONNECTED_TO")) ++
    v.volumes.map (fun n => ("volume:" ++ n, "USES_VOLUME")) ++
    if v.dependency containers ≠ "" then [(v.dependency containers, "CONNECTED_TO")] else []

/-- Every container is related to each thing once: no named volume is mounted
twice, no dependency has the ID of one of the container's networks, and no two
containers have links that a NUL in an ID makes look alike. -/
structure LinkedOnce (containers : List Container) : Prop where
  volumes : ∀ v ∈ containers, v.volumes.Nodup
  dependency : ∀ v ∈ containers, ∀ n ∈ v.networkNames, v.dependency containers ≠ "network:" ++ n
  apart : ∀ v ∈ containers, ∀ w ∈ containers, v.id ≠ w.id → ∀ a b t, (a, t) ∈ v.links containers →
    (b, t) ∈ w.links containers → v.id ++ "\x00" ++ a ≠ w.id ++ "\x00" ++ b

/-- The IDs are there, and with the names they are at most 1000 bytes long. -/
structure Container.Named (v : Container) : Prop where
  id : v.id ≠ "" ∧ byteLen v.id ≤ 1000
  imageID : v.imageID ≠ "" ∧ byteLen v.imageID ≤ 1000
  networks : ∀ n ∈ v.networkNames, byteLen n ≤ 1000
  volumes : ∀ n ∈ v.volumes, byteLen n ≤ 1000

end Docker

end Infragraph
