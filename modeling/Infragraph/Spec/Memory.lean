import Infragraph.Lib.Dict
import Infragraph.Spec.Database
import Infragraph.Spec.Signature

/-! The in-memory engine of `internal/reconcile/reconcile.go`: `Effective` and
`Apply` over a `State` of seven maps. The order in which `range` visits the keys
of a map belongs to the call. -/

namespace Infragraph

def RelationshipStatus.text : RelationshipStatus → String
  | active => "ACTIVE"
  | removed => "REMOVED"

namespace Memory

/-- `Policy`: an authority by connector and attribute. -/
structure Policy where
  attributeAuthority : GoMap (GoMap String)
  missingAfterSuccessfulRuns : ℤ

/-- `policy.AttributeAuthority[connector][attribute]`: no entry reads as "". -/
def Policy.authority (p : Policy) (connector attributeKey : String) : String :=
  ((p.attributeAuthority.get connector).bind fun m => m.get attributeKey).getD ""

/-- The threshold `Apply` uses. -/
def Policy.threshold (p : Policy) : ℤ :=
  if p.missingAfterSuccessfulRuns < 1 then 1 else p.missingAfterSuccessfulRuns

/-- `domain.Asset`, without the fields the engine leaves empty. -/
structure Asset where
  id : String
  organizationID : String
  canonicalName : String
  displayName : String
  type : String
  status : AssetStatus
  firstSeenAt : Time
  lastSeenAt : Time
  createdAt : Time
  updatedAt : Time
deriving DecidableEq

/-- What a lookup without an entry returns. The empty status stands as unknown. -/
def Asset.zero : Asset := ⟨"", "", "", "", "", .unknown, 0, 0, 0, 0⟩

structure Relationship where
  id : String
  organizationID : String
  fromAssetID : String
  toAssetID : String
  type : String
  status : RelationshipStatus
  firstSeenAt : Time
  lastSeenAt : Time
  createdAt : Time
  updatedAt : Time
deriving DecidableEq

structure AttributeClaim where
  assetID : String
  attributeKey : String
  value : Json
  connectorID : String
  snapshotID : String
  observedAt : Time
  authority : String
  confidence : String
  active : Bool

/-- `domain.Change`, with the values before and after marshalled. -/
structure Change where
  id : String
  organizationID : String
  assetID : String
  type : String
  beforeValue : List Char
  afterValue : List Char
  source : String
  detectedAt : Time
  summary : String
  confidence : String
  logicalKey : String

structure State where
  assets : Dict String Asset
  externalToAsset : Dict String String
  claims : Dict String (List AttributeClaim)
  relationships : Dict String Relationship
  changes : Dict String Change
  successfulAbsences : Dict String ℕ
  processedSnapshots : Dict String String

def newState : State := ⟨∅, ∅, ∅, ∅, ∅, ∅, ∅⟩

def Asset.toGo (a : Asset) : GoValue :=
  .struct [("ID", .str a.id), ("OrganizationID", .str a.organizationID),
    ("CanonicalName", .str a.canonicalName), ("DisplayName", .str a.displayName), ("Type", .str a.type),
    ("Status", .str a.status.text), ("Environment", .str ""), ("SiteID", .str ""), ("OwnerID", .str ""),
    ("Criticality", .str ""), ("FirstSeenAt", goTime a.firstSeenAt), ("LastSeenAt", goTime a.lastSeenAt),
    ("CreatedAt", goTime a.createdAt), ("UpdatedAt", goTime a.updatedAt), ("RetiredAt", .null)]

def Relationship.toGo (r : Relationship) : GoValue :=
  .struct [("ID", .str r.id), ("OrganizationID", .str r.organizationID), ("FromAssetID", .str r.fromAssetID),
    ("ToAssetID", .str r.toAssetID), ("Type", .str r.type), ("Status", .str r.status.text),
    ("FirstSeenAt", goTime r.firstSeenAt), ("LastSeenAt", goTime r.lastSeenAt),
    ("CreatedAt", goTime r.createdAt), ("UpdatedAt", goTime r.updatedAt)]

/-- `unicode.ToLower`, where its result is ASCII. -/
def lower (c : Char) : Char :=
  if c.toNat = 0x130 then 'i' else if c.toNat = 0x212A then 'k' else c.toLower

def kept (c : Char) : Bool := 'a' ≤ c ∧ c ≤ 'z' ∨ '0' ≤ c ∧ c ≤ '9' ∨ c = '-'

def safe (v : String) : String :=
  let runes := v.toList.map fun c => if kept (lower c) then lower c else '-'
  String.ofList ((runes.dropWhile (· = '-')).reverse.dropWhile (· = '-')).reverse

def name (o : Observation) : String :=
  match (["name", "hostname", "display_name"].map (hintText o.attributes)).find?
      (fun v => v ≠ "" ∧ v ≠ "<nil>") with
  | some v => v
  | none => o.externalID

def rank (authority : String) : ℕ :=
  if authority = "AUTHORITATIVE" then 3 else if authority = "OBSERVED" then 2 else 1

/-- The comparison `Effective` sorts by. -/
def Policy.less (p : Policy) (attributeKey : String) (a b : AttributeClaim) : Prop :=
  let ai := rank (p.authority a.connectorID attributeKey)
  let aj := rank (p.authority b.connectorID attributeKey)
  if ai ≠ aj then aj < ai else b.observedAt < a.observedAt

instance (p : Policy) (attributeKey : String) (a b : AttributeClaim) : Decidable (p.less attributeKey a b) :=
  inferInstanceAs (Decidable (if _ ≠ _ then _ < _ else _ < _))

structure EffectiveAttribute where
  value : Json := .null
  conflict : Bool := false
  reason : String
  claims : List AttributeClaim := []

/-- The active claims of an attribute, in a stable sort. -/
def activeClaims (claims : List AttributeClaim) (attributeKey : String) (policy : Policy) : List AttributeClaim :=
  (claims.filter fun c => c.active ∧ c.attributeKey = attributeKey).insertionSort
    fun a b => ¬ policy.less attributeKey b a

def distinct (claims : List AttributeClaim) : List (List Char) := (claims.map fun c => c.value.toGo.marshal).dedup

def effective (claims : List AttributeClaim) (attributeKey : String) (policy : Policy) : EffectiveAttribute :=
  match activeClaims claims attributeKey policy with
  | [] => { reason := "no active claims" }
  | c :: cs =>
    { value := c.value, conflict := 1 < (distinct (c :: cs)).length
      reason := if (distinct (c :: cs)).length = 1 ∧ 1 < (c :: cs).length then "multiple active sources agree"
        else "most recent claim at highest configured authority"
      claims := c :: cs }

structure Work where
  state : State
  summary : Summary

def Work.setAbsences (w : Work) (key : String) (n : ℕ) : Work :=
  { w with state := { w.state with successfulAbsences := w.state.successfulAbsences.set key n } }

/-- What begins the keys of an organization and connector. -/
def scope (s : SnapshotEnvelope) : String := s.organizationID ++ "|" ++ s.connectorID ++ "|"

def changeKey (s : SnapshotEnvelope) (assetID typ : String) : String :=
  s.snapshotID ++ "|" ++ assetID ++ "|" ++ typ

def changeOf (s : SnapshotEnvelope) (assetID typ : String) (before after : GoValue) (reason : String) : Change :=
  { id := "change-" ++ safe (changeKey s assetID typ), organizationID := s.organizationID, assetID := assetID
    type := typ, beforeValue := before.marshal, afterValue := after.marshal, source := s.connectorID
    detectedAt := s.completedAt, summary := reason, confidence := "DETERMINISTIC"
    logicalKey := changeKey s assetID typ }

def addChange (w : Work) (s : SnapshotEnvelope) (assetID typ : String) (before after : GoValue)
    (reason : String) : Work :=
  match w.state.changes.find (changeKey s assetID typ) with
  | some _ => w
  | none =>
    let change := changeOf s assetID typ before after reason
    { state := { w.state with changes := w.state.changes.set (changeKey s assetID typ) change }
      summary := { w.summary with changes := w.summary.changes + 1 } }

def State.claimsAt (st : State) (ck : String) : List AttributeClaim := (st.claims.find ck).getD []

def deactivate (connectorID : String) (c : AttributeClaim) : AttributeClaim :=
  if c.connectorID = connectorID then { c with active := false } else c

/-- The list with a new claim, after which the connector's older ones are inactive. -/
def claimed (cs : List AttributeClaim) (c : AttributeClaim) : List AttributeClaim :=
  cs.map (deactivate c.connectorID) ++ [c]

def claimOf (policy : Policy) (s : SnapshotEnvelope) (o : Observation) (assetID : String) (e : String × Json) :
    AttributeClaim :=
  { assetID := assetID, attributeKey := e.1, value := e.2, connectorID := s.connectorID
    snapshotID := s.snapshotID, observedAt := o.observedAt, authority := policy.authority s.connectorID e.1
    confidence := "OBSERVED", active := true }

/-- The body of the attribute loop. -/
def claimAttribute (policy : Policy) (s : SnapshotEnvelope) (o : Observation) (assetID : String) (w : Work)
    (e : String × Json) : Work :=
  let ck := assetID ++ "|" ++ e.1
  let claims := claimed (w.state.claimsAt ck) (claimOf policy s o assetID e)
  let st := { w.state with claims := w.state.claims.set ck claims }
  let eff := effective claims e.1 policy
  if eff.conflict then
    let a := { (st.assets.find assetID).getD .zero with status := .conflicting }
    addChange
      { state := { st with assets := st.assets.set assetID a }
        summary := { w.summary with conflicting := w.summary.conflicting + 1 } }
      s assetID "SOURCE_CONFLICT" .null eff.value.toGo "source claims conflict"
  else { w with state := st }

def State.assetOf (st : State) (key : String) : String := (st.externalToAsset.find key).getD ""

def discover (s : SnapshotEnvelope) (now : Time) (o : Observation) (w : Work) : Work :=
  let assetID := "asset-" ++ safe o.externalID
  let a : Asset :=
    { id := assetID, organizationID := s.organizationID, canonicalName := name o, displayName := name o
      type := o.assetType, status := .active, firstSeenAt := now, lastSeenAt := now, createdAt := now
      updatedAt := now }
  addChange
    { state := { w.state with externalToAsset := w.state.externalToAsset.set (scope s ++ o.externalID) assetID
                              assets := w.state.assets.set assetID a }
      summary := { w.summary with created := w.summary.created + 1 } }
    s assetID "ASSET_DISCOVERED" .null a.toGo "asset discovered"

def touch (s : SnapshotEnvelope) (now : Time) (assetID : String) (w : Work) : Work :=
  let a := (w.state.assets.find assetID).getD .zero
  let seen := { a with lastSeenAt := now, updatedAt := now, status := .active }
  let st := { w.state with assets := w.state.assets.set assetID seen }
  if a.status = .missing then
    let w := addChange { w with state := st } s assetID "ASSET_RETURNED" (.str a.status.text)
      (.str AssetStatus.active.text) "asset returned"
    { w with summary := { w.summary with updated := w.summary.updated + 1 } }
  else { state := st, summary := { w.summary with unchanged := w.summary.unchanged + 1 } }

/-- The body of the asset loop. -/
def observe (policy : Policy) (s : SnapshotEnvelope) (now : Time) (w : Work) (o : Observation) : Work :=
  let key := scope s ++ o.externalID
  let known := w.state.assetOf key
  let assetID := if known = "" then "asset-" ++ safe o.externalID else known
  let w := if known = "" then discover s now o w else touch s now known w
  o.attributes.entries.foldl (claimAttribute policy s o assetID) (w.setAbsences key 0)

/-- The key of an observed relationship whose ends are both known. -/
def relationshipKey (s : SnapshotEnvelope) (st : State) (r : RelationshipObservation) : Option String :=
  let source := st.assetOf (scope s ++ r.externalFromID)
  let target := st.assetOf (scope s ++ r.externalToID)
  if source = "" ∨ target = "" then none else some (scope s ++ source ++ "|" ++ target ++ "|" ++ r.type)

/-- The body of the relationship loop. -/
def relate (s : SnapshotEnvelope) (now : Time) (w : Work) (r : RelationshipObservation) : Work :=
  let source := w.state.assetOf (scope s ++ r.externalFromID)
  let target := w.state.assetOf (scope s ++ r.externalToID)
  match relationshipKey s w.state r with
  | none => w
  | some key =>
    match w.state.relationships.find key with
    | none =>
      let relationship : Relationship :=
        { id := "relationship-" ++ safe key, organizationID := s.organizationID, fromAssetID := source
          toAssetID := target, type := r.type, status := .active, firstSeenAt := now, lastSeenAt := now
          createdAt := now, updatedAt := now }
      addChange
        { state := { w.state with relationships := w.state.relationships.set key relationship }
          summary := { w.summary with relationshipsCreated := w.summary.relationshipsCreated + 1 } }
        s source "RELATIONSHIP_ADDED" .null relationship.toGo "observed relationship added"
    | some relationship =>
      let relationship := { relationship with status := .active, lastSeenAt := now, updatedAt := now }
      { w with state := { w.state with relationships := w.state.relationships.set key relationship } }

def hasPrefix (v pre : String) : Bool := pre.toList.isPrefixOf v.toList

/-- The body of the loop over all relationships. -/
def removeAbsent (s : SnapshotEnvelope) (now : Time) (seen : List String) (w : Work) (key : String) : Work :=
  match w.state.relationships.find key with
  | none => w
  | some relationship =>
    if ¬ hasPrefix key (scope s) ∨ key ∈ seen ∨ relationship.status ≠ .active then w
    else
      let removed := { relationship with status := .removed, updatedAt := now }
      addChange
        { state := { w.state with relationships := w.state.relationships.set key removed }
          summary := { w.summary with relationshipsRemoved := w.summary.relationshipsRemoved + 1 } }
        s relationship.fromAssetID "RELATIONSHIP_REMOVED" (.str relationship.status.text)
        (.str RelationshipStatus.removed.text) "absent from a successful source snapshot"

def missAsset (s : SnapshotEnvelope) (now : Time) (id : String) (w : Work) : Work :=
  let a := (w.state.assets.find id).getD .zero
  if a.status ≠ .missing ∧ a.status ≠ .retired then
    addChange
      { state := { w.state with assets := w.state.assets.set id { a with status := .missing, updatedAt := now } }
        summary := { w.summary with missing := w.summary.missing + 1 } }
      s id "ASSET_MISSING" (.str a.status.text) (.str AssetStatus.missing.text)
      "absent from sufficient successful snapshots"
  else w

/-- The body of the loop over all external IDs. -/
def countAbsence (policy : Policy) (s : SnapshotEnvelope) (now : Time) (seen : List String) (w : Work)
    (key : String) : Work :=
  if ¬ hasPrefix key (scope s) ∨ key ∈ seen then w
  else
    let absences := (w.state.successfulAbsences.find key).getD 0 + 1
    let w := w.setAbsences key absences
    if policy.threshold ≤ absences then missAsset s now (w.state.assetOf key) w else w

/-- The orders in which one call ranges over `Relationships` and `ExternalToAsset`. -/
structure RangeOrder where
  relationships : Iteration String
  externals : Iteration String

def RangeOrder.ascending : RangeOrder := ⟨.ascending, .ascending⟩

def reconcile (policy : Policy) (s : SnapshotEnvelope) (now : Time) (order : RangeOrder) (st : State) : Work :=
  let w := s.assets.foldl (observe policy s now) ⟨st, {}⟩
  -- the relationship loop leaves ExternalToAsset as it is, so it marks these keys seen
  let seen := s.relationships.filterMap (relationshipKey s w.state)
  let w := s.relationships.foldl (relate s now) w
  let w := (order.relationships.list w.state.relationships.keys).foldl (removeAbsent s now seen) w
  (order.externals.list w.state.externalToAsset.keys).foldl
    (countAbsence policy s now (s.assets.map fun o => scope s ++ o.externalID)) w

def State.process (st : State) (s : SnapshotEnvelope) : State :=
  { st with processedSnapshots := st.processedSnapshots.set s.snapshotID s.contentHash }

inductive ApplyError where
  /-- "snapshot ID reused with different content hash" -/
  | snapshotReused
deriving DecidableEq

def apply (st : State) (s : SnapshotEnvelope) (status : SnapshotStatus) (policy : Policy) (order : RangeOrder)
    (clock : Time) : Except ApplyError (Summary × State) :=
  match st.processedSnapshots.find s.snapshotID with
  | some prior => if prior = s.contentHash then .ok ({}, st) else .error .snapshotReused
  | none =>
    if status ≠ .succeeded then .ok ({}, st.process s)
    else
      let w := reconcile policy s (orNow s.completedAt clock) order st
      .ok (w.summary, w.state.process s)

/-- A call of `Apply`, with the orders and the clock of its execution. -/
structure Call where
  snapshot : SnapshotEnvelope
  status : SnapshotStatus
  policy : Policy
  order : RangeOrder
  clock : Time

def Call.run (c : Call) (st : State) : Except ApplyError (Summary × State) :=
  apply st c.snapshot c.status c.policy c.order c.clock

/-- The state after the call; a call that fails changes nothing. -/
def Call.after (c : Call) (st : State) : State :=
  match c.run st with
  | .ok (_, st') => st'
  | .error _ => st

/-- The state that calls reach from `NewState`. -/
def run (calls : List Call) : State := calls.foldl (fun st c => c.after st) newState

end Memory

end Infragraph
