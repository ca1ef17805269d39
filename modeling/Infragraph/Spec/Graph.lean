import Infragraph.Lib.Levels
import Infragraph.Spec.Database

/-! The two traversal engines of `internal/graph`: `Service.Traverse` walks a list
of relationships, `TraversePostgres` asks the database level by level and reads
the relationships between the nodes it found at the end. -/

namespace Infragraph

open Relational ReadCommitted Prog Levels

/-- `Result`; neither engine sets `Truncated`. -/
structure TraverseResult where
  nodes : List String
  relationships : List RelationshipRow
  depth : ℕ

/-- An error that is `ErrLimitExceeded` may name the node limit. -/
inductive TraverseError where
  | required (message : String)
  | limitExceeded (maxNodes : Option ℤ)
  | noRows
deriving DecidableEq

/-- `Limits`, for a traversal that does not time out. -/
structure Limits where
  maxDepth : ℤ
  maxNodes : ℤ

def RelationshipRow.live (org : String) (e : RelationshipRow) : Bool :=
  e.organizationID = org && e.status = .active

/-- The end a traversal comes from, and the end it goes to. -/
def RelationshipRow.source (reverse : Bool) (e : RelationshipRow) : String :=
  if reverse then e.toAssetID else e.fromAssetID

def RelationshipRow.target (reverse : Bool) (e : RelationshipRow) : String :=
  if reverse then e.fromAssetID else e.toAssetID

structure Walk where
  seen : List String
  frontier : List String
  next : List String := []
  nodes : List String
  relationships : List RelationshipRow := []
  depth : ℕ := 0

/-- The relationship leaves a frontier node: it is collected, and its target is
new, known, or one too many. -/
def Walk.follow (maxNodes : ℤ) (reverse : Bool) (w : Walk) (e : RelationshipRow) : Except TraverseError Walk :=
  let target := e.target reverse
  let w := { w with relationships := w.relationships ++ [e] }
  if target ∈ w.seen then .ok w
  else if maxNodes ≤ w.seen.length then .error (.limitExceeded (some maxNodes))
  else .ok { w with seen := target :: w.seen, nodes := w.nodes ++ [target], next := w.next ++ [target] }

/-- The body of the loop over the relationships, for one frontier node. -/
def Walk.visit (org : String) (maxNodes : ℤ) (reverse : Bool) (id : String) (w : Walk)
    (e : RelationshipRow) : Except TraverseError Walk :=
  if e.organizationID ≠ org ∨ e.status ≠ .active then .ok w
  else if e.source reverse ≠ id then .ok w
  else w.follow maxNodes reverse e

def Walk.turn (org : String) (maxNodes : ℤ) (reverse : Bool) (edges : List RelationshipRow) (d : ℕ)
    (w : Walk) : Except TraverseError Walk := do
  let w ← w.frontier.foldlM (fun w id => edges.foldlM (Walk.visit org maxNodes reverse id) w)
    { w with next := [] }
  return { w with frontier := w.next, depth := d }

/-- The outer loop, with the turns that the depth still allows; `d` is the next turn. -/
def Walk.turns (org : String) (maxNodes : ℤ) (reverse : Bool) (edges : List RelationshipRow) :
    ℕ → ℕ → Walk → Except TraverseError Walk
  | 0, _, w => .ok w
  | n + 1, d, w =>
    if w.frontier = [] then .ok w
    else do
      let w ← w.turn org maxNodes reverse edges d
      w.turns org maxNodes reverse edges n (d + 1)

def Limits.traverse (limits : Limits) (org start : String) (depth nodes : ℤ) (reverse : Bool)
    (edges : List RelationshipRow) : Except TraverseError TraverseResult := do
  if org = "" ∨ start = "" then throw (.required "organization and start asset are required")
  if depth < 1 ∨ limits.maxDepth < depth ∨ nodes < 1 ∨ limits.maxNodes < nodes then
    throw (.limitExceeded none)
  let w ← Walk.turns org nodes reverse edges depth.toNat 1
    { seen := [start], frontier := [start], nodes := [start] }
  return { nodes := w.nodes, relationships := w.relationships, depth := w.depth }

abbrev Collation := String → String → Bool

abbrev Query (β : Type) := Stmt Db Write Lock TraverseError β

def selectAssetExists (id org : String) : Query Bool :=
  .select ⟨"SELECT EXISTS FROM assets", [id, org]⟩
    fun db => (db.assets.get id).any fun a => a.organizationID = org

def selectTargets (collation : Collation) (org : String) (frontier visited : List String) (reverse : Bool)
    (limit : ℕ) : Query (List String) :=
  .select ⟨"SELECT DISTINCT target FROM asset_relationships", org :: frontier⟩
    fun db =>
      let rows := db.relationships.rows.filter fun e =>
        e.live org && e.source reverse ∈ frontier && !decide (e.target reverse ∈ visited)
      (((rows.map (·.target reverse)).dedup).mergeSort collation).take limit

def selectInduced (collation : Collation) (org : String) (nodes : List String) : Query (List RelationshipRow) :=
  .select ⟨"SELECT id FROM asset_relationships", org :: nodes⟩
    fun db => (db.relationships.rows.filter fun e =>
      e.live org && e.fromAssetID ∈ nodes && e.toAssetID ∈ nodes).mergeSort fun a b => collation a.id b.id

structure Expansion where
  seen : List String
  frontier : List String
  nodes : List String
  depth : ℕ := 0

/-- The rows of one level that were not seen, appended to `next`. -/
def Expansion.scan (seen : List String) (rows : List String) : List String × List String :=
  rows.foldl (fun st node => if node ∈ st.1 then st else (node :: st.1, st.2 ++ [node])) (seen, [])

def Expansion.turn (collation : Collation) (org : String) (maxNodes : ℤ) (reverse : Bool) (level : ℕ)
    (f : Expansion) : Prog Db Write Lock TraverseError Expansion := do
  let remaining := maxNodes - f.nodes.length
  let rows ← exec (selectTargets collation org f.frontier f.nodes reverse (remaining + 1).toNat)
  let scanned := Expansion.scan f.seen rows
  let next := scanned.2
  failIf (remaining < next.length) (.limitExceeded (some maxNodes))
  return { seen := scanned.1, frontier := next
           nodes := if 0 < next.length then f.nodes ++ next else f.nodes
           depth := if 0 < next.length then level else f.depth }

def Expansion.turns (collation : Collation) (org : String) (maxNodes : ℤ) (reverse : Bool) :
    ℕ → ℕ → Expansion → Prog Db Write Lock TraverseError Expansion
  | 0, _, f => return f
  | n + 1, level, f =>
    if f.frontier = [] then return f
    else do
      let f ← f.turn collation org maxNodes reverse level
      f.turns collation org maxNodes reverse n (level + 1)

def traversePostgres (collation : Collation) (org start : String) (depth maxNodes : ℤ)
    (reverse : Bool) : Prog Db Write Lock TraverseError TraverseResult := do
  failIf (org = "" ∨ start = "") (.required "database, organization, and start asset are required")
  failIf (depth < 1 ∨ maxNodes < 1) (.limitExceeded none)
  let found ← exec (selectAssetExists start org)
  failIf (found = false) .noRows
  let f ← Expansion.turns collation org maxNodes reverse depth.toNat 1
    { seen := [start], frontier := [start], nodes := [start] }
  let relationships ← exec (selectInduced collation org f.nodes)
  return { nodes := f.nodes, relationships := relationships, depth := f.depth }

/-- Some live relationship leads from `v` to `w`. -/
def Leads (rows : List RelationshipRow) (org : String) (reverse : Bool) (v w : String) : Prop :=
  ∃ e ∈ rows, e.live org ∧ e.source reverse = v ∧ e.target reverse = w

/-- Both report `ErrLimitExceeded`, or both return the same nodes, relationships and depth. -/
def SameAnswer (a b : Except TraverseError TraverseResult) : Prop :=
  (∃ m m', a = .error (.limitExceeded m) ∧ b = .error (.limitExceeded m')) ∨
    ∃ r r', a = .ok r ∧ b = .ok r' ∧ (∀ v, v ∈ r.nodes ↔ v ∈ r'.nodes) ∧
      (∀ e, e ∈ r.relationships ↔ e ∈ r'.relationships) ∧ r.depth = r'.depth

/-- More than `maxNodes` assets are at most `depth` steps from the start. -/
def Crowded (step : String → String → Prop) (start : String) (depth maxNodes : ℕ) : Prop :=
  (maxNodes : ℕ∞) < (ball step start depth).encard

/-- Some asset is exactly `depth` steps away, and no relationship leads from such an
asset to one at most `depth` steps away. -/
def OpenEnded (step : String → String → Prop) (start : String) (depth : ℕ) : Prop :=
  (∃ v, v ∈ sphere step start depth) ∧
    ∀ v w, v ∈ sphere step start depth → w ∈ ball step start depth → ¬ step v w

end Infragraph
