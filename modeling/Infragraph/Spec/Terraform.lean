import Infragraph.Spec.Config
import Infragraph.Spec.Envelope
import Infragraph.Spec.Imports

/-! The import of a Terraform state: one observation for each instance of a managed
resource, with the attributes that are allowed. -/

namespace Infragraph

/-- A `json.RawMessage` that the decoder has taken from a document, by its syntax. A number
is what `strconv.ParseFloat` makes of its text, if it is in range. -/
inductive RawJson where
  | null
  | bool (b : Bool)
  | num (value : Option Number)
  | str (s : String)
  | arr (items : List RawJson)
  | obj (members : List (String × RawJson))

mutual

/-- `json.Unmarshal` into a variable of type `any`, if it returns no error. -/
def RawJson.decode : RawJson → Option Json
  | .null => some .null
  | .bool b => some (.bool b)
  | .num value => value.map .num
  | .str s => some (.str s)
  | .arr items => (decodeItems items).map .arr
  | .obj members => (decodeMembers members).map fun m => .obj m.entries

def decodeItems : List RawJson → Option (List Json)
  | [] => some []
  | v :: vs =>
    match v.decode, decodeItems vs with
    | some value, some values => some (value :: values)
    | _, _ => none

/-- Of members with one name the last counts. -/
def decodeMembers : List (String × RawJson) → Option (GoMap Json)
  | [] => some .empty
  | (k, v) :: es =>
    match v.decode, decodeMembers es with
    | some value, some m => some (if (m.get k).isSome then m else m.put k value)
    | _, _ => none

end

structure TerraformInstance where
  attributes : GoMap RawJson

structure TerraformResource where
  mode : String
  type : String
  name : String
  provider : String
  instances : List TerraformInstance

structure TerraformOutput where
  sensitive : Bool
  value : RawJson

structure TerraformState where
  resources : List TerraformResource
  outputs : GoMap TerraformOutput

/-- `json.Unmarshal` into a `terraformState`. -/
class TerraformDecoder where
  decode : List UInt8 → Option TerraformState

def terraformAllow : List String :=
  ["id", "name", "arn", "resource_group_name", "location", "region", "availability_zone", "instance_id",
    "cluster_name", "namespace", "tags", "labels"]

def sensitiveName (k : String) : Bool :=
  ["password", "secret", "token", "private_key", "connection_string", "user_data", "credential"].any
    (contains (toLower k))

/-- An attribute in the loop over an instance: what it does to the attributes and hints. -/
def addAttribute (out : GoMap Json × GoMap Json) (e : String × RawJson) : GoMap Json × GoMap Json :=
  if e.1 ∉ terraformAllow ∨ sensitiveName e.1 = true then out
  else match e.2.decode with
    | none => out
    | some value =>
      (out.1.put e.1 value, if e.1 = "id" then out.2.put "terraform_resource_id" (.str value.sprint) else out.2)

def TerraformResource.address (resource : TerraformResource) : String := resource.type ++ "." ++ resource.name

def TerraformResource.instanceAddress (resource : TerraformResource) (i : ℕ) : String :=
  resource.address ++ "[" ++ toString i ++ "]"

def TerraformResource.attributes (resource : TerraformResource) : GoMap Json :=
  ⟨[("terraform_address", .str resource.address), ("terraform_type", .str resource.type),
    ("provider", .str resource.provider)], by simp, false, by simp⟩

def TerraformResource.observation (resource : TerraformResource) (i : ℕ) (inst : TerraformInstance) : Observation :=
  let out := inst.attributes.entries.foldl addAttribute
    (resource.attributes, .single "terraform_resource_id" (.str (resource.instanceAddress i)))
  { externalID := ((out.2.get "terraform_resource_id").getD .null).sprint, assetType := "CLOUD_RESOURCE"
    observedAt := 0, attributes := out.1, identityHints := out.2 }

def TerraformState.preview (s : TerraformState) : Preview where
  assets := (s.resources.filter (·.mode = "managed")).flatMap fun resource =>
    resource.instances.mapIdx resource.observation
  relationships := []
  errors := []

section

variable [TerraformDecoder]

/-- The state that `Terraform` decodes. -/
def terraformState (r : Source) (maxBytes : ℤ) : Except String TerraformState :=
  match r.readBounded (orDefault maxBytes (50 * 2 ^ 20)) "Terraform state exceeds byte limit" with
  | .error e => .error e
  | .ok raw =>
    match TerraformDecoder.decode raw with
    | none => .error "invalid Terraform state"
    | some s => .ok s

def terraform (r : Source) (maxBytes : ℤ) : Except String Preview :=
  match terraformState r maxBytes with
  | .error e => .error e
  | .ok s => .ok s.preview

end

/-- The same preview; maps are compared without the order of their entries. -/
structure Preview.Same (p p' : Preview) : Prop where
  assets : List.Forall₂ Observation.Same p.assets p'.assets
  relationships : p.relationships = p'.relationships
  errors : p.errors = p'.errors

mutual

def Json.keys : Json → List String
  | .null | .bool _ | .num _ | .str _ => []
  | .arr items => keysOfItems items
  | .obj entries => keysOfFields entries

def keysOfItems : List Json → List String
  | [] => []
  | v :: vs => v.keys ++ keysOfItems vs

def keysOfFields : List (String × Json) → List String
  | [] => []
  | (k, v) :: es => k :: v.keys ++ keysOfFields es

end

/-- No key inside an attribute is a sensitive name. -/
def Preview.Discreet (p : Preview) : Prop :=
  ∀ a ∈ p.assets, ∀ e ∈ a.attributes.entries, ∀ k ∈ e.2.keys, sensitiveName k = false

end Infragraph
