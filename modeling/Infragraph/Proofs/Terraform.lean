import Infragraph.Sanity.GoMap
import Infragraph.Spec.Terraform

/-! What the import of a Terraform state lets through. The loop over the attributes of
an instance is described once, by the lookups in what it leaves; from that follow what
the preview depends on, which keys it shows and when its external IDs tell the
instances apart. -/

namespace Infragraph

def Permitted (k : String) : Prop := k ∈ terraformAllow ∧ sensitiveName k = false

instance (k : String) : Decidable (Permitted k) := inferInstanceAs (Decidable (_ ∧ _))

def offered (e : String × RawJson) (k : String) : Option Json := if e.1 = k ∧ Permitted k then e.2.decode else none

def added (es : List (String × RawJson)) (k : String) : Option Json :=
  if Permitted k then (es.lookup k).bind RawJson.decode else none

def hinting (value : Option Json) (k : String) : Option Json :=
  if k = "terraform_resource_id" then value.map fun v => .str v.sprint else none

theorem added_cons (e : String × RawJson) (es : List (String × RawJson)) (k : String) :
    added (e :: es) k = if e.1 = k then offered e k else added es k := by
  obtain ⟨k', v⟩ := e
  unfold added offered
  by_cases hk : k' = k
  · subst hk
    simp
  · have hne : (k == k') = false := by simpa using Ne.symm hk
    simp only [List.lookup_cons, hne, hk, if_false]

theorem added_of_not_mem {es : List (String × RawJson)} {k : String} (h : k ∉ es.map Prod.fst) : added es k = none := by
  have hnone : es.lookup k = none := by
    rw [List.lookup_eq_none_iff]
    intro e he
    have hne : k ≠ e.1 := fun heq => h (heq ▸ List.mem_map_of_mem he)
    simpa using hne
  unfold added
  rw [hnone, Option.bind_none, ite_self]

theorem get_addAttribute (out : GoMap Json × GoMap Json) (e : String × RawJson) (k : String) :
    (addAttribute out e).1.get k = (offered e k).or (out.1.get k) ∧
      (addAttribute out e).2.get k = (hinting (offered e "id") k).or (out.2.get k) := by
  obtain ⟨k', v⟩ := e
  unfold addAttribute offered
  by_cases hpass : Permitted k'
  · have hfilter : ¬ (k' ∉ terraformAllow ∨ sensitiveName k' = true) := by simp [hpass.1, hpass.2]
    have hoffer : ∀ k, (k' = k ∧ Permitted k) ↔ k' = k := fun k => and_iff_left_of_imp fun hk => hk ▸ hpass
    simp only [hfilter, if_false, hoffer]
    cases v.decode with
    | none => simp [hinting]
    | some value =>
      refine ⟨?_, ?_⟩
      · rw [GoMap.get_put]
        split_ifs <;> simp
      · by_cases hid : k' = "id"
        · simp only [hid, if_true, GoMap.get_put, hinting, Option.map_some]
          by_cases hk : k = "terraform_resource_id"
          · simp [hk]
          · simp [hk, Ne.symm hk]
        · simp [hid, hinting]
  · have hfilter : k' ∉ terraformAllow ∨ sensitiveName k' = true := by
      by_contra hno
      simp only [not_or, not_not, Bool.not_eq_true] at hno
      exact hpass hno
    have hoffer : ∀ k, ¬ (k' = k ∧ Permitted k) := by
      rintro k ⟨rfl, hk⟩
      exact hpass hk
    simp [hfilter, hoffer, hinting]

/-- What the loop leaves: under a name the value of the attribute with that name, if it
is permitted, and else what was there before. -/
theorem get_foldl_addAttribute {es : List (String × RawJson)} (hnodup : (es.map Prod.fst).Nodup)
    (out : GoMap Json × GoMap Json) (k : String) :
    (es.foldl addAttribute out).1.get k = (added es k).or (out.1.get k) ∧
      (es.foldl addAttribute out).2.get k = (hinting (added es "id") k).or (out.2.get k) := by
  induction es generalizing out with
  | nil => simp [added, hinting]
  | cons e es ih =>
    obtain ⟨hfresh, hnodup⟩ := List.nodup_cons.mp hnodup
    have hadded : ∀ k, added (e :: es) k = (added es k).or (offered e k) := by
      intro k
      rw [added_cons]
      split_ifs with hk
      · rw [added_of_not_mem (hk ▸ hfresh), Option.none_or]
      · simp [offered, hk]
    have hhint : ∀ v w : Option Json, hinting (v.or w) k = (hinting v k).or (hinting w k) := by
      intro v w
      unfold hinting
      split_ifs
      · cases v <;> rfl
      · rfl
    rw [List.foldl_cons, (ih hnodup _).1, (ih hnodup _).2, (get_addAttribute out e k).1,
      (get_addAttribute out e k).2, hadded, hadded, hhint, Option.or_assoc, Option.or_assoc]
    exact ⟨rfl, rfl⟩

theorem isNil_addAttribute {out : GoMap Json × GoMap Json} (h : out.1.isNil = false ∧ out.2.isNil = false)
    (e : String × RawJson) : (addAttribute out e).1.isNil = false ∧ (addAttribute out e).2.isNil = false := by
  unfold addAttribute
  split_ifs with hfilter hid
  · exact h
  all_goals
    cases e.2.decode with
    | none => exact h
    | some value => first | exact ⟨rfl, rfl⟩ | exact ⟨rfl, h.2⟩

theorem isNil_foldl_addAttribute (es : List (String × RawJson)) {out : GoMap Json × GoMap Json}
    (h : out.1.isNil = false ∧ out.2.isNil = false) :
    (es.foldl addAttribute out).1.isNil = false ∧ (es.foldl addAttribute out).2.isNil = false := by
  induction es generalizing out with
  | nil => exact h
  | cons e es ih => exact ih (isNil_addAttribute h e)

def TerraformInstance.kept (inst : TerraformInstance) (k : String) : Option Json := added inst.attributes.entries k

def TerraformResource.identity (resource : TerraformResource) (i : ℕ) (inst : TerraformInstance) : String :=
  (inst.kept "id").elim (resource.instanceAddress i) Json.sprint

variable (resource : TerraformResource) (i : ℕ) (inst : TerraformInstance)

theorem get_attributes (k : String) :
    (resource.observation i inst).attributes.get k = (inst.kept k).or (resource.attributes.get k) :=
  (get_foldl_addAttribute inst.attributes.nodup _ k).1

theorem get_identityHints (k : String) : (resource.observation i inst).identityHints.get k =
    (hinting (inst.kept "id") k).or
      ((GoMap.single "terraform_resource_id" (.str (resource.instanceAddress i))).get k) :=
  (get_foldl_addAttribute inst.attributes.nodup _ k).2

theorem externalID_observation : (resource.observation i inst).externalID = resource.identity i inst := by
  have hhint := get_identityHints resource i inst "terraform_resource_id"
  change ((((resource.observation i inst).identityHints.get "terraform_resource_id").getD .null).sprint = _)
  rw [hhint]
  unfold TerraformResource.identity hinting
  cases inst.kept "id" with
  | none => rfl
  | some v => rfl

theorem isNil_observation :
    (resource.observation i inst).attributes.isNil = false ∧ (resource.observation i inst).identityHints.isNil = false :=
  isNil_foldl_addAttribute _ ⟨rfl, rfl⟩

theorem kept_of_not_permitted {k : String} (h : ¬ Permitted k) : inst.kept k = none := if_neg h

/-- The same permitted attributes. -/
def TerraformInstance.Agrees (inst inst' : TerraformInstance) : Prop :=
  ∀ k ∈ terraformAllow, sensitiveName k = false → inst.attributes.get k = inst'.attributes.get k

structure TerraformResource.Agrees (resource resource' : TerraformResource) : Prop where
  type : resource.type = resource'.type
  name : resource.name = resource'.name
  provider : resource.provider = resource'.provider
  instances : List.Forall₂ TerraformInstance.Agrees resource.instances resource'.instances

def TerraformState.managed (s : TerraformState) : List TerraformResource := s.resources.filter (·.mode = "managed")

def TerraformState.Agrees (s s' : TerraformState) : Prop := List.Forall₂ TerraformResource.Agrees s.managed s'.managed

theorem TerraformInstance.Agrees.kept {inst inst' : TerraformInstance} (h : inst.Agrees inst') (k : String) :
    inst.kept k = inst'.kept k := by
  by_cases hpass : Permitted k
  · have hget : inst.attributes.entries.lookup k = inst'.attributes.entries.lookup k := h k hpass.1 hpass.2
    unfold TerraformInstance.kept added
    rw [hget]
  · rw [kept_of_not_permitted _ hpass, kept_of_not_permitted _ hpass]

theorem TerraformResource.Agrees.observation {resource resource' : TerraformResource} (h : resource.Agrees resource')
    {inst inst' : TerraformInstance} (hinst : inst.Agrees inst') (i : ℕ) :
    (resource.observation i inst).Same (resource'.observation i inst') := by
  have haddress : resource.address = resource'.address := by
    rw [TerraformResource.address, TerraformResource.address, h.type, h.name]
  have hindexed : resource.instanceAddress i = resource'.instanceAddress i := by
    rw [TerraformResource.instanceAddress, TerraformResource.instanceAddress, haddress]
  have hliteral : resource.attributes = resource'.attributes := by
    simp only [TerraformResource.attributes, haddress, h.type, h.provider]
  have hexternal : (resource.observation i inst).externalID = (resource'.observation i inst').externalID := by
    rw [externalID_observation, externalID_observation, TerraformResource.identity, TerraformResource.identity,
      hinst.kept, hindexed]
  have hattributes : ∀ k, (resource.observation i inst).attributes.get k =
      (resource'.observation i inst').attributes.get k := by
    intro k
    rw [get_attributes, get_attributes, hinst.kept, hliteral]
  have hhints : ∀ k, (resource.observation i inst).identityHints.get k =
      (resource'.observation i inst').identityHints.get k := by
    intro k
    rw [get_identityHints, get_identityHints, hinst.kept, hindexed]
  have hnil := isNil_observation resource i inst
  have hnil' := isNil_observation resource' i inst'
  exact ⟨rfl, rfl, rfl, rfl, rfl, hexternal, rfl, rfl,
    GoMap.sameValues_of_get (hnil.1.trans hnil'.1.symm) hattributes,
    GoMap.sameValues_of_get (hnil.2.trans hnil'.2.symm) hhints, rfl, rfl⟩

theorem TerraformState.Agrees.preview {s s' : TerraformState} (h : s.Agrees s') : s.preview.Same s'.preview where
  assets := List.rel_flatMap h fun _ _ hresource =>
    List.forall₂_mapIdx hresource.instances fun i _ _ hinst => hresource.observation hinst i
  relationships := rfl
  errors := rfl

section

variable [TerraformDecoder]

theorem terraform_of_state {r : Source} {maxBytes : ℤ} {s : TerraformState} (h : terraformState r maxBytes = .ok s) :
    terraform r maxBytes = .ok s.preview := by
  unfold terraform
  rw [h]

/-- Outputs, unmanaged resources and other attributes have no influence on the preview. -/
theorem terraform_minimises {r r' : Source} {maxBytes maxBytes' : ℤ} {s s' : TerraformState}
    (h : terraformState r maxBytes = .ok s) (h' : terraformState r' maxBytes' = .ok s') (hagree : s.Agrees s') :
    ∃ p p', terraform r maxBytes = .ok p ∧ terraform r' maxBytes' = .ok p' ∧ p.Same p' :=
  ⟨s.preview, s'.preview, terraform_of_state h, terraform_of_state h', hagree.preview⟩

end

def webResource (instances : List TerraformInstance) : TerraformResource :=
  ⟨"managed", "aws_instance", "web", "aws", instances⟩

def nullInstance : TerraformInstance := ⟨.single "id" .null⟩

def fullInstance : TerraformInstance :=
  ⟨⟨[("password", .str "hunter2"), ("name", .str "web"), ("id", .str "i-1")], by decide, false, by simp⟩⟩

def plainInstance : TerraformInstance := ⟨⟨[("id", .str "i-1"), ("name", .str "web")], by decide, false, by simp⟩⟩

def fullState : TerraformState where
  resources := [⟨"data", "aws_ami", "base", "aws", [nullInstance]⟩, webResource [fullInstance]]
  outputs := .single "url" ⟨true, .str "internal"⟩

def plainState : TerraformState := ⟨[webResource [plainInstance]], .nil⟩

def webText (attributes : String) : String :=
  "\x7b\"mode\":\"managed\",\"type\":\"aws_instance\",\"name\":\"web\",\"provider\":\"aws\"," ++
    "\"instances\":[\x7b\"attributes\":\x7b" ++ attributes ++ "\x7d\x7d]\x7d"

def fullText : String :=
  "\x7b\"resources\":[\x7b\"mode\":\"data\",\"type\":\"aws_ami\",\"name\":\"base\",\"provider\":\"aws\"," ++
    "\"instances\":[\x7b\"attributes\":\x7b\"id\":null\x7d\x7d]\x7d," ++
    webText "\"password\":\"hunter2\",\"name\":\"web\",\"id\":\"i-1\"" ++
    "],\"outputs\":\x7b\"url\":\x7b\"sensitive\":true,\"value\":\"internal\"\x7d\x7d\x7d"

def plainText : String := "\x7b\"resources\":[" ++ webText "\"id\":\"i-1\",\"name\":\"web\"" ++ "]\x7d"

/-- A decoder that knows the texts of the two states. -/
abbrev twoStates : TerraformDecoder :=
  ⟨fun raw => if raw = bytes fullText then some fullState else if raw = bytes plainText then some plainState else none⟩

theorem terraformState_twoStates {raw : List UInt8} {s : TerraformState} (hlen : raw.length < 1000)
    (hs : twoStates.decode raw = some s) : @terraformState twoStates ⟨raw, none⟩ 0 = .ok s := by
  have hshort : ¬ (52428801 : ℤ) ≤ raw.length ∧ ¬ (52428800 : ℤ) < raw.length := by omega
  simp [terraformState, Source.readBounded, Source.readAll, orDefault, int64, hshort, hs]

theorem terraform_minimises_pair : letI := twoStates
    ∃ p p', terraform ⟨bytes fullText, none⟩ 0 = .ok p ∧ terraform ⟨bytes plainText, none⟩ 0 = .ok p' ∧ p.Same p' := by
  have hinst : fullInstance.Agrees plainInstance := by
    intro k hk _
    fin_cases hk <;> rfl
  have hagree : fullState.Agrees plainState := .cons ⟨rfl, rfl, rfl, .cons hinst .nil⟩ .nil
  have hne : bytes plainText ≠ bytes fullText := by decide +kernel
  let _ := twoStates
  exact terraform_minimises (terraformState_twoStates (by decide +kernel) (if_pos rfl))
    (terraformState_twoStates (by decide +kernel) ((if_neg hne).trans (if_pos rfl))) hagree

/-- No attribute that is kept has a sensitive name inside. -/
def TerraformState.Discreet (s : TerraformState) : Prop :=
  ∀ resource ∈ s.managed, ∀ inst ∈ resource.instances, ∀ k v, inst.kept k = some v →
    ∀ key ∈ v.keys, sensitiveName key = false

theorem mem_assets {s : TerraformState} {a : Observation} : a ∈ s.preview.assets ↔
    ∃ resource ∈ s.managed, ∃ (i : ℕ) (h : i < resource.instances.length),
      resource.observation i resource.instances[i] = a := by
  simp only [TerraformState.preview, List.mem_flatMap, List.mem_mapIdx, TerraformState.managed]

theorem mem_attributes {e : String × Json} (h : e ∈ (resource.observation i inst).attributes.entries) :
    inst.kept e.1 = some e.2 ∨ ∃ text, e.2 = .str text := by
  have hget := get_attributes resource i inst e.1
  rw [GoMap.get_eq_some.mpr h] at hget
  cases hkept : inst.kept e.1 with
  | some v =>
    rw [hkept] at hget
    exact .inl hget.symm
  | none =>
    rw [hkept] at hget
    have hmem := GoMap.get_eq_some.mp hget.symm
    simp only [TerraformResource.attributes, List.mem_cons, List.not_mem_nil, or_false] at hmem
    rcases hmem with he | he | he
    all_goals exact .inr ⟨_, congrArg Prod.snd he⟩

theorem preview_discreet_iff (s : TerraformState) : s.preview.Discreet ↔ s.Discreet := by
  refine ⟨fun h resource hresource inst hinst k v hkept key hkey => ?_, fun h a ha e he key hkey => ?_⟩
  · obtain ⟨i, hi, rfl⟩ := List.getElem_of_mem hinst
    have hget : (resource.observation i resource.instances[i]).attributes.get k = some v := by
      rw [get_attributes, hkept, Option.some_or]
    exact h _ (mem_assets.mpr ⟨resource, hresource, i, hi, rfl⟩) (k, v) (GoMap.get_eq_some.mp hget) key hkey
  · obtain ⟨resource, hresource, i, hi, rfl⟩ := mem_assets.mp ha
    rcases mem_attributes _ _ _ he with hkept | ⟨text, htext⟩
    · exact h resource hresource _ (List.getElem_mem hi) e.1 e.2 hkept key hkey
    · rw [htext] at hkey
      cases hkey

/-- The preview shows a sensitive name inside an attribute just when an attribute that
passes the filter has one. -/
theorem terraform_discreet_iff [TerraformDecoder] (r : Source) (maxBytes : ℤ) :
    (∀ p, terraform r maxBytes = .ok p → p.Discreet) ↔ ∀ s, terraformState r maxBytes = .ok s → s.Discreet := by
  refine ⟨fun h s hs => ?_, fun h p hp => ?_⟩
  · exact (preview_discreet_iff s).mp (h s.preview (terraform_of_state hs))
  · unfold terraform at hp
    cases hs : terraformState r maxBytes with
    | error e =>
      rw [hs] at hp
      cases hp
    | ok s =>
      rw [hs] at hp
      cases hp
      exact (preview_discreet_iff s).mpr (h s hs)

def taggedInstance : TerraformInstance := ⟨.single "tags" (.obj [("db_password", .str "hunter2")])⟩

def taggedState : TerraformState := ⟨[webResource [taggedInstance]], .nil⟩

theorem tag_shown : ¬ taggedState.preview.Discreet := by
  intro h
  have hkept : taggedInstance.kept "tags" = some (.obj [("db_password", .str "hunter2")]) := rfl
  have hget := get_attributes (webResource [taggedInstance]) 0 taggedInstance "tags"
  rw [hkept] at hget
  have hshown := h _ (List.mem_singleton.mpr rfl) _ (GoMap.get_eq_some.mp hget) "db_password"
    (by simp [Json.keys, keysOfFields])
  revert hshown
  decide

structure Place where
  resource : TerraformResource
  index : ℕ
  inst : TerraformInstance

def Place.id (x : Place) : Option Json := x.inst.kept "id"

def Place.address (x : Place) : String := x.resource.instanceAddress x.index

def Place.observation (x : Place) : Observation := x.resource.observation x.index x.inst

def TerraformState.places (s : TerraformState) : List Place :=
  s.managed.flatMap fun resource => resource.instances.mapIdx fun i inst => ⟨resource, i, inst⟩

theorem assets_eq (s : TerraformState) : s.preview.assets = s.places.map Place.observation := by
  unfold TerraformState.places TerraformState.preview
  rw [List.map_flatMap]
  refine List.flatMap_congr fun resource _ => ?_
  refine List.ext_getElem (by simp) fun i _ _ => ?_
  simp [Place.observation]

/-- The observation has the data of the instance. -/
structure Describes (x : Place) (a : Observation) : Prop where
  address : a.attributes.get "terraform_address" = some (.str x.resource.address)
  type : a.attributes.get "terraform_type" = some (.str x.resource.type)
  provider : a.attributes.get "provider" = some (.str x.resource.provider)
  kept : ∀ k, Permitted k → a.attributes.get k = x.inst.kept k

/-- One observation for each instance, in order, with an external ID of its own. -/
structure Preview.Identifies (p : Preview) (s : TerraformState) : Prop where
  each : List.Forall₂ Describes s.places p.assets
  nonempty : ∀ a ∈ p.assets, a.externalID ≠ ""
  distinct : (p.assets.map (·.externalID)).Nodup

/-- Two instances whose IDs or addresses are the same text. -/
inductive Clash (x y : Place) : Prop
  | ids {v w : Json} (hx : x.id = some v) (hy : y.id = some w) (h : v.sprint = w.sprint)
  | addresses (hx : x.id = none) (hy : y.id = none) (h : x.address = y.address)
  | idAddress {v : Json} (hx : x.id = some v) (hy : y.id = none) (h : v.sprint = y.address)
  | addressId {w : Json} (hx : x.id = none) (hy : y.id = some w) (h : x.address = w.sprint)

structure TerraformState.Distinguishes (s : TerraformState) : Prop where
  named : ∀ x ∈ s.places, x.id ≠ some (.str "")
  apart : s.places.Pairwise fun x y => ¬ Clash x y

theorem externalID_place (x : Place) : x.observation.externalID = x.id.elim x.address Json.sprint :=
  externalID_observation ..

theorem clash_iff (x y : Place) : Clash x y ↔ x.observation.externalID = y.observation.externalID := by
  rw [externalID_place, externalID_place]
  refine ⟨?_, fun h => ?_⟩
  · rintro (⟨hx, hy, h⟩ | ⟨hx, hy, h⟩ | ⟨hx, hy, h⟩ | ⟨hx, hy, h⟩)
    all_goals
      rw [hx, hy]
      exact h
  · cases hx : x.id with
    | none =>
      cases hy : y.id with
      | none =>
        rw [hx, hy] at h
        exact .addresses hx hy h
      | some w =>
        rw [hx, hy] at h
        exact .addressId hx hy h
    | some v =>
      cases hy : y.id with
      | none =>
        rw [hx, hy] at h
        exact .idAddress hx hy h
      | some w =>
        rw [hx, hy] at h
        exact .ids hx hy h

theorem describes_observation (x : Place) : Describes x x.observation := by
  have hget := get_attributes x.resource x.index x.inst
  have hliteral : ∀ k, ¬ Permitted k → x.observation.attributes.get k = x.resource.attributes.get k := by
    intro k hk
    rw [Place.observation, hget, kept_of_not_permitted _ hk, Option.none_or]
  refine ⟨hliteral _ (by decide), hliteral _ (by decide), hliteral _ (by decide), fun k hk => ?_⟩
  have hnone : x.resource.attributes.get k = none := by
    rw [GoMap.get_eq_none]
    rintro hmem
    simp only [TerraformResource.attributes, List.map_cons, List.map_nil, List.mem_cons, List.not_mem_nil,
      or_false] at hmem
    rcases hmem with rfl | rfl | rfl
    all_goals exact absurd hk (by decide)
  rw [Place.observation, hget, hnone, Option.or_none]

theorem Number.scaled_ne_empty (n : ℕ) (exponent : ℤ) : scaled (toString n) exponent ≠ "" := by
  unfold scaled
  dsimp only
  split_ifs <;> simp

theorem Number.sprint_ne_empty (n : Number) : n.sprint ≠ "" := by
  unfold Number.sprint
  dsimp only
  split_ifs
  · exact fun h => scaled_ne_empty _ _ (String.append_eq_empty_iff.mp h).2
  all_goals simp

theorem sprint_eq_empty {v : Json} : v.sprint = "" ↔ v = .str "" := by
  cases v with
  | null => simp [Json.sprint]
  | bool b => cases b <;> simp [Json.sprint]
  | num n => simp [Json.sprint, n.sprint_ne_empty]
  | str s => simp [Json.sprint]
  | arr items => simp [Json.sprint]
  | obj entries => simp [Json.sprint]

theorem address_ne_empty (x : Place) : x.address ≠ "" := by
  unfold Place.address TerraformResource.instanceAddress
  simp

/-- The external IDs tell the instances apart just when no ID is empty and no two IDs or
addresses are the same text. -/
theorem terraform_identifies_iff (s : TerraformState) : s.preview.Identifies s ↔ s.Distinguishes := by
  have hempty : ∀ x : Place, x.observation.externalID = "" ↔ x.id = some (.str "") := by
    intro x
    rw [externalID_place]
    cases x.id with
    | none => simp [address_ne_empty]
    | some v => simp [sprint_eq_empty]
  have hdistinct : (s.preview.assets.map (·.externalID)).Nodup ↔ s.places.Pairwise fun x y => ¬ Clash x y := by
    rw [assets_eq, List.map_map, List.Nodup, List.pairwise_map]
    simp only [clash_iff, Function.comp_apply, ne_eq]
  refine ⟨fun h => ⟨fun x hx hid => ?_, hdistinct.mp h.distinct⟩,
    fun h => ⟨?_, fun a ha hid => ?_, hdistinct.mpr h.apart⟩⟩
  · refine h.nonempty x.observation ?_ ((hempty x).mpr hid)
    rw [assets_eq]
    exact List.mem_map_of_mem hx
  · rw [assets_eq, List.forall₂_map_right_iff, List.forall₂_same]
    exact fun x _ => describes_observation x
  · rw [assets_eq] at ha
    obtain ⟨x, hx, rfl⟩ := List.mem_map.mp ha
    exact h.named x hx ((hempty x).mp hid)

/-- Distinct resources, and distinct values where an `id` is not null. -/
structure TerraformState.Distinct (s : TerraformState) : Prop where
  resources : (s.managed.map fun resource => (resource.type, resource.name)).Nodup
  ids : s.places.Pairwise fun x y => ∀ v w, x.id = some v → y.id = some w → v ≠ .null → w ≠ .null → v ≠ w

/-- Two instances whose `id` is null: both are printed as `<nil>`. -/
def nullState : TerraformState := ⟨[webResource [nullInstance, nullInstance]], .nil⟩

theorem null_ids_clash : nullState.Distinct ∧ ¬ nullState.preview.Identifies nullState := by
  have hid : nullInstance.kept "id" = some .null := rfl
  have hids : nullState.preview.assets.map (·.externalID) = ["<nil>", "<nil>"] := rfl
  refine ⟨⟨by decide, List.pairwise_pair.mpr fun v w hv _ hnull => ?_⟩, fun h => ?_⟩
  · exact absurd (Option.some.inj (hv.symm.trans hid)) hnull
  · have hnodup := h.distinct
    revert hnodup
    decide

end Infragraph
