import Infragraph.Proofs.Delivery
import Infragraph.Sanity.Contract
import Infragraph.Spec.Docker

/-! The Docker connector and the contract. Whatever the API lists, the assets of a
snapshot are fine; the snapshot is refused when one container leads twice to the
same thing, which the connector does not check. -/

namespace Infragraph.Docker

/-- An asset to add, with the arguments of `add`. -/
structure Mention where
  id : String
  type : String
  name : String
  hints : GoMap Json

def Found.addAll (now : Time) (s : Found) (ms : List Mention) : Found :=
  ms.foldl (fun s m => s.add now m.id m.type m.name m.hints) s

/-- What the connector has collected can be sent: the IDs seen are those of the
assets, each once. -/
structure Found.Sound (s : Found) : Prop where
  sendable : ∀ o ∈ s.assets, o.Sendable
  nodup : (externalIDs s.assets).Nodup
  seen : ∀ id, id ∈ s.seen ↔ id ∈ externalIDs s.assets

structure Mention.Ok (m : Mention) : Prop where
  id : m.id ≠ "" ∧ byteLen m.id ≤ 1024
  type : byteLen m.type ≤ 80
  hints : m.hints.len ≤ 32

variable {now : Time} {s : Found}

theorem add_rels (id t name : String) (hints : GoMap Json) : (s.add now id t name hints).rels = s.rels := by
  unfold Found.add
  split_ifs <;> rfl

theorem Found.Sound.add (h : s.Sound) (hnow : now ≠ 0) {m : Mention} (hm : m.Ok) :
    (s.add now m.id m.type m.name m.hints).Sound ∧
      ∀ x, x ∈ externalIDs (s.add now m.id m.type m.name m.hints).assets ↔ x = m.id ∨ x ∈ externalIDs s.assets := by
  unfold Found.add
  split_ifs with hseen
  · rw [List.contains_iff_mem, h.seen] at hseen
    refine ⟨h, fun x => ⟨.inr, ?_⟩⟩
    rintro (rfl | hx)
    · exact hseen
    · exact hx
  · rw [List.contains_iff_mem, h.seen] at hseen
    have hids : ∀ o : Observation, externalIDs (s.assets ++ [o]) = externalIDs s.assets ++ [o.externalID] := by
      intro o
      simp [externalIDs]
    refine ⟨⟨?_, ?_, ?_⟩, ?_⟩
    · intro o ho
      rcases List.mem_append.mp ho with ho | ho
      · exact h.sendable o ho
      · rw [List.mem_singleton.mp ho]
        exact ⟨hm.id, hm.type, hnow, by simp [GoMap.single, GoMap.len], hm.hints⟩
    · rw [hids, List.nodup_append]
      refine ⟨h.nodup, by simp, ?_⟩
      intro a ha b hb hab
      have hid : a = m.id := hab.trans (List.mem_singleton.mp hb)
      exact hseen (hid ▸ ha)
    · intro x
      rw [hids, List.mem_cons, List.mem_append, List.mem_singleton, h.seen]
      exact or_comm
    · intro x
      rw [hids, List.mem_append, List.mem_singleton]
      exact or_comm

theorem Found.Sound.addAll (h : s.Sound) (hnow : now ≠ 0) {ms : List Mention} (hms : ∀ m ∈ ms, m.Ok) :
    (s.addAll now ms).Sound ∧
      ∀ x, x ∈ externalIDs (s.addAll now ms).assets ↔ x ∈ ms.map (·.id) ∨ x ∈ externalIDs s.assets := by
  induction ms generalizing s with
  | nil => exact ⟨h, by simp [Found.addAll]⟩
  | cons m ms ih =>
    obtain ⟨hadd, hmem⟩ := h.add hnow (hms m (.head _))
    obtain ⟨hall, hmems⟩ := ih hadd fun m' hm' => hms m' (.tail _ hm')
    refine ⟨hall, fun x => ?_⟩
    have hcons : s.addAll now (m :: ms) = (s.add now m.id m.type m.name m.hints).addAll now ms := rfl
    rw [hcons, hmems, hmem, List.map_cons, List.mem_cons]
    tauto

def Found.extend (now : Time) (s : Found) (ms : List Mention) (rels : List RelationshipObservation) : Found :=
  ⟨(s.addAll now ms).assets, s.rels ++ rels, (s.addAll now ms).seen⟩

theorem add_relate {m : Mention} {a b t : String} :
    (s.add now m.id m.type m.name m.hints).relate now a b t = s.extend now [m] [relation a b t now] := by
  unfold Found.relate Found.extend Found.addAll
  rw [add_rels]
  rfl

theorem addAll_congr (now : Time) {s s' : Found} (hassets : s.assets = s'.assets) (hseen : s.seen = s'.seen)
    (ms : List Mention) :
    (s.addAll now ms).assets = (s'.addAll now ms).assets ∧ (s.addAll now ms).seen = (s'.addAll now ms).seen := by
  induction ms generalizing s s' with
  | nil => exact ⟨hassets, hseen⟩
  | cons m ms ih =>
    have hstep : (s.add now m.id m.type m.name m.hints).assets = (s'.add now m.id m.type m.name m.hints).assets ∧
        (s.add now m.id m.type m.name m.hints).seen = (s'.add now m.id m.type m.name m.hints).seen := by
      unfold Found.add
      rw [hseen]
      split_ifs <;> simp [hassets, hseen]
    exact ih hstep.1 hstep.2

theorem extend_extend (ms ms' : List Mention) (rs rs' : List RelationshipObservation) :
    (s.extend now ms rs).extend now ms' rs' = s.extend now (ms ++ ms') (rs ++ rs') := by
  have hboth : (s.addAll now (ms ++ ms')) = (s.addAll now ms).addAll now ms' := List.foldl_append
  have hfirst : (s.extend now ms rs).assets = (s.addAll now ms).assets := rfl
  obtain ⟨hassets, hseen⟩ := addAll_congr now hfirst rfl ms'
  rw [Found.extend, hassets, hseen, Found.extend, Found.extend, hboth, List.append_assoc]

theorem extend_nil : s.extend now [] [] = s := by
  simp [Found.extend, Found.addAll]

theorem foldl_extend {α : Type} {f : Found → α → Found} {ms : α → List Mention} {rs : α → List RelationshipObservation}
    (h : ∀ s x, f s x = s.extend now (ms x) (rs x)) (xs : List α) :
    xs.foldl f s = s.extend now (xs.flatMap ms) (xs.flatMap rs) := by
  induction xs generalizing s with
  | nil => exact extend_nil.symm
  | cons x xs ih => rw [List.foldl_cons, ih, h, extend_extend, List.flatMap_cons, List.flatMap_cons]

def Container.mentions (v : Container) : List Mention :=
  [⟨v.id, "CONTAINER", v.name, .single "docker_container_id" (.str v.id)⟩,
    ⟨v.imageID, "CONTAINER_IMAGE", v.image, .single "docker_image_id" (.str v.imageID)⟩] ++
    v.networkNames.map (fun n => ⟨"network:" ++ n, "NETWORK", n, .nil⟩) ++
    v.volumes.map fun n => ⟨"volume:" ++ n, "VOLUME", n, .nil⟩

def Container.relations (v : Container) (now : Time) (containers : List Container) : List RelationshipObservation :=
  (v.links containers).map fun l => relation v.id l.1 l.2 now

theorem flatMap_ite {α β γ : Type} {p : α → Prop} [DecidablePred p] (f : α → β) (g : β → γ) (xs : List α) :
    xs.flatMap (fun x => if p x then [g (f x)] else []) = ((xs.filter fun x => p x).map f).map g := by
  induction xs with
  | nil => rfl
  | cons x xs ih =>
    rw [List.flatMap_cons, ih]
    by_cases hx : p x <;> simp [hx]

theorem discoverNetwork_eq (v : Container) (s : Found) (n : String) :
    discoverNetwork now v s n = s.extend now [⟨"network:" ++ n, "NETWORK", n, .nil⟩]
      [relation v.id ("network:" ++ n) "CONNECTED_TO" now] :=
  add_relate (m := ⟨"network:" ++ n, "NETWORK", n, .nil⟩)

theorem discoverMount_eq (v : Container) (s : Found) (m : Mount) : discoverMount now v s m =
      s.extend now (if m.type = "volume" ∧ m.name ≠ "" then [⟨"volume:" ++ m.name, "VOLUME", m.name, .nil⟩] else [])
        (if m.type = "volume" ∧ m.name ≠ "" then [relation v.id ("volume:" ++ m.name) "USES_VOLUME" now]
          else []) := by
  unfold discoverMount
  split_ifs
  · exact add_relate (m := ⟨"volume:" ++ m.name, "VOLUME", m.name, .nil⟩)
  · exact extend_nil.symm

theorem discoverMounts_eq (v : Container) (s : Found) : v.mounts.foldl (discoverMount now v) s =
      s.extend now (v.volumes.map fun n => ⟨"volume:" ++ n, "VOLUME", n, .nil⟩)
        (v.volumes.map fun n => relation v.id ("volume:" ++ n) "USES_VOLUME" now) := by
  rw [foldl_extend (discoverMount_eq v)]
  unfold Container.volumes
  rw [← flatMap_ite, ← flatMap_ite]

theorem discoverContainer_eq (containers : List Container) (s : Found) (v : Container) :
    discoverContainer now containers s v = s.extend now v.mentions (v.relations now containers) := by
  have hown : ((((s.add now v.id "CONTAINER" v.name (.single "docker_container_id" (.str v.id))).add now v.imageID
      "CONTAINER_IMAGE" v.image (.single "docker_image_id" (.str v.imageID))).relate now v.id "docker-host"
      "RUNS_ON").relate now v.id v.imageID "USES_IMAGE") = s.extend now
        [⟨v.id, "CONTAINER", v.name, .single "docker_container_id" (.str v.id)⟩,
          ⟨v.imageID, "CONTAINER_IMAGE", v.image, .single "docker_image_id" (.str v.imageID)⟩]
        [relation v.id "docker-host" "RUNS_ON" now, relation v.id v.imageID "USES_IMAGE" now] := by
    unfold Found.relate Found.extend Found.addAll
    simp [add_rels]
  have hnetworks : ∀ s : Found, (v.networks.entries.map Prod.fst).foldl (discoverNetwork now v) s =
      s.extend now (v.networkNames.map fun n => ⟨"network:" ++ n, "NETWORK", n, .nil⟩)
        (v.networkNames.map fun n => relation v.id ("network:" ++ n) "CONNECTED_TO" now) := by
    intro s
    rw [foldl_extend (discoverNetwork_eq v), ← List.map_eq_flatMap, ← List.map_eq_flatMap]
    rfl
  have hdependency : ∀ s : Found,
      (if v.dependency containers ≠ "" then s.relate now v.id (v.dependency containers) "CONNECTED_TO" else s) =
        s.extend now [] (if v.dependency containers ≠ "" then
          [relation v.id (v.dependency containers) "CONNECTED_TO" now] else []) := by
    intro s
    split_ifs
    · rfl
    · exact extend_nil.symm
  unfold discoverContainer
  dsimp only
  rw [hown, hnetworks, discoverMounts_eq, hdependency, extend_extend, extend_extend, extend_extend]
  unfold Container.mentions Container.relations Container.links
  congr 1
  · simp
  · split_ifs <;> simp [Function.comp_def]

theorem discover_eq (now : Time) (containers : List Container) :
    containers.foldl (discoverContainer now containers) (hostFound now) =
      (hostFound now).extend now (containers.flatMap Container.mentions)
        (containers.flatMap (Container.relations · now containers)) :=
  foldl_extend (discoverContainer_eq containers) containers

theorem discover_assets (now : Time) (containers : List Container) : (discover now containers).assets =
      ((hostFound now).addAll now (containers.flatMap Container.mentions)).assets := by
  unfold discover
  rw [discover_eq]
  rfl

theorem discover_relationships (now : Time) (containers : List Container) :
    (discover now containers).relationships = containers.flatMap (Container.relations · now containers) := by
  unfold discover
  rw [discover_eq]
  rfl

variable {containers : List Container} {v : Container}

theorem byName_cases (containers : List Container) (k : String) :
    (byName containers k = "" ∧ ∀ v ∈ containers, v.name ≠ k) ∨
      ∃ v ∈ containers, v.name = k ∧ byName containers k = v.id := by
  have hfold : ∀ (cs : List Container) (m : String → String),
      ((cs.foldl (fun m v => Function.update m v.name v.id) m) k = m k ∧ ∀ v ∈ cs, v.name ≠ k) ∨
        ∃ v ∈ cs, v.name = k ∧ (cs.foldl (fun m v => Function.update m v.name v.id) m) k = v.id := by
    intro cs
    induction cs with
    | nil => exact fun m => .inl ⟨rfl, by simp⟩
    | cons v cs ih =>
      intro m
      rcases ih (Function.update m v.name v.id) with ⟨hkeep, hnone⟩ | ⟨w, hw, hname, hid⟩
      · by_cases hk : v.name = k
        · right
          refine ⟨v, .head _, hk, hkeep.trans ?_⟩
          rw [← hk, Function.update_self]
        · left
          exact ⟨hkeep.trans (Function.update_of_ne (Ne.symm hk) _ _), List.forall_mem_cons.mpr ⟨hk, hnone⟩⟩
      · exact .inr ⟨w, .tail _ hw, hname, hid⟩
  exact hfold containers _

theorem mem_links {l : String × String} : l ∈ v.links containers ↔
    l = ("docker-host", "RUNS_ON") ∨ l = (v.imageID, "USES_IMAGE") ∨
      (∃ n ∈ v.networkNames, l = ("network:" ++ n, "CONNECTED_TO")) ∨
      (∃ n ∈ v.volumes, l = ("volume:" ++ n, "USES_VOLUME")) ∨
      v.dependency containers ≠ "" ∧ l = (v.dependency containers, "CONNECTED_TO") := by
  unfold Container.links
  split_ifs with hdep <;> simp [hdep, eq_comm]

theorem link_type {l : String × String} (h : l ∈ v.links containers) :
    '\x00' ∉ l.2.toList ∧ l.2 ≠ "" ∧ byteLen l.2 ≤ 80 := by
  have hall : ∀ t ∈ ["RUNS_ON", "USES_IMAGE", "CONNECTED_TO", "USES_VOLUME"],
      '\x00' ∉ t.toList ∧ t ≠ "" ∧ byteLen t ≤ 80 := by decide
  rcases mem_links.mp h with rfl | rfl | ⟨n, -, rfl⟩ | ⟨n, -, rfl⟩ | ⟨-, rfl⟩
  all_goals exact hall _ (by simp)

theorem links_nodup_iff : (v.links containers).Nodup ↔
    v.volumes.Nodup ∧ ∀ n ∈ v.networkNames, v.dependency containers ≠ "network:" ++ n := by
  have hnetworks : (v.networkNames.map fun n => ("network:" ++ n, "CONNECTED_TO")).Nodup := by
    refine v.networks.nodup.map fun m n heq => ?_
    simpa using heq
  have hvolumes : (v.volumes.map fun n => ("volume:" ++ n, "USES_VOLUME")).Nodup ↔ v.volumes.Nodup := by
    refine List.nodup_map_iff fun m n heq => ?_
    simpa using heq
  have hempty : ∀ n, "" ≠ "network:" ++ n := by
    intro n heq
    have := congrArg byteLen heq
    rw [byteLen_append] at this
    have hnet : byteLen "network:" = 8 := rfl
    have hnil : byteLen "" = 0 := rfl
    omega
  have hothers : ([("docker-host", "RUNS_ON"), (v.imageID, "USES_IMAGE")] ++
      v.networkNames.map (fun n => ("network:" ++ n, "CONNECTED_TO")) ++
      v.volumes.map fun n => ("volume:" ++ n, "USES_VOLUME")).Nodup ↔ v.volumes.Nodup := by
    simp [List.nodup_append, hnetworks, hvolumes]
  unfold Container.links
  split_ifs with hdep
  · rw [List.nodup_append, hothers]
    apply and_congr_right
    intro _
    constructor
    · intro h n hn heq
      refine h.2 ("network:" ++ n, "CONNECTED_TO") ?_ _ (List.mem_singleton_self _) (by rw [heq])
      simp [hn]
    · intro h
      refine ⟨List.nodup_singleton _, fun l hl l' hl' heq => ?_⟩
      rw [heq, List.mem_singleton.mp hl'] at hl
      -- only a network has the type of the dependency
      have hnetwork : ∃ n ∈ v.networkNames, "network:" ++ n = v.dependency containers := by simpa using hl
      obtain ⟨n, hn, hdep⟩ := hnetwork
      exact h n hn hdep.symm
  · rw [List.append_nil, hothers]
    simp [not_not.mp hdep, hempty]

theorem keys_nodup_iff (v : Container) :
    ((v.relations now containers).map relationshipKey).Nodup ↔ (v.links containers).Nodup := by
  unfold Container.relations
  rw [List.map_map]
  constructor
  · exact List.Nodup.of_map _
  · intro h
    refine h.map_on fun l hl l' hl' heq => ?_
    obtain ⟨hpair, htype⟩ := linkKey_inj (link_type hl).1 (link_type hl').1 heq
    have hpair : v.id ++ "\x00" ++ l.1 = v.id ++ "\x00" ++ l'.1 := hpair
    have hto : l.1 = l'.1 := by simpa using hpair
    exact Prod.ext hto htype

/-- The keys of two containers meet exactly where the links look alike. -/
theorem keys_disjoint_iff (v w : Container) : List.Disjoint ((v.relations now containers).map relationshipKey)
        ((w.relations now containers).map relationshipKey) ↔
      ∀ a b t, (a, t) ∈ v.links containers → (b, t) ∈ w.links containers →
        v.id ++ "\x00" ++ a ≠ w.id ++ "\x00" ++ b := by
  unfold Container.relations
  rw [List.map_map, List.map_map]
  constructor
  · intro h a b t ha hb heq
    refine h (List.mem_map.mpr ⟨(a, t), ha, rfl⟩) (List.mem_map.mpr ⟨(b, t), hb, ?_⟩)
    show w.id ++ "\x00" ++ b ++ "\x00" ++ t = v.id ++ "\x00" ++ a ++ "\x00" ++ t
    rw [heq]
  · intro h key hv hw
    obtain ⟨⟨a, t⟩, ha, rfl⟩ := List.mem_map.mp hv
    obtain ⟨⟨b, t'⟩, hb, heq⟩ := List.mem_map.mp hw
    obtain ⟨hpair, rfl⟩ := linkKey_inj (link_type hb).1 (link_type ha).1 heq
    exact h a b t' ha hb hpair.symm

theorem linkedOnce_iff (hids : (containers.map (·.id)).Nodup) :
    ((containers.flatMap (Container.relations · now containers)).map relationshipKey).Nodup ↔
      LinkedOnce containers := by
  rw [List.map_flatMap, List.nodup_flatMap]
  simp only [keys_nodup_iff, links_nodup_iff]
  have hapart : containers.Pairwise (fun v w => v.id ≠ w.id) := List.pairwise_map.mp hids
  constructor
  · rintro ⟨hown, hpair⟩
    refine ⟨fun v hv => (hown v hv).1, fun v hv => (hown v hv).2, ?_⟩
    intro v hv w hw hne
    have hsymm : Std.Symm (Function.onFun List.Disjoint fun v : Container =>
        (v.relations now containers).map relationshipKey) := ⟨fun _ _ h => h.symm⟩
    apply (keys_disjoint_iff v w).mp
    exact hpair.forall hv hw fun heq => hne (congrArg _ heq)
  · intro h
    refine ⟨fun v hv => ⟨h.volumes v hv, h.dependency v hv⟩, ?_⟩
    exact hapart.imp_of_mem fun hv hw hne => (keys_disjoint_iff _ _).mpr (h.apart _ hv _ hw hne)

theorem hostFound_sound (hnow : now ≠ 0) : (hostFound now).Sound := by
  refine ⟨?_, by simp [hostFound, externalIDs], by simp [hostFound, externalIDs]⟩
  have hname : "docker-host" ≠ "" ∧ byteLen "docker-host" ≤ 1024 := by decide
  have htype : byteLen "PHYSICAL_HOST" ≤ 80 := by decide
  intro o ho
  rw [List.mem_singleton.mp ho]
  exact ⟨hname, htype, hnow, by simp [GoMap.single, GoMap.len], by simp [GoMap.len]⟩

theorem Container.Named.mentions (h : v.Named) : ∀ m ∈ v.mentions, m.Ok := by
  have hmarked : ∀ pre n : String, 0 < byteLen pre → byteLen pre ≤ 24 → byteLen n ≤ 1000 →
      pre ++ n ≠ "" ∧ byteLen (pre ++ n) ≤ 1024 := by
    intro pre n hpos hpre hn
    rw [byteLen_append]
    refine ⟨fun heq => ?_, by omega⟩
    have hlen := congrArg byteLen heq
    rw [byteLen_append, show byteLen "" = 0 from rfl] at hlen
    omega
  have htypes : ∀ t ∈ ["CONTAINER", "CONTAINER_IMAGE", "NETWORK", "VOLUME"], byteLen t ≤ 80 := by decide
  intro m hm
  simp only [Container.mentions, List.mem_append, List.mem_cons, List.not_mem_nil, or_false, List.mem_map] at hm
  rcases hm with ((rfl | rfl) | ⟨n, hn, rfl⟩) | ⟨n, hn, rfl⟩
  · exact ⟨⟨h.id.1, h.id.2.trans (by omega)⟩, htypes _ (by simp), by simp [GoMap.single, GoMap.len]⟩
  · exact ⟨⟨h.imageID.1, h.imageID.2.trans (by omega)⟩, htypes _ (by simp), by simp [GoMap.single, GoMap.len]⟩
  · exact ⟨hmarked "network:" n (by decide) (by decide) (h.networks n hn), htypes _ (by simp),
      by simp [GoMap.nil, GoMap.len]⟩
  · exact ⟨hmarked "volume:" n (by decide) (by decide) (h.volumes n hn), htypes _ (by simp),
      by simp [GoMap.nil, GoMap.len]⟩

section

variable (hnamed : ∀ v ∈ containers, v.Named)

include hnamed in
theorem discovered_sound (hnow : now ≠ 0) :
    ((hostFound now).addAll now (containers.flatMap Container.mentions)).Sound ∧
      ∀ x, x ∈ externalIDs (discover now containers).assets ↔
        x ∈ (containers.flatMap Container.mentions).map (·.id) ∨ x = "docker-host" := by
  have hok : ∀ m ∈ containers.flatMap Container.mentions, m.Ok := by
    intro m hm
    obtain ⟨v, hv, hm⟩ := List.mem_flatMap.mp hm
    exact (hnamed v hv).mentions m hm
  obtain ⟨hsound, hmem⟩ := (hostFound_sound hnow).addAll hnow hok
  refine ⟨hsound, fun x => ?_⟩
  rw [discover_assets, hmem]
  simp [hostFound, externalIDs]

include hnamed in
theorem relations_sendable (hnow : now ≠ 0) : ∀ r ∈ containers.flatMap (Container.relations · now containers),
      r.Sendable (externalIDs (discover now containers).assets) := by
  have hmem := (discovered_sound hnamed hnow).2
  have hmention : ∀ v ∈ containers, ∀ m ∈ v.mentions, m.id ∈ externalIDs (discover now containers).assets := by
    intro v hv m hm
    exact (hmem _).mpr (.inl (List.mem_map_of_mem (List.mem_flatMap.mpr ⟨v, hv, hm⟩)))
  have hcontainer : ∀ v ∈ containers, v.id ∈ externalIDs (discover now containers).assets :=
    fun v hv => hmention v hv _ (.head _)
  intro r hr
  obtain ⟨v, hv, hr⟩ := List.mem_flatMap.mp hr
  obtain ⟨l, hl, rfl⟩ := List.mem_map.mp hr
  refine ⟨hcontainer v hv, ?_, (link_type hl).2, hnow, by simp [relation, GoMap.len]⟩
  rcases mem_links.mp hl with rfl | rfl | ⟨n, hn, rfl⟩ | ⟨n, hn, rfl⟩ | ⟨hdep, rfl⟩
  · exact (hmem _).mpr (.inr rfl)
  · exact hmention v hv ⟨v.imageID, _, _, _⟩ (.tail _ (.head _))
  · refine hmention v hv ⟨"network:" ++ n, "NETWORK", n, .nil⟩ ?_
    simp [Container.mentions, hn]
  · refine hmention v hv ⟨"volume:" ++ n, "VOLUME", n, .nil⟩ ?_
    simp [Container.mentions, hn]
  · rcases byName_cases containers ((v.labels.get "com.infragraph.depends-on").getD "") with
      ⟨hnone, -⟩ | ⟨w, hw, -, hid⟩
    · exact absurd hnone hdep
    · unfold Container.dependency
      rw [hid]
      exact hcontainer w hw

include hnamed in
/-- The snapshot that `runOnce` builds from what Docker lists is accepted exactly
when every container is related to each thing once. -/
theorem discover_accepted_iff [Hashes] [Signatures] {id : Identity} {sequence : ℤ} {startedAt completedAt : Time}
    (hrun : id.Runs sequence startedAt completedAt) (hsum : ∀ bs, (sum256 bs).length ≤ 32) (hnow : now ≠ 0)
    (hids : (containers.map (·.id)).Nodup) (hassets : (discover now containers).assets.length ≤ 100000)
    (hrelations : (discover now containers).relationships.length ≤ 250000) :
    validSnapshotContract (newSnapshot id sequence startedAt completedAt (discover now containers)) = true ↔
      LinkedOnce containers := by
  have hsound := (discovered_sound hnamed hnow).1
  rw [valid_newSnapshot_iff hrun hsum, discover_relationships, linkedOnce_iff hids]
  constructor
  · exact fun h => h.2.2.2
  · intro h
    rw [discover_relationships] at hrelations
    refine ⟨⟨hassets, hrelations⟩, ?_, relations_sendable hnamed hnow, h⟩
    rw [discover_assets]
    exact ⟨hsound.sendable, hsound.nodup⟩

end

def Container.dependsOn (v : Container) : Option String := v.labels.get "com.infragraph.depends-on"

/-- `Discover` relates the one container to the other. -/
def Related (now : Time) (containers : List Container) (type : String) (c t : Container) : Prop :=
  ∃ r ∈ (discover now containers).relationships, r.externalFromID = c.id ∧ r.externalToID = t.id ∧ r.type = type

/-- Containers are related by the label alone: to the container that it names, and
without it to none. -/
structure FollowsLabels (now : Time) (containers : List Container) : Prop where
  labelled : ∀ c ∈ containers, ∀ t ∈ containers,
    Related now containers "CONNECTED_TO" c t ↔ t.name ≠ "" ∧ c.dependsOn = some t.name
  unlabelled : ∀ c ∈ containers, c.dependsOn = none → ∀ t ∈ containers, ∀ type, ¬ Related now containers type c t

/-- Every container has a name, or every one a label that is not empty; and no
container has the ID of something else that a container is related to. -/
structure Unmistakable (containers : List Container) : Prop where
  named : (∀ t ∈ containers, t.name ≠ "") ∨ ∀ c ∈ containers, c.dependsOn.getD "" ≠ ""
  networks : ∀ c ∈ containers, ∀ n ∈ c.networkNames, ∀ t ∈ containers, t.id = "network:" ++ n →
    t.name ≠ "" ∧ c.dependsOn = some t.name
  unlabelled : ∀ c ∈ containers, c.dependsOn = none → ∀ t ∈ containers,
    t.id ≠ "docker-host" ∧ t.id ≠ c.imageID ∧ ∀ n ∈ c.volumes, t.id ≠ "volume:" ++ n

section

variable {c t : Container} (hids : (containers.map (·.id)).Nodup)

include hids in
theorem related_iff {type : String} (hc : c ∈ containers) :
    Related now containers type c t ↔ (t.id, type) ∈ c.links containers := by
  unfold Related
  rw [discover_relationships]
  constructor
  · rintro ⟨r, hr, hfrom, hto, htype⟩
    obtain ⟨v, hv, hr⟩ := List.mem_flatMap.mp hr
    obtain ⟨l, hl, rfl⟩ := List.mem_map.mp hr
    obtain rfl : v = c := List.inj_on_of_nodup_map hids hv hc hfrom
    have hlink : l = (t.id, type) := Prod.ext hto htype
    exact hlink ▸ hl
  · intro hl
    refine ⟨relation c.id t.id type now, List.mem_flatMap.mpr ⟨c, hc, ?_⟩, rfl, rfl, rfl⟩
    exact List.mem_map.mpr ⟨_, hl, rfl⟩

variable (hid : ∀ v ∈ containers, v.id ≠ "") (hnames : ((containers.map (·.name)).filter (· ≠ "")).Nodup)

include hnames in
theorem eq_of_name (hv : v ∈ containers) (ht : t ∈ containers) (hnamed : t.name ≠ "")
    (h : v.name = t.name) : v = t := by
  rw [List.filter_map] at hnames
  have hkeep : ∀ w ∈ containers, w.name ≠ "" → w ∈ containers.filter ((fun n => decide (n ≠ "")) ∘ (·.name)) := by
    intro w hw hname
    exact List.mem_filter.mpr ⟨hw, by simpa using hname⟩
  exact List.inj_on_of_nodup_map hnames (hkeep v hv (h ▸ hnamed)) (hkeep t ht hnamed) h

include hids hid hnames in
/-- A label that is not empty leads to the container it names. -/
theorem dependency_iff (ht : t ∈ containers) (hlabel : c.dependsOn.getD "" ≠ "") :
    c.dependency containers = t.id ↔ t.name = c.dependsOn.getD "" := by
  have hdep : c.dependency containers = byName containers (c.dependsOn.getD "") := rfl
  rw [hdep]
  rcases byName_cases containers (c.dependsOn.getD "") with ⟨hnone, hall⟩ | ⟨v, hv, hname, hlast⟩
  · rw [hnone]
    exact ⟨fun h => absurd h.symm (hid t ht), fun h => absurd h (hall t ht)⟩
  · rw [hlast]
    constructor
    · intro h
      rw [← List.inj_on_of_nodup_map hids hv ht h]
      exact hname
    · intro h
      rw [eq_of_name hnames hv ht (h ▸ hlabel) (hname.trans h.symm)]

include hid in
/-- Without a label, or with an empty one, a container leads to one without a name. -/
theorem dependency_nameless (ht : t ∈ containers) (hname : t.name = "") (hlabel : c.dependsOn.getD "" = "") :
    ∃ v ∈ containers, v.name = "" ∧ c.dependency containers = v.id ∧ v.id ≠ "" := by
  have hdep : c.dependency containers = byName containers "" := by
    rw [← hlabel]
    rfl
  rw [hdep]
  rcases byName_cases containers "" with ⟨-, hall⟩ | ⟨v, hv, hvname, hlast⟩
  · exact absurd hname (hall t ht)
  · exact ⟨v, hv, hvname, hlast, hid v hv⟩

include hids hid hnames in
theorem Unmistakable.dependency (h : Unmistakable containers) (hc : c ∈ containers) (ht : t ∈ containers) :
    c.dependency containers = t.id ↔ t.name ≠ "" ∧ c.dependsOn = some t.name := by
  by_cases hlabel : c.dependsOn.getD "" = ""
  · have hnone : c.dependency containers = "" := by
      have hdep : c.dependency containers = byName containers "" := by
        rw [← hlabel]
        rfl
      rcases byName_cases containers "" with ⟨hnone, -⟩ | ⟨v, hv, hvname, -⟩
      · exact hdep.trans hnone
      · cases h.named with
        | inl hall => exact absurd hvname (hall v hv)
        | inr hall => exact absurd hlabel (hall c hc)
    rw [hnone]
    constructor
    · exact fun heq => absurd heq.symm (hid t ht)
    · rintro ⟨hname, hsome⟩
      rw [hsome] at hlabel
      exact absurd hlabel hname
  · rw [dependency_iff hids hid hnames ht hlabel]
    cases hsome : c.dependsOn with
    | none => simp [hsome] at hlabel
    | some label =>
      rw [hsome] at hlabel
      simp only [Option.getD_some, Option.some.injEq] at hlabel ⊢
      exact ⟨fun heq => ⟨heq ▸ hlabel, heq.symm⟩, fun heq => heq.2.symm⟩

include hids hid hnames in
theorem Unmistakable.connected (h : Unmistakable containers) (hc : c ∈ containers) (ht : t ∈ containers) :
    (t.id, "CONNECTED_TO") ∈ c.links containers ↔ t.name ≠ "" ∧ c.dependsOn = some t.name := by
  have hdep := h.dependency hids hid hnames hc ht
  rw [mem_links]
  constructor
  · rintro (heq | heq | ⟨n, hn, heq⟩ | ⟨n, -, heq⟩ | ⟨-, heq⟩)
    · exact absurd (congrArg Prod.snd heq) (by decide : "CONNECTED_TO" ≠ "RUNS_ON")
    · exact absurd (congrArg Prod.snd heq) (by decide : "CONNECTED_TO" ≠ "USES_IMAGE")
    · exact h.networks c hc n hn t ht (congrArg Prod.fst heq)
    · exact absurd (congrArg Prod.snd heq) (by decide : "CONNECTED_TO" ≠ "USES_VOLUME")
    · exact hdep.mp (congrArg Prod.fst heq).symm
  · intro hlabel
    have hid' := hdep.mpr hlabel
    exact .inr (.inr (.inr (.inr ⟨hid' ▸ hid t ht, by rw [hid']⟩)))

end

/-- The relationships between containers follow the label exactly when nothing else
is taken for it. -/
theorem dependencies_iff (now : Time) (containers : List Container) (hids : (containers.map (·.id)).Nodup)
    (hid : ∀ v ∈ containers, v.id ≠ "") (hnames : ((containers.map (·.name)).filter (· ≠ "")).Nodup) :
    FollowsLabels now containers ↔ Unmistakable containers := by
  constructor
  · intro h
    have hconnected : ∀ c ∈ containers, ∀ t ∈ containers, (t.id, "CONNECTED_TO") ∈ c.links containers →
        t.name ≠ "" ∧ c.dependsOn = some t.name :=
      fun c hc t ht hlink => (h.labelled c hc t ht).mp ((related_iff hids hc).mpr hlink)
    refine ⟨?_, ?_, ?_⟩
    · by_contra hboth
      push Not at hboth
      obtain ⟨⟨t, ht, hname⟩, c, hc, hlabel⟩ := hboth
      obtain ⟨v, hv, hvname, hdep, hne⟩ := dependency_nameless hid ht hname hlabel
      refine (hconnected c hc v hv (mem_links.mpr ?_)).1 hvname
      simp [hdep, hne]
    · intro c hc n hn t ht heq
      refine hconnected c hc t ht (mem_links.mpr ?_)
      simp [heq, hn]
    · intro c hc hnone t ht
      have hother : ∀ type, (t.id, type) ∉ c.links containers :=
        fun type hlink => h.unlabelled c hc hnone t ht type ((related_iff hids hc).mpr hlink)
      simp only [mem_links, not_or] at hother
      refine ⟨fun heq => ?_, fun heq => ?_, fun n hn heq => ?_⟩
      · exact (hother "RUNS_ON").1 (by rw [heq])
      · exact (hother "USES_IMAGE").2.1 (by rw [heq])
      · exact (hother "USES_VOLUME").2.2.2.1 ⟨n, hn, by rw [heq]⟩
  · intro h
    refine ⟨fun c hc t ht => (related_iff hids hc).trans (h.connected hids hid hnames hc ht), ?_⟩
    intro c hc hnone t ht type hrel
    obtain ⟨hhost, himage, hvolumes⟩ := h.unlabelled c hc hnone t ht
    have hnot : ¬ (t.name ≠ "" ∧ c.dependsOn = some t.name) := by simp [hnone]
    rcases mem_links.mp ((related_iff hids hc).mp hrel) with heq | heq | ⟨n, hn, heq⟩ | ⟨n, hn, heq⟩ | ⟨-, heq⟩
    · exact hhost (congrArg Prod.fst heq)
    · exact himage (congrArg Prod.fst heq)
    · exact hnot (h.networks c hc n hn t ht (congrArg Prod.fst heq))
    · exact hvolumes n hn (congrArg Prod.fst heq)
    · exact hnot ((h.dependency hids hid hnames hc ht).mp (congrArg Prod.fst heq).symm)

section

attribute [local instance] toy plainSignatures

def web : Container :=
  { id := "c1", names := ["/web"], image := "web:1", imageID := "sha256:aa"
    labels := .single "com.infragraph.depends-on" "db", networks := .single "backend" .null
    mounts := [⟨"data", "volume"⟩, ⟨"", "volume"⟩, ⟨"data", "bind"⟩] }

def database : Container :=
  { id := "c2", names := ["", "/db"], image := "db:1", imageID := "sha256:bb", labels := .nil
    networks := .single "backend" .null, mounts := [] }

theorem fleet_named : ∀ v ∈ [web, database], v.Named := by
  intro v hv
  rcases List.mem_pair.mp hv with rfl | rfl
  · exact ⟨by decide, by decide, by decide, by decide⟩
  · exact ⟨by decide, by decide, by decide, by decide⟩

theorem smallIdentity_runs : smallIdentity.Runs 7 1000 2000 :=
  ⟨by decide, by decide, by decide, by decide, by decide, by decide, by decide⟩

theorem toy_sum (bs : List UInt8) : (sum256 bs).length ≤ 32 := by
  show (toyHash bs).length ≤ 32
  simp [toyHash]

theorem fleet_linkedOnce : LinkedOnce [web, database] := by
  refine ⟨by decide, by decide, ?_⟩
  intro v hv w hw hne a b t _ _ heq
  have hstart := congrArg (fun s => s.toList.take 2) heq
  rcases List.mem_pair.mp hv with rfl | rfl <;> rcases List.mem_pair.mp hw with rfl | rfl
  · exact hne rfl
  · simp [web, database] at hstart
  · simp [web, database] at hstart
  · exact hne rfl

/-- Two containers that share a network and depend on each other are accepted. -/
theorem discover_accepted_fleet :
    validSnapshotContract (newSnapshot smallIdentity 7 1000 2000 (discover 1500 [web, database])) = true :=
  (discover_accepted_iff fleet_named smallIdentity_runs toy_sum (by decide) (by decide) (by decide)
    (by decide)).mpr fleet_linkedOnce

theorem dependencies_fleet : FollowsLabels 1500 [web, database] :=
  (dependencies_iff 1500 [web, database] (by decide) (by decide) (by decide)).mpr
    ⟨by decide, by decide, by decide⟩

def nameless : Container := { database with id := "c3", names := [] }

/-- An unlabelled container beside one without a name is connected to it. -/
theorem unlabelled_connected :
    ([database, nameless].map (·.id)).Nodup ∧ (([database, nameless].map (·.name)).filter (· ≠ "")).Nodup ∧
      database.dependsOn = none ∧ nameless.name = "" ∧
      Related 1500 [database, nameless] "CONNECTED_TO" database nameless := by
  refine ⟨by decide, by decide, rfl, rfl, ?_⟩
  unfold Related
  decide

def twiceMounted : Container := { web with mounts := [⟨"data", "volume"⟩, ⟨"data", "volume"⟩] }

theorem twice_mounted_refused : twiceMounted.Named ∧ (discover 1500 [twiceMounted]).assets.length = 5 ∧
      (discover 1500 [twiceMounted]).relationships.length = 5 ∧
      validSnapshotContract (newSnapshot smallIdentity 7 1000 2000 (discover 1500 [twiceMounted])) = false := by
  refine ⟨⟨by decide, by decide, by decide, by decide⟩, by decide, by decide, ?_⟩
  decide +kernel

end

end Infragraph.Docker
