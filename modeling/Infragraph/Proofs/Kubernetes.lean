import Infragraph.Proofs.Docker
import Infragraph.Spec.Kubernetes

/-! The Kubernetes connector and the contract. The connector's own limit counts
the listed resources but not the cluster it adds, and it has no limit on
relationships; everything else it sends is accepted. -/

namespace Infragraph.Kubernetes

variable {c : Connector} {api : Api} {x a b t : String} {now : Time}

def Discovered.Listed (v : Discovered) : Prop := v.item.uid ≠ "" ∧ v.resource ∈ resources

/-- What holds of every resource with a name and a UID holds of what is collected. -/
theorem collect_all {items : List Discovered} {P : Discovered → Prop}
    (hP : ∀ r ∈ resources, ∀ value : Item, ¬ (value.uid = "" ∨ value.name = "") → P ⟨r, value⟩)
    (h : c.collect api = .ok items) : ∀ v ∈ items, P v := by
  refine List.foldlM_ok (I := fun items => ∀ v ∈ items, P v) h (by simp) fun r hr items items' hitems hstep => ?_
  cases hlist : c.list api r.path with
  | error e =>
    rw [hlist] at hstep
    cases hstep
  | ok listed =>
    rw [hlist] at hstep
    refine List.foldlM_ok (I := fun items => ∀ v ∈ items, P v) hstep hitems fun value _ items items' hitems hone => ?_
    unfold Connector.collectItem at hone
    split_ifs at hone with hnamed
    dsimp only at hone
    split_ifs at hone
    cases hone
    intro v hv
    rcases List.mem_append.mp hv with hv | hv
    · exact hitems v hv
    · rw [List.mem_singleton.mp hv]
      exact hP r hr value hnamed

theorem collect_listed {items : List Discovered} (h : c.collect api = .ok items) : ∀ v ∈ items, v.Listed :=
  collect_all (fun _ hr _ hnamed => ⟨fun huid => hnamed (.inl huid), hr⟩) h

theorem collect_named {items : List Discovered} (h : c.collect api = .ok items) : ∀ v ∈ items, v.item.name ≠ "" :=
  collect_all (fun _ _ _ hnamed hname => hnamed (.inr hname)) h

variable {items : List Discovered} {cluster : String}

theorem lastUID_cases (items : List Discovered) (keyOf : Discovered → Option String) (key : String) :
    (lastUID items keyOf key = "" ∧ ∀ v ∈ items, keyOf v ≠ some key) ∨
      ∃ v ∈ items, keyOf v = some key ∧ lastUID items keyOf key = v.item.uid := by
  have hfold : ∀ (vs : List Discovered) (uid : String),
      (vs.foldl (fun uid v => if keyOf v = some key then v.item.uid else uid) uid = uid ∧
          ∀ v ∈ vs, keyOf v ≠ some key) ∨
        ∃ v ∈ vs, keyOf v = some key ∧
          vs.foldl (fun uid v => if keyOf v = some key then v.item.uid else uid) uid = v.item.uid := by
    intro vs
    induction vs with
    | nil => exact fun uid => .inl ⟨rfl, by simp⟩
    | cons v vs ih =>
      intro uid
      rw [List.foldl_cons]
      rcases ih (if keyOf v = some key then v.item.uid else uid) with ⟨hkeep, hnone⟩ | ⟨w, hw, hkey, huid⟩
      · rw [hkeep]
        split_ifs with hv
        · exact .inr ⟨v, .head _, hv, rfl⟩
        · exact .inl ⟨rfl, List.forall_mem_cons.mpr ⟨hv, hnone⟩⟩
      · exact .inr ⟨w, .tail _ hw, hkey, huid⟩
  exact hfold items ""

theorem lastUID_listed {keyOf : Discovered → Option String} {key : String} (h : lastUID items keyOf key ≠ "") :
    ∃ v ∈ items, v.item.uid = lastUID items keyOf key := by
  rcases lastUID_cases items keyOf key with ⟨hnone, -⟩ | ⟨v, hv, -, huid⟩
  · exact absurd hnone h
  · exact ⟨v, hv, huid.symm⟩

theorem byName_inj (huids : (items.map (·.item.uid)).Nodup) {k k' : String} (h : byName items k ≠ "")
    (heq : byName items k = byName items k') : k = k' := by
  obtain ⟨hnone, -⟩ | ⟨v, hv, hkey, huid⟩ := lastUID_cases items (fun v => some v.fullName) k
  · exact absurd hnone h
  obtain ⟨hnone, -⟩ | ⟨w, hw, hkey', huid'⟩ := lastUID_cases items (fun v => some v.fullName) k'
  · exact absurd (heq.trans hnone) h
  have hvw : v = w := List.inj_on_of_nodup_map huids hv hw (huid.symm.trans (heq.trans huid'))
  subst hvw
  exact Option.some.inj (hkey.symm.trans hkey')

theorem ingressServices_nodup (value : Item) : (ingressServices value).Nodup := by
  have hfold : ∀ (names out : List String), out.Nodup →
      (names.foldl (fun out name => if name ≠ "" ∧ name ∉ out then out ++ [name] else out) out).Nodup := by
    intro names
    induction names with
    | nil => exact fun out h => h
    | cons name names ih =>
      intro out h
      apply ih
      dsimp only
      split_ifs with hnew
      · rw [← List.concat_eq_append, List.nodup_concat]
        exact ⟨hnew.2, h⟩
      · exact h
  exact hfold _ [] List.nodup_nil

def present (uid : String) : List String := if uid ≠ "" then [uid] else []

theorem mem_present {uid : String} : x ∈ present uid ↔ uid ≠ "" ∧ x = uid := by
  unfold present
  split_ifs with h <;> simp [h]

theorem present_nodup (uid : String) : (present uid).Nodup := by
  unfold present
  split_ifs <;> simp

section

variable (items : List Discovered) (cluster : String) (v : Discovered)

def Discovered.managers : List String :=
  v.item.ownerUIDs.filter ((cluster :: items.map (·.item.uid)).contains ·)

def Discovered.service : List String :=
  if v.item.serviceName ≠ "" then
    present (byName items (namespacedName v.item.namespaceName "Service" v.item.serviceName))
  else []

def Discovered.volume : List String :=
  if v.item.volumeName ≠ "" then
    present (byName items (namespacedName "" "PersistentVolume" v.item.volumeName))
  else []

def Discovered.selected : List String :=
  if v.resource.kind = "Service" ∧ selectorLabels v.item.selector ≠ [] then
    ((items.filter (·.resource.kind = "Pod")).filter fun pod => pod.item.namespaceName = v.item.namespaceName ∧
      labelsMatch (selectorLabels v.item.selector) pod.item.labels).map (·.item.uid)
  else []

def Discovered.backends : List String :=
  if v.resource.kind = "Ingress" then
    (ingressServices v.item).flatMap fun name =>
      present (byName items (namespacedName v.item.namespaceName "Service" name))
  else []

def Discovered.targets : List (String × List String) :=
  [("MANAGED_BY", v.managers items cluster), ("RUNS_ON", present (byNode items v.item.nodeName)),
    ("USES_SERVICE", v.service items), ("BOUND_TO", v.volume items),
    ("ROUTES_TO", v.selected items ++ v.backends items)]

def Discovered.links : List (String × String × String) :=
  (parent items cluster v, v.item.uid, "CONTAINS") ::
    (v.targets items cluster).flatMap fun t => t.2.map fun target => (v.item.uid, target, t.1)

end

theorem relationTo_eq (now : Time) (uid target type : String) :
    relationTo now uid target type = (present target).map fun x => relation uid x type now := by
  unfold relationTo present
  split_ifs <;> rfl

theorem relations_eq (now : Time) (v : Discovered) :
    v.relations now items cluster = (v.links items cluster).map fun l => relation l.1 l.2.1 l.2.2 now := by
  unfold Discovered.relations Discovered.links Discovered.targets Discovered.managers Discovered.service
    Discovered.volume Discovered.selected Discovered.backends
  simp only [relationTo_eq, List.map_cons, List.flatMap_cons, List.flatMap_nil, List.map_append, List.map_map,
    List.append_nil, List.append_assoc, List.singleton_append]
  split_ifs <;> simp [Function.comp_def, List.map_flatMap]

variable {v : Discovered}

theorem mem_managers : x ∈ v.managers items cluster ↔
    x ∈ v.item.ownerUIDs ∧ (x = cluster ∨ ∃ w ∈ items, w.item.uid = x) := by
  unfold Discovered.managers
  rw [List.mem_filter, List.contains_iff_mem, List.mem_cons, List.mem_map]

theorem mem_service : x ∈ v.service items ↔ v.item.serviceName ≠ "" ∧
    byName items (namespacedName v.item.namespaceName "Service" v.item.serviceName) = x ∧ x ≠ "" := by
  unfold Discovered.service
  split_ifs with hname
  · rw [mem_present]
    grind
  · simp [hname]

theorem mem_volume : x ∈ v.volume items ↔ v.item.volumeName ≠ "" ∧
    byName items (namespacedName "" "PersistentVolume" v.item.volumeName) = x ∧ x ≠ "" := by
  unfold Discovered.volume
  split_ifs with hname
  · rw [mem_present]
    grind
  · simp [hname]

theorem labelsMatch_selector {selector : List (String × String)} {labels : GoMap String}
    (h : labelsMatch selector labels = true) : selector ≠ [] := by
  rintro rfl
  simp [labelsMatch] at h

theorem mem_selected : x ∈ v.selected items ↔ v.resource.kind = "Service" ∧
    ∃ pod ∈ items, pod.resource.kind = "Pod" ∧ pod.item.namespaceName = v.item.namespaceName ∧
      labelsMatch (selectorLabels v.item.selector) pod.item.labels = true ∧ pod.item.uid = x := by
  unfold Discovered.selected
  split_ifs with hkind
  · simp only [hkind.1, List.mem_map, List.mem_filter, decide_eq_true_eq, true_and]
    grind
  · constructor
    · intro h
      cases h
    · rintro ⟨hservice, pod, -, -, -, hmatch, -⟩
      exact absurd ⟨hservice, labelsMatch_selector hmatch⟩ hkind

theorem mem_backends : x ∈ v.backends items ↔ v.resource.kind = "Ingress" ∧
    ∃ name ∈ ingressServices v.item,
      byName items (namespacedName v.item.namespaceName "Service" name) = x ∧ x ≠ "" := by
  unfold Discovered.backends
  split_ifs with hkind
  · simp only [List.mem_flatMap, mem_present, hkind, true_and]
    grind
  · simp [hkind]

theorem mem_map_link {targets : List String} {uid t' : String} :
    (a, b, t) ∈ targets.map (fun target => (uid, target, t')) ↔ a = uid ∧ t = t' ∧ b ∈ targets := by
  simp only [List.mem_map, Prod.mk.injEq]
  constructor
  · rintro ⟨target, htarget, rfl, rfl, rfl⟩
    exact ⟨rfl, rfl, htarget⟩
  · rintro ⟨rfl, rfl, hb⟩
    exact ⟨b, hb, rfl, rfl, rfl⟩

theorem mem_links : (a, b, t) ∈ v.links items cluster ↔
    (a = parent items cluster v ∧ b = v.item.uid ∧ t = "CONTAINS") ∨
      a = v.item.uid ∧ ((t = "MANAGED_BY" ∧ b ∈ v.managers items cluster) ∨
        (t = "RUNS_ON" ∧ b ∈ present (byNode items v.item.nodeName)) ∨
        (t = "USES_SERVICE" ∧ b ∈ v.service items) ∨ (t = "BOUND_TO" ∧ b ∈ v.volume items) ∨
        (t = "ROUTES_TO" ∧ (b ∈ v.selected items ∨ b ∈ v.backends items))) := by
  unfold Discovered.links Discovered.targets
  simp only [List.mem_cons, Prod.mk.injEq, List.flatMap_cons, List.flatMap_nil, List.append_nil, List.mem_append,
    mem_map_link, and_or_left]

theorem link_iff : Link items cluster a b t ↔ ∃ v ∈ items, (a, b, t) ∈ v.links items cluster := by
  simp only [mem_links, mem_managers, mem_present, mem_service, mem_volume, mem_selected, mem_backends]
  constructor
  · intro h
    cases h with
    | contains hv => exact ⟨_, hv, .inl ⟨rfl, rfl, rfl⟩⟩
    | managedBy hv howner hlisted => exact ⟨_, hv, .inr ⟨rfl, .inl ⟨rfl, howner, hlisted⟩⟩⟩
    | runsOn hv hnode hsome => exact ⟨_, hv, by grind⟩
    | usesService hv hname hservice hsome => exact ⟨_, hv, by grind⟩
    | boundTo hv hname hvolume hsome => exact ⟨_, hv, by grind⟩
    | selects hv hkind hpod hpodKind hnamespace hmatch => exact ⟨_, hv, by grind⟩
    | routes hv hkind hname hservice hsome => exact ⟨_, hv, by grind⟩
  · rintro ⟨v, hv, ⟨rfl, rfl, rfl⟩ | ⟨rfl, h⟩⟩
    · exact .contains hv
    · rcases h with ⟨rfl, howner, hlisted⟩ | ⟨rfl, hsome, rfl⟩ | ⟨rfl, hname, hservice, hsome⟩ |
        ⟨rfl, hname, hvolume, hsome⟩ | ⟨rfl, ⟨hkind, pod, hpod, hpodKind, hnamespace, hmatch, rfl⟩ |
          ⟨hkind, name, hname, hservice, hsome⟩⟩
      · exact .managedBy hv howner hlisted
      · exact .runsOn hv rfl hsome
      · exact .usesService hv hname hservice hsome
      · exact .boundTo hv hname hvolume hsome
      · exact .selects hv hkind hpod hpodKind hnamespace hmatch
      · exact .routes hv hkind hname hservice hsome

/-- A link is told by its target if it is a containment, else by its origin. -/
theorem link_own (h : (a, b, t) ∈ v.links items cluster) :
    (t = "CONTAINS" ∧ b = v.item.uid) ∨ (t ≠ "CONTAINS" ∧ a = v.item.uid) := by
  rcases mem_links.mp h with ⟨-, hb, ht⟩ | ⟨ha, hrest⟩
  · exact .inl ⟨ht, hb⟩
  · refine .inr ⟨?_, ha⟩
    rcases hrest with ⟨rfl, -⟩ | ⟨rfl, -⟩ | ⟨rfl, -⟩ | ⟨rfl, -⟩ | ⟨rfl, -⟩
    all_goals decide

def linkTypes : List String := ["CONTAINS", "MANAGED_BY", "RUNS_ON", "USES_SERVICE", "BOUND_TO", "ROUTES_TO"]

theorem linkTypes_ok : ∀ t ∈ linkTypes, '\x00' ∉ t.toList ∧ t ≠ "" ∧ byteLen t ≤ 80 := by decide

theorem Link.type (h : Link items cluster a b t) : t ∈ linkTypes := by
  cases h <;> simp [linkTypes]

theorem Link.ends (h : Link items cluster a b t) :
    a ∈ cluster :: items.map (·.item.uid) ∧ b ∈ cluster :: items.map (·.item.uid) := by
  have huid : ∀ v ∈ items, v.item.uid ∈ cluster :: items.map (·.item.uid) := fun v hv =>
    List.mem_cons_of_mem _ (List.mem_map_of_mem hv)
  have hfound : ∀ {keyOf : Discovered → Option String} {key : String}, lastUID items keyOf key ≠ "" →
      lastUID items keyOf key ∈ cluster :: items.map (·.item.uid) := by
    intro keyOf key hsome
    obtain ⟨v, hv, heq⟩ := lastUID_listed hsome
    rw [← heq]
    exact huid v hv
  cases h with
  | contains hv =>
    refine ⟨?_, huid _ hv⟩
    unfold parent
    split_ifs with hlisted
    · exact hfound hlisted.2
    · exact .head _
  | managedBy hv howner hlisted =>
    refine ⟨huid _ hv, ?_⟩
    rcases hlisted with rfl | ⟨w, hw, rfl⟩
    · exact .head _
    · exact huid w hw
  | runsOn hv hnode hsome =>
    subst hnode
    exact ⟨huid _ hv, hfound hsome⟩
  | usesService hv _ hservice hsome =>
    subst hservice
    exact ⟨huid _ hv, hfound hsome⟩
  | boundTo hv _ hvolume hsome =>
    subst hvolume
    exact ⟨huid _ hv, hfound hsome⟩
  | selects hv _ hpod _ _ _ => exact ⟨huid _ hv, huid _ hpod⟩
  | routes hv _ _ hservice hsome =>
    subst hservice
    exact ⟨huid _ hv, hfound hsome⟩

/-- The UIDs tell the resources apart, and the owners of each. -/
structure Told (items : List Discovered) : Prop where
  uids : (items.map (·.item.uid)).Nodup
  owners : ∀ v ∈ items, v.item.ownerUIDs.Nodup

theorem Distinct.told (h : Distinct items cluster) : Told items := ⟨h.uids, h.owners⟩

section

variable (hd : Told items)

include hd in
theorem backends_nodup : (v.backends items).Nodup := by
  unfold Discovered.backends
  split_ifs
  · rw [List.nodup_flatMap]
    refine ⟨fun _ _ => present_nodup _, (ingressServices_nodup v.item).imp fun {name name'} hne => ?_⟩
    intro uid huid huid'
    rw [mem_present] at huid huid'
    have hkey := byName_inj hd.uids huid.1 (huid.2.symm.trans huid'.2)
    apply hne
    simpa [namespacedName] using hkey
  · exact List.nodup_nil

include hd in
theorem selected_nodup : (v.selected items).Nodup := by
  unfold Discovered.selected
  split_ifs
  · refine List.Nodup.sublist ?_ hd.uids
    exact (List.filter_sublist.trans List.filter_sublist).map _
  · exact List.nodup_nil

include hd in
theorem targets_nodup (hv : v ∈ items) : ∀ t ∈ v.targets items cluster, t.2.Nodup := by
  intro t ht
  simp only [Discovered.targets, List.mem_cons, List.not_mem_nil, or_false] at ht
  rcases ht with rfl | rfl | rfl | rfl | rfl
  · exact (hd.owners v hv).filter _
  · exact present_nodup _
  · dsimp only [Discovered.service]
    split_ifs
    · exact present_nodup _
    · exact List.nodup_nil
  · dsimp only [Discovered.volume]
    split_ifs
    · exact present_nodup _
    · exact List.nodup_nil
  · refine List.nodup_append.mpr ⟨selected_nodup hd, backends_nodup hd, ?_⟩
    -- a service is no ingress
    intro a ha b hb _
    have hkind := (mem_selected.mp ha).1.symm.trans (mem_backends.mp hb).1
    exact absurd hkind (by decide)

include hd in
theorem links_nodup (hv : v ∈ items) : (v.links items cluster).Nodup := by
  have htypes : (v.targets items cluster).Pairwise fun t t' => t.1 ≠ t'.1 := by
    unfold Discovered.targets
    simp
  unfold Discovered.links
  rw [List.nodup_cons, List.nodup_flatMap]
  refine ⟨fun hmem => ?_, fun t ht => ?_, htypes.imp fun {t t'} hne => ?_⟩
  · obtain ⟨t, ht, hmem⟩ := List.mem_flatMap.mp hmem
    have htype := (mem_map_link.mp hmem).2.1
    simp only [Discovered.targets, List.mem_cons, List.not_mem_nil, or_false] at ht
    rcases ht with rfl | rfl | rfl | rfl | rfl
    all_goals simp at htype
  · refine (targets_nodup hd hv t ht).map fun x y hxy => ?_
    simpa using hxy
  · rintro ⟨a, b, type⟩ hmem hmem'
    exact hne ((mem_map_link.mp hmem).2.1.symm.trans (mem_map_link.mp hmem').2.1)

include hd in
/-- No link is listed twice. -/
theorem allLinks_nodup : (items.flatMap (Discovered.links items cluster)).Nodup := by
  have hapart : items.Pairwise (fun v w => v.item.uid ≠ w.item.uid) := List.pairwise_map.mp hd.uids
  rw [List.nodup_flatMap]
  refine ⟨fun v hv => links_nodup hd hv, hapart.imp fun {v w} hne => ?_⟩
  rintro ⟨a, b, t⟩ hv hw
  rcases link_own hv with ⟨ht, hb⟩ | ⟨ht, ha⟩
  · rcases link_own hw with ⟨-, hb'⟩ | ⟨ht', -⟩
    · exact hne (hb.symm.trans hb')
    · exact ht' ht
  · rcases link_own hw with ⟨ht', -⟩ | ⟨-, ha'⟩
    · exact ht ht'
    · exact hne (ha.symm.trans ha')

theorem mem_allLinks {l : String × String × String} :
    l ∈ items.flatMap (Discovered.links items cluster) ↔ Link items cluster l.1 l.2.1 l.2.2 := by
  rw [link_iff, List.mem_flatMap]

include hd in
theorem ncard_links : {l : String × String × String | Link items cluster l.1 l.2.1 l.2.2}.ncard =
    (items.flatMap (Discovered.links items cluster)).length := by
  classical
  have hset : {l : String × String × String | Link items cluster l.1 l.2.1 l.2.2} =
      ((items.flatMap (Discovered.links items cluster)).toFinset : Set (String × String × String)) := by
    ext l
    rw [Set.mem_ofPred_eq, Finset.mem_coe, List.mem_toFinset, mem_allLinks]
  rw [hset, Set.ncard_coe_finset, List.toFinset_card_of_nodup (allLinks_nodup hd)]

include hd in
theorem keys_nodup_iff (now : Time) :
    ((items.flatMap (Discovered.relations now items cluster)).map relationshipKey).Nodup ↔
      ∀ a b a' b' t, Link items cluster a b t → Link items cluster a' b' t →
        a ++ "\x00" ++ b = a' ++ "\x00" ++ b' → a = a' ∧ b = b' := by
  have hlist : (items.flatMap (Discovered.relations now items cluster)).map relationshipKey =
      (items.flatMap (Discovered.links items cluster)).map
        fun l => l.1 ++ "\x00" ++ l.2.1 ++ "\x00" ++ l.2.2 := by
    rw [List.map_flatMap, List.map_flatMap]
    congr 1
    funext v
    rw [relations_eq, List.map_map]
    rfl
  rw [hlist, List.nodup_map_iff_inj_on (allLinks_nodup hd)]
  constructor
  · intro h a b a' b' t hl hl' heq
    have hsame := h (a, b, t) (mem_allLinks.mpr hl) (a', b', t) (mem_allLinks.mpr hl') (by simp only [heq])
    cases hsame
    exact ⟨rfl, rfl⟩
  · rintro h ⟨a, b, t⟩ hl ⟨a', b', t'⟩ hl' heq
    rw [mem_allLinks] at hl hl'
    obtain ⟨hpair, rfl⟩ := linkKey_inj (linkTypes_ok _ hl.type).1 (linkTypes_ok _ hl'.type).1 heq
    obtain ⟨rfl, rfl⟩ := h a b a' b' t hl hl' hpair
    rfl

end

theorem presentFields_len (fields : List (String × Option Json)) (h : (fields.map Prod.fst).Nodup) :
    (presentFields fields h).len ≤ fields.length := List.length_filterMap_le _ _

theorem attributes_len (v : Discovered) : v.attributes.len ≤ 8 := by
  exact presentFields_len _ _

theorem resource_type : ∀ r ∈ resources, byteLen r.type ≤ 80 := by decide

theorem observation_sendable (hnow : now ≠ 0) (hlisted : v.Listed) (hbytes : byteLen v.item.uid ≤ 1000) :
    (v.observation now).Sendable := by
  have hattributes := attributes_len v
  exact ⟨⟨hlisted.1, hbytes.trans (by omega)⟩, resource_type _ hlisted.2, hnow, hattributes.trans (by omega),
    by simp [Discovered.observation, GoMap.single, GoMap.len]⟩

theorem cluster_sendable_iff (hnow : now ≠ 0) (c : Connector) (identity : String) :
    (clusterObservation now c identity).Sendable ↔ byteLen identity ≤ 1016 := by
  have hbytes : byteLen ("cluster:" ++ identity) = 8 + byteLen identity := byteLen_append _ _
  have htype : byteLen "KUBERNETES_CLUSTER" ≤ 80 := by decide
  constructor
  · intro h
    have hid : byteLen ("cluster:" ++ identity) ≤ 1024 := h.externalID.2
    omega
  · intro h
    refine ⟨⟨fun heq => ?_, ?_⟩, htype, hnow, by simp [clusterObservation, GoMap.single, GoMap.len],
      by simp [clusterObservation, GoMap.single, GoMap.len]⟩
    · have hempty : byteLen ("cluster:" ++ identity) = 0 := congrArg byteLen heq
      omega
    · show byteLen ("cluster:" ++ identity) ≤ 1024
      omega

theorem relations_sendable (hnow : now ≠ 0) :
    ∀ r ∈ items.flatMap (Discovered.relations now items cluster), r.Sendable (cluster :: items.map (·.item.uid)) := by
  intro r hr
  obtain ⟨v, hv, hr⟩ := List.mem_flatMap.mp hr
  rw [relations_eq] at hr
  obtain ⟨⟨a, b, t⟩, hl, rfl⟩ := List.mem_map.mp hr
  have hlink : Link items cluster a b t := link_iff.mpr ⟨v, hv, hl⟩
  exact ⟨hlink.ends.1, hlink.ends.2, (linkTypes_ok t hlink.type).2, hnow, by simp [relation, GoMap.len]⟩

theorem describe_ok {found : Discovery} (h : describe c now items = .ok found) :
    found.assets = clusterObservation now c (clusterIdentity c items) :: items.map (Discovered.observation now) ∧
      found.relationships =
        items.flatMap (Discovered.relations now items ("cluster:" ++ clusterIdentity c items)) := by
  unfold describe at h
  dsimp only at h
  split_ifs at h
  cases h
  exact ⟨rfl, rfl⟩

/-- The snapshot that `runOnce` builds from a listing is accepted exactly when the
listing fits. -/
theorem listing_accepted_iff [Hashes] [Signatures] {id : Identity} {sequence : ℤ} {startedAt completedAt now : Time}
    (config : Config) (api : Api) {found : Discovery} (hcollect : (newWithConfig config).collect api = .ok items)
    (hfound : (newWithConfig config).discover api now = .ok found)
    (hd : Distinct items ("cluster:" ++ clusterIdentity (newWithConfig config) items))
    (hrun : id.Runs sequence startedAt completedAt) (hsum : ∀ bs, (sum256 bs).length ≤ 32) (hnow : now ≠ 0) :
    validSnapshotContract (newSnapshot id sequence startedAt completedAt found) = true ↔
      Fits items (clusterIdentity (newWithConfig config) items) := by
  have hdescribe : describe (newWithConfig config) now items = .ok found := by
    unfold Connector.discover at hfound
    rwa [hcollect, Except.ok_bind] at hfound
  obtain ⟨hassets, hrelations⟩ := describe_ok hdescribe
  have hids : externalIDs found.assets =
      ("cluster:" ++ clusterIdentity (newWithConfig config) items) :: items.map (·.item.uid) := by
    rw [hassets, externalIDs, List.map_cons, List.map_map]
    rfl
  have hdistinct : (externalIDs found.assets).Nodup := by
    rw [hids, List.nodup_cons]
    refine ⟨fun hmem => ?_, hd.uids⟩
    obtain ⟨v, hv, heq⟩ := List.mem_map.mp hmem
    exact hd.cluster v hv heq
  have hcount : found.relationships.length = {l : String × String × String |
      Link items ("cluster:" ++ clusterIdentity (newWithConfig config) items) l.1 l.2.1 l.2.2}.ncard := by
    rw [ncard_links hd.told, hrelations, List.length_flatMap, List.length_flatMap]
    simp only [relations_eq, List.length_map]
  have hsendable : (∀ o ∈ found.assets, o.Sendable) ↔
      byteLen (clusterIdentity (newWithConfig config) items) ≤ 1016 := by
    rw [hassets, List.forall_mem_cons, cluster_sendable_iff hnow, and_iff_left]
    rw [List.forall_mem_map]
    intro v hv
    exact observation_sendable hnow (collect_listed hcollect v hv) (hd.bytes v hv)
  rw [valid_newSnapshot_iff hrun hsum, hcount, hids, hsendable, hrelations, keys_nodup_iff hd.told, hassets]
  constructor
  · intro h
    refine ⟨?_, h.1.2, h.2.1.1, h.2.2.2⟩
    have hlen := h.1.1
    rw [List.length_cons, List.length_map] at hlen
    omega
  · intro h
    refine ⟨⟨?_, h.links⟩, ⟨h.name, hids ▸ hdistinct⟩, relations_sendable hnow, h.apart⟩
    rw [List.length_cons, List.length_map]
    exact h.assets

section

attribute [local instance] toy plainSignatures

def plainItem (name uid : String) : Item :=
  { name := name, namespaceName := "", uid := uid, labels := .nil, ownerUIDs := [], nodeName := ""
    serviceName := "", volumeName := "", selector := none, defaultBackend := "", rules := [] }

def plainConfig : Config := ⟨"", "", 0, 0⟩

def systemNamespace : Item := plainItem "kube-system" "u1"

def systemPod : Item := { plainItem "dns" "u2" with namespaceName := "kube-system", ownerUIDs := ["u1", "u9"] }

def smallApi : Api := fun path _ _ =>
  .ok ⟨if path = "/api/v1/namespaces" then [systemNamespace] else if path = "/api/v1/pods" then [systemPod] else [], ""⟩

def smallListing : List Discovered :=
  [⟨⟨"/api/v1/namespaces", "Namespace", "KUBERNETES_NAMESPACE"⟩, systemNamespace⟩,
    ⟨⟨"/api/v1/pods", "Pod", "KUBERNETES_POD"⟩, systemPod⟩]

theorem collect_small : (newWithConfig plainConfig).collect smallApi = .ok smallListing := rfl

theorem smallListing_distinct : Distinct smallListing ("cluster:" ++ "u1") := by
  refine ⟨by decide, ?_, ?_, ?_⟩
  all_goals
    intro v hv
    rcases List.mem_pair.mp hv with rfl | rfl
    all_goals decide

theorem smallListing_fits : Fits smallListing "u1" := by
  refine ⟨by decide, ?_, by decide, (keys_nodup_iff smallListing_distinct.told 1500).mp (by decide)⟩
  rw [ncard_links smallListing_distinct.told]
  decide

theorem listing_accepted_small : ∃ found, (newWithConfig plainConfig).discover smallApi 1500 = .ok found ∧
    validSnapshotContract (newSnapshot smallIdentity 7 1000 2000 found) = true :=
  ⟨_, rfl, (listing_accepted_iff plainConfig smallApi collect_small rfl smallListing_distinct
    Docker.smallIdentity_runs Docker.toy_sum (by decide)).mpr smallListing_fits⟩

def numbered (n : ℕ) : List Item := (List.range n).map fun i : ℕ => plainItem "n" (toString (i : ℤ))

def namespacesApi (n : ℕ) : Api := fun path _ _ =>
  .ok ⟨if path = "/api/v1/namespaces" then numbered n else [], ""⟩

def namespaceResource : Resource := ⟨"/api/v1/namespaces", "Namespace", "KUBERNETES_NAMESPACE"⟩

def namespaces (n : ℕ) : List Discovered := (numbered n).map (⟨namespaceResource, ·⟩)

theorem list_single {path : String} {listed : List Item} (h : api path 0 "" = .ok ⟨listed, ""⟩)
    (hlen : listed.length ≤ c.maxResources) : c.list api path = .ok listed := by
  unfold Connector.list Connector.listPages
  rw [h, Except.ok_bind]
  simp [not_lt.mpr hlen]

theorem collectItems_ok {r : Resource} {collected : List Discovered} {listed : List Item}
    (hnamed : ∀ x ∈ listed, ¬ (x.uid = "" ∨ x.name = "")) (hlen : collected.length + listed.length ≤ c.maxResources) :
    listed.foldlM (c.collectItem r) collected = .ok (collected ++ listed.map (⟨r, ·⟩)) := by
  induction listed generalizing collected with
  | nil => simp [pure, Except.pure]
  | cons x listed ih =>
    rw [List.length_cons] at hlen
    have hone : c.collectItem r collected x = .ok (collected ++ [⟨r, x⟩]) := by
      have hfew : ¬ c.maxResources < (collected ++ [(⟨r, x⟩ : Discovered)]).length := by
        rw [List.length_append, List.length_singleton]
        omega
      unfold Connector.collectItem
      rw [if_neg (hnamed x (.head _))]
      rw [if_neg hfew]
    rw [List.foldlM_cons, hone, Except.ok_bind, ih (fun y hy => hnamed y (.tail _ hy)) (by simp; omega)]
    simp

theorem toString_inj {i j : ℕ} (h : toString (i : ℤ) = toString (j : ℤ)) : i = j := by
  have hi := toString_toList (Int.natCast_nonneg i)
  have hj := toString_toList (Int.natCast_nonneg j)
  rw [h, hj] at hi
  have hparse := congrArg parseDigits hi
  rw [parseDigits_toDigits, parseDigits_toDigits] at hparse
  have := Option.some.inj hparse
  omega

theorem numbered_named (n : ℕ) : ∀ x ∈ numbered n, ¬ (x.uid = "" ∨ x.name = "") := by
  intro x hx
  obtain ⟨i, -, rfl⟩ := List.mem_map.mp hx
  rintro (huid | hname)
  · have hdigits := toString_toList (Int.natCast_nonneg i)
    have hempty : toString (i : ℤ) = "" := huid
    rw [hempty] at hdigits
    exact Nat.toDigits_ne_nil hdigits.symm
  · exact absurd (show "n" = "" from hname) (by decide)

theorem collect_namespaces {n : ℕ} (hn : n ≤ c.maxResources) : c.collect (namespacesApi n) = .ok (namespaces n) := by
  have hfirst : c.list (namespacesApi n) namespaceResource.path = .ok (numbered n) := by
    apply list_single rfl
    simpa [numbered] using hn
  have hrest : ∀ rs : List Resource, (∀ r ∈ rs, r.path ≠ "/api/v1/namespaces") → ∀ items : List Discovered,
      rs.foldlM (fun items r => do
        let listed ← c.list (namespacesApi n) r.path
        listed.foldlM (c.collectItem r) items) items = Except.ok items := by
    intro rs
    induction rs with
    | nil => exact fun _ items => rfl
    | cons r rs ih =>
      intro hpath items
      have hempty : c.list (namespacesApi n) r.path = .ok [] := by
        apply list_single
        · simp [namespacesApi, hpath r (.head _)]
        · exact Nat.zero_le _
      rw [List.foldlM_cons, hempty]
      exact ih (fun r' hr' => hpath r' (.tail _ hr')) items
  have htail : resources = namespaceResource :: resources.tail := rfl
  unfold Connector.collect
  rw [htail, List.foldlM_cons, hfirst, Except.ok_bind, collectItems_ok (numbered_named n) (by simpa [numbered] using hn),
    Except.ok_bind]
  exact hrest _ (by decide) _

theorem namespaces_distinct {n : ℕ} (hn : n ≤ 100000) : Distinct (namespaces n) ("cluster:" ++ "east") := by
  have huid : ∀ v ∈ namespaces n, ∃ i : ℕ, i < n ∧ v.item.uid = toString (i : ℤ) ∧ v.item.ownerUIDs = [] := by
    intro v hv
    obtain ⟨x, hx, rfl⟩ := List.mem_map.mp hv
    obtain ⟨i, hi, rfl⟩ := List.mem_map.mp hx
    exact ⟨i, List.mem_range.mp hi, rfl, rfl⟩
  refine ⟨?_, fun v hv => ?_, fun v hv heq => ?_, fun v hv => ?_⟩
  · unfold namespaces numbered
    rw [List.map_map, List.map_map]
    exact List.nodup_range.map fun i j hij => toString_inj hij
  · obtain ⟨i, hi, hid, -⟩ := huid v hv
    rw [hid]
    have := byteLen_toString (n := i) (Int.natCast_nonneg i) (by omega)
    omega
  · -- a numeral does not begin with a letter
    obtain ⟨i, -, hid, -⟩ := huid v hv
    have hmem : 'c' ∈ Nat.toDigits 10 (i : ℤ).toNat := by
      rw [← toString_toList (Int.natCast_nonneg i), ← hid, heq]
      decide
    have hdigit := Nat.isDigit_of_mem_toDigits (by omega) le_rfl hmem
    exact absurd hdigit (by decide)
  · obtain ⟨i, -, -, howners⟩ := huid v hv
    rw [howners]
    exact List.nodup_nil

def eastConfig : Config := ⟨"east", "", 0, 0⟩

/-- With as many resources as the connector allows, the snapshot is one asset too
large. -/
theorem full_listing_refused : ∃ found,
    (newWithConfig eastConfig).collect (namespacesApi 100000) = .ok (namespaces 100000) ∧
      clusterIdentity (newWithConfig eastConfig) (namespaces 100000) = "east" ∧
      Distinct (namespaces 100000) ("cluster:" ++ "east") ∧
      (newWithConfig eastConfig).discover (namespacesApi 100000) 1500 = .ok found ∧
      validSnapshotContract (newSnapshot smallIdentity 7 1000 2000 found) = false := by
  have hcollect : (newWithConfig eastConfig).collect (namespacesApi 100000) = .ok (namespaces 100000) :=
    collect_namespaces le_rfl
  have heast : (newWithConfig eastConfig).clusterID = "east" := by decide
  have hidentity : clusterIdentity (newWithConfig eastConfig) (namespaces 100000) = "east" := by
    unfold clusterIdentity
    rw [heast, if_neg (by decide)]
  obtain ⟨found, hdescribe⟩ : ∃ found, describe (newWithConfig eastConfig) 1500 (namespaces 100000) = .ok found := by
    unfold describe
    exact ⟨_, rfl⟩
  refine ⟨found, hcollect, hidentity, namespaces_distinct le_rfl, ?_, ?_⟩
  · unfold Connector.discover
    rw [hcollect, Except.ok_bind, hdescribe]
  · rw [Bool.eq_false_iff]
    intro hvalid
    have hsize := ((valid_newSnapshot_iff Docker.smallIdentity_runs Docker.toy_sum found).mp hvalid).1.1
    rw [(describe_ok hdescribe).1, List.length_cons, List.length_map, namespaces, numbered, List.length_map,
      List.length_map, List.length_range] at hsize
    omega

end

end Infragraph.Kubernetes
