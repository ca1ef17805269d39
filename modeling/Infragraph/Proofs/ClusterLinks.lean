import Infragraph.Proofs.Kubernetes

/-! The relationships that a Kubernetes discovery emits, against the listing they
come from: they join emitted assets, none is emitted twice, every resource is
contained once, and a service routes to the pods that its selector matches, up to
entries with an empty value. -/

namespace Infragraph.Kubernetes

variable {items : List Discovered} {found : Discovery} {c : Connector} {api : Api} {now : Time} {v : Discovered}

def clusterExternalID (c : Connector) (items : List Discovered) : String := "cluster:" ++ clusterIdentity c items

section

variable (hcollect : c.collect api = .ok items) (hfound : c.discover api now = .ok found)
include hcollect hfound

theorem discover_ok : externalIDs found.assets = clusterExternalID c items :: items.map (·.item.uid) ∧
      found.relationships = (items.flatMap (Discovered.links items (clusterExternalID c items))).map
        fun l => relation l.1 l.2.1 l.2.2 now := by
  unfold Connector.discover at hfound
  rw [hcollect] at hfound
  obtain ⟨hassets, hrelations⟩ := describe_ok hfound
  constructor
  · rw [hassets, externalIDs, List.map_cons, List.map_map]
    rfl
  · rw [hrelations, List.map_flatMap]
    congr 1
    funext v
    exact relations_eq now v

theorem related_iff {a b t : String} :
    (∃ r ∈ found.relationships, r.externalFromID = a ∧ r.externalToID = b ∧ r.type = t) ↔
      Link items (clusterExternalID c items) a b t := by
  rw [(discover_ok hcollect hfound).2]
  constructor
  · rintro ⟨r, hr, rfl, rfl, rfl⟩
    obtain ⟨l, hl, rfl⟩ := List.mem_map.mp hr
    exact mem_allLinks.mp hl
  · intro h
    exact ⟨_, List.mem_map.mpr ⟨(a, b, t), mem_allLinks.mpr h, rfl⟩, rfl, rfl, rfl⟩

end

/-- What contains a resource: the object of its namespace, if one is listed. -/
theorem parent_cases (hlisted : ∀ w ∈ items, w.Listed) (hnamed : ∀ w ∈ items, w.item.name ≠ "") (cluster : String)
    (v : Discovered) : (∃ w ∈ items, (w.resource.kind = "Namespace" ∧ w.item.name = v.item.namespaceName) ∧
        parent items cluster v = w.item.uid) ∨
      (∀ w ∈ items, ¬ (w.resource.kind = "Namespace" ∧ w.item.name = v.item.namespaceName)) ∧
        parent items cluster v = cluster := by
  have hkey : ∀ w : Discovered, (if w.resource.kind = "Namespace" then some w.item.name else none) =
      some v.item.namespaceName ↔ w.resource.kind = "Namespace" ∧ w.item.name = v.item.namespaceName := by
    intro w
    split_ifs with hkind <;> simp [hkind]
  unfold parent byNamespace
  rcases lastUID_cases items (fun w => if w.resource.kind = "Namespace" then some w.item.name else none)
    v.item.namespaceName with ⟨hnone, hall⟩ | ⟨w, hw, hname, huid⟩
  · right
    rw [if_neg (fun h => h.2 hnone)]
    exact ⟨fun w hw h => hall w hw ((hkey w).mpr h), rfl⟩
  · left
    have hw' := (hkey w).mp hname
    refine ⟨w, hw, hw', ?_⟩
    rw [if_pos ⟨hw'.2 ▸ hnamed w hw, huid ▸ (hlisted w hw).1⟩, huid]

theorem contains_once (hcollect : c.collect api = .ok items) (hfound : c.discover api now = .ok found) (hd : Told items)
    (hv : v ∈ items) : found.relationships.filter (fun r => r.type = "CONTAINS" ∧ r.externalToID = v.item.uid) =
      [relation (parent items (clusterExternalID c items) v) v.item.uid "CONTAINS" now] := by
  rw [(discover_ok hcollect hfound).2, List.filter_map,
    List.filter_eq_singleton (x := (parent items (clusterExternalID c items) v, v.item.uid, "CONTAINS"))
      (allLinks_nodup hd) (mem_allLinks.mpr (.contains hv)) ?_]
  · rfl
  rintro ⟨a, b, t⟩ hl
  obtain ⟨w, hw, hl⟩ := List.mem_flatMap.mp hl
  simp only [Function.comp_apply, relation, decide_eq_true_eq, Prod.mk.injEq]
  constructor
  · -- only the resource itself lists a containment of it
    rintro ⟨rfl, rfl⟩
    rcases mem_links.mp hl with ⟨ha, hb, -⟩ | ⟨-, hrest⟩
    · obtain rfl : v = w := List.inj_on_of_nodup_map hd.uids hv hw hb
      exact ⟨ha, rfl, rfl⟩
    · rcases hrest with ⟨ht, -⟩ | ⟨ht, -⟩ | ⟨ht, -⟩ | ⟨ht, -⟩ | ⟨ht, -⟩
      all_goals exact absurd ht (by decide)
  · rintro ⟨-, rfl, rfl⟩
    exact ⟨rfl, rfl⟩

/-- Relationships join emitted assets, each pair in each way once, and every listed
resource is contained once: in the object of its namespace, or in the cluster. -/
theorem discover_links (c : Connector) (api : Api) (now : Time) (items : List Discovered) (found : Discovery)
    (hcollect : c.collect api = .ok items) (hfound : c.discover api now = .ok found)
    (huids : (items.map (·.item.uid)).Nodup) (howners : ∀ v ∈ items, v.item.ownerUIDs.Nodup) :
    (∀ r ∈ found.relationships,
        r.externalFromID ∈ externalIDs found.assets ∧ r.externalToID ∈ externalIDs found.assets) ∧
      (found.relationships.map fun r => (r.externalFromID, r.externalToID, r.type)).Nodup ∧
      ∀ v ∈ items, ∃ r,
        found.relationships.filter (fun r => r.type = "CONTAINS" ∧ r.externalToID = v.item.uid) = [r] ∧
          ((∃ w ∈ items, (w.resource.kind = "Namespace" ∧ w.item.name = v.item.namespaceName) ∧
              r.externalFromID = w.item.uid) ∨
            (∀ w ∈ items, ¬ (w.resource.kind = "Namespace" ∧ w.item.name = v.item.namespaceName)) ∧
              r.externalFromID = clusterExternalID c items) := by
  have hd : Told items := ⟨huids, howners⟩
  obtain ⟨hassets, hrelations⟩ := discover_ok hcollect hfound
  refine ⟨?_, ?_, ?_⟩
  · intro r hr
    rw [hassets]
    exact Link.ends ((related_iff hcollect hfound).mp ⟨r, hr, rfl, rfl, rfl⟩)
  · rw [hrelations, List.map_map]
    exact (allLinks_nodup hd).map fun _ _ h => h
  · intro v hv
    refine ⟨_, contains_once hcollect hfound hd hv, ?_⟩
    exact parent_cases (collect_listed hcollect) (collect_named hcollect) (clusterExternalID c items) v

/-- A pod in its namespace, owned by the namespace's object. -/
theorem discover_links_small : ∃ found, (newWithConfig plainConfig).discover smallApi 1500 = .ok found ∧
    (found.relationships.map fun r => (r.externalFromID, r.externalToID, r.type)).Nodup :=
  ⟨_, rfl, (discover_links (newWithConfig plainConfig) smallApi 1500 smallListing _ collect_small rfl (by decide)
    (by decide)).2.1⟩

/-- The rule of Kubernetes: every entry of a selector, of which there is one, is a label. -/
def Selects (selector : List (String × String)) (labels : GoMap String) : Prop :=
  selector ≠ [] ∧ ∀ e ∈ selector, labels.get e.1 = some e.2

/-- An entry that `labelsMatch` takes for a label though it is none: its value is
empty and there is no label of its key. -/
def Unlabelled (e : String × String) (labels : GoMap String) : Prop := e.2 = "" ∧ labels.get e.1 = none

theorem labelsMatch_iff {selector : List (String × String)} {labels : GoMap String} :
    labelsMatch selector labels = true ↔
      selector ≠ [] ∧ ∀ e ∈ selector, labels.get e.1 = some e.2 ∨ Unlabelled e labels := by
  have hentry : ∀ e : String × String, (labels.get e.1).getD "" = e.2 ↔
      labels.get e.1 = some e.2 ∨ Unlabelled e labels := by
    intro e
    unfold Unlabelled
    cases labels.get e.1 with
    | none =>
      constructor
      · exact fun h => .inr ⟨h.symm, rfl⟩
      · rintro (h | h)
        · cases h
        · exact h.1.symm
    | some value => simp
  unfold labelsMatch
  simp only [Bool.and_eq_true, List.all_eq_true, decide_eq_true_eq, hentry, Bool.not_eq_true', List.isEmpty_eq_false_iff]
  exact and_comm

/-- Services route to the pods that their selectors select. -/
def RoutesBySelectors (items : List Discovered) (found : Discovery) : Prop :=
  ∀ v ∈ items, v.resource.kind = "Service" → ∀ pod ∈ items, pod.resource.kind = "Pod" →
    ((∃ r ∈ found.relationships,
        r.externalFromID = v.item.uid ∧ r.externalToID = pod.item.uid ∧ r.type = "ROUTES_TO") ↔
      pod.item.namespaceName = v.item.namespaceName ∧ Selects (selectorLabels v.item.selector) pod.item.labels)

/-- Where a selector has an entry with an empty value whose key a pod of the
namespace lacks, another entry keeps the pod out. -/
def EmptyEntriesHarmless (items : List Discovered) : Prop :=
  ∀ v ∈ items, v.resource.kind = "Service" → ∀ pod ∈ items, pod.resource.kind = "Pod" →
    pod.item.namespaceName = v.item.namespaceName → ∀ e ∈ selectorLabels v.item.selector,
      Unlabelled e pod.item.labels → ∃ e' ∈ selectorLabels v.item.selector,
        pod.item.labels.get e'.1 ≠ some e'.2 ∧ ¬ Unlabelled e' pod.item.labels

theorem routes_iff (hcollect : c.collect api = .ok items) (hfound : c.discover api now = .ok found)
    (huids : (items.map (·.item.uid)).Nodup) {pod : Discovered} (hv : v ∈ items) (hkind : v.resource.kind = "Service")
    (hpod : pod ∈ items) (hpodKind : pod.resource.kind = "Pod") : (∃ r ∈ found.relationships,
        r.externalFromID = v.item.uid ∧ r.externalToID = pod.item.uid ∧ r.type = "ROUTES_TO") ↔
      pod.item.namespaceName = v.item.namespaceName ∧
        labelsMatch (selectorLabels v.item.selector) pod.item.labels = true := by
  rw [related_iff hcollect hfound]
  constructor
  · intro h
    obtain ⟨w, hw, hl⟩ := link_iff.mp h
    rcases mem_links.mp hl with ⟨-, -, ht⟩ | ⟨huid, hrest⟩
    · exact absurd ht (by decide)
    obtain rfl : v = w := List.inj_on_of_nodup_map huids hv hw huid
    have htargets : pod.item.uid ∈ v.selected items ∨ pod.item.uid ∈ v.backends items := by
      rcases hrest with ⟨ht, -⟩ | ⟨ht, -⟩ | ⟨ht, -⟩ | ⟨ht, -⟩ | ⟨-, htargets⟩
      · exact absurd ht (by decide)
      · exact absurd ht (by decide)
      · exact absurd ht (by decide)
      · exact absurd ht (by decide)
      · exact htargets
    rcases htargets with hselected | hbackend
    · obtain ⟨-, pod', hpod', -, hnamespace, hmatch, huid'⟩ := mem_selected.mp hselected
      obtain rfl : pod' = pod := List.inj_on_of_nodup_map huids hpod' hpod huid'
      exact ⟨hnamespace, hmatch⟩
    · -- a service is no ingress
      exact absurd (hkind.symm.trans (mem_backends.mp hbackend).1) (by decide)
  · rintro ⟨hnamespace, hmatch⟩
    exact .selects hv hkind hpod hpodKind hnamespace hmatch

/-- Services route by their selectors exactly when no entry with an empty value
stands for a label that is not there. -/
theorem routes_by_selectors_iff (c : Connector) (api : Api) (now : Time) (items : List Discovered) (found : Discovery)
    (hcollect : c.collect api = .ok items) (hfound : c.discover api now = .ok found)
    (huids : (items.map (·.item.uid)).Nodup) : RoutesBySelectors items found ↔ EmptyEntriesHarmless items := by
  constructor
  · intro h v hv hkind pod hpod hpodKind hnamespace e he hnone
    by_contra hall
    push Not at hall
    have hmatch : labelsMatch (selectorLabels v.item.selector) pod.item.labels = true := by
      refine labelsMatch_iff.mpr ⟨List.ne_nil_of_mem he, fun e' he' => ?_⟩
      by_cases hlabel : pod.item.labels.get e'.1 = some e'.2
      · exact .inl hlabel
      · exact .inr (hall e' he' hlabel)
    have hselects := ((h v hv hkind pod hpod hpodKind).mp
      ((routes_iff hcollect hfound huids hv hkind hpod hpodKind).mpr ⟨hnamespace, hmatch⟩)).2
    exact absurd (hnone.2.symm.trans (hselects.2 e he)) (by simp)
  · intro h v hv hkind pod hpod hpodKind
    rw [routes_iff hcollect hfound huids hv hkind hpod hpodKind, labelsMatch_iff]
    refine and_congr_right fun hnamespace => and_congr_right fun _ => ?_
    constructor
    · intro hall e he
      rcases hall e he with hlabel | hnone
      · exact hlabel
      · obtain ⟨e', he', hother, hlabelled⟩ := h v hv hkind pod hpod hpodKind hnamespace e he hnone
        exact absurd (hall e' he') (by tauto)
    · intro hall e he
      exact .inl (hall e he)

def podResource : Resource := ⟨"/api/v1/pods", "Pod", "KUBERNETES_POD"⟩

def serviceResource : Resource := ⟨"/api/v1/services", "Service", "SERVICE"⟩

def webPod : Item := { plainItem "web" "u2" with namespaceName := "shop", labels := .single "app" "web" }

def barePod : Item := { plainItem "bare" "u3" with namespaceName := "shop" }

def serviceWith (key value : String) : Item :=
  { plainItem "web" "u4" with namespaceName := "shop", selector := some (.obj [(key, .str value)]) }

def shopApi (service : Item) : Api := fun path _ _ =>
  .ok ⟨if path = "/api/v1/namespaces" then [systemNamespace] else if path = "/api/v1/pods" then [webPod, barePod]
    else if path = "/api/v1/services" then [service] else [], ""⟩

def shopListing (service : Item) : List Discovered :=
  [⟨namespaceResource, systemNamespace⟩, ⟨podResource, webPod⟩, ⟨podResource, barePod⟩, ⟨serviceResource, service⟩]

theorem routes_by_selectors_shop : ∃ found,
    (newWithConfig plainConfig).discover (shopApi (serviceWith "app" "web")) 1500 = .ok found ∧
      RoutesBySelectors (shopListing (serviceWith "app" "web")) found := by
  refine ⟨_, rfl, (routes_by_selectors_iff (newWithConfig plainConfig) (shopApi (serviceWith "app" "web")) 1500
    (shopListing (serviceWith "app" "web")) _ rfl rfl (by decide)).mpr ?_⟩
  unfold EmptyEntriesHarmless Unlabelled
  decide

/-- The selector canary="" takes in every pod without that label. -/
theorem empty_entry_routes : ∃ found,
    (newWithConfig plainConfig).discover (shopApi (serviceWith "canary" "")) 1500 = .ok found ∧
      (∃ r ∈ found.relationships, r.externalFromID = "u4" ∧ r.externalToID = "u3" ∧ r.type = "ROUTES_TO") ∧
      selectorLabels (serviceWith "canary" "").selector = [("canary", "")] ∧ barePod.labels.get "canary" = none :=
  ⟨_, rfl, by decide, rfl, rfl⟩

end Infragraph.Kubernetes
