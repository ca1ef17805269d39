import Infragraph.Proofs.Graph

/-! What each traversal engine returns, exactly: the assets within the depth by
distance, and the relationships with their occurrences. Both loops append whole
levels, so their lists are ordered as they stand. -/

namespace Infragraph

open Relational ReadCommitted Prog Levels

variable {org start : String} {reverse : Bool} {maxNodes : ℤ} {edges : List RelationshipRow} {k : ℕ}

/-- The nodes are the assets within the depth, each once, the start first and the
nearer ones before the farther. -/
structure TraverseResult.Reaches (r : TraverseResult) (step : String → String → Prop) (start : String) (depth : ℕ) :
    Prop where
  nodup : r.nodes.Nodup
  mem : ∀ v, v ∈ r.nodes ↔ distance step start v ≤ depth
  first : r.nodes.head? = some start
  sorted : r.nodes.Pairwise fun v w => distance step start v ≤ distance step start w

/-- A search that ended at the depth or at an empty level has reached what is within the depth. -/
theorem Reaches.of_layered {step : String → String → Prop} {m depth : ℕ} {frontier : List String} {r : TraverseResult}
    (h : Layered step start m r.nodes frontier) (hend : Ended step start depth m) : r.Reaches step start depth := by
  refine ⟨h.nodup, ?_, h.first, h.sorted⟩
  intro v
  rw [h.mem_visited, distance_le_iff, ball_eq_of_end hend.1 hend.2]

theorem filter_append_filter_perm {α : Type} {p q : α → Bool} (hdisjoint : ∀ x, p x = true → q x = false)
    (l : List α) : (l.filter p ++ l.filter q).Perm (l.filter fun x => p x || q x) := by
  induction l with
  | nil => exact List.Perm.refl _
  | cons x l ih =>
    cases hp : p x with
    | true => simpa [hp, hdisjoint x hp] using ih
    | false =>
      cases hq : q x with
      | true =>
        rw [List.filter_cons_of_neg (by simp [hp]), List.filter_cons_of_pos hq,
          List.filter_cons_of_pos (by simp [hp, hq])]
        exact List.perm_middle.trans (ih.cons x)
      | false => simpa [hp, hq] using ih

/-- A turn follows every occurrence of a live relationship that leaves the frontier. -/
theorem followed_perm (org : String) (reverse : Bool) (edges : List RelationshipRow) {frontier : List String}
    (hnodup : frontier.Nodup) : (followed org reverse edges frontier).Perm
      (edges.filter fun e => e.live org && decide (e.source reverse ∈ frontier)) := by
  induction frontier with
  | nil => simp [followed]
  | cons id frontier ih =>
    obtain ⟨hid, hrest⟩ := List.nodup_cons.mp hnodup
    have hsplit : followed org reverse edges (id :: frontier) =
        (edges.filter fun e => e.live org && decide (e.source reverse = id)) ++
          followed org reverse edges frontier := by
      simp [followed]
    refine ((ih hrest).append_left _).trans ((filter_append_filter_perm ?_ edges).trans ?_)
    · intro e he
      obtain ⟨-, hsource⟩ := Bool.and_eq_true_iff.mp he
      rw [decide_eq_true_eq] at hsource
      simp [hsource, hid]
    · rw [List.filter_congr]
      intro e _
      cases e.live org <;> simp

/-- A turn appends the next level and what leaves the frontier. -/
theorem Walk.turn_appends {w w' : Walk} {d : ℕ} (hw : w.Sound maxNodes)
    (hturn : w.turn org maxNodes reverse edges d = .ok w') : w'.nodes = w.nodes ++ w'.frontier ∧
      w'.relationships = w.relationships ++ followed org reverse edges w.frontier := by
  unfold Walk.turn at hturn
  rw [foldlM_frontier] at hturn
  have hsound : { w with next := [] }.Sound maxNodes := ⟨hw.seen, hw.length, hw.bound⟩
  obtain ⟨added, w₁, hok, hf⟩ | ⟨added, hfail, -⟩ :=
    follow_all reverse (followed org reverse edges w.frontier) hsound
  · rw [hok] at hturn
    cases hturn
    refine ⟨?_, hf.relationships⟩
    rw [hf.nodes, hf.next]
    rfl
  · rw [hfail] at hturn
    cases hturn

open Classical in
/-- The walk holds its level in order, and every occurrence of what leaves the levels before. -/
structure Walk.Exact (org : String) (maxNodes : ℤ) (reverse : Bool) (edges : List RelationshipRow) (start : String)
    (m : ℕ) (w : Walk) : Prop extends Walk.At org maxNodes reverse edges start m w where
  layered : Layered (Leads edges org reverse) start m w.nodes w.frontier
  listed : w.relationships.Perm (edges.filter fun e => e.live org &&
    decide (distance (Leads edges org reverse) start (e.source reverse) < m))

theorem Walk.exact_initial (org start : String) (reverse : Bool) (edges : List RelationshipRow)
    (hnodes : 1 ≤ maxNodes) : (Walk.initial start).Exact org maxNodes reverse edges start 0 where
  toAt := Walk.at_start hnodes
  layered := Layered.init
  listed := by simp [Walk.initial]

theorem Walk.Exact.turn {w : Walk} (h : w.Exact org maxNodes reverse edges start k) :
    Search (Leads edges org reverse) start maxNodes (k + 1) (Walk.Exact org maxNodes reverse edges start (k + 1))
      (w.turn org maxNodes reverse edges (k + 1)) := by
  obtain hfail | ⟨w', hok, hw'⟩ := h.toAt.turn
  · exact .inl hfail
  refine .inr ⟨w', hok, hw', ?_, ?_⟩
  · have hlevel := hw'.level
    rw [(Walk.turn_appends h.sound hok).1] at hlevel ⊢
    exact h.layered.next hlevel
  · rw [(Walk.turn_appends h.sound hok).2]
    have hfrontier : w.frontier.Nodup := h.level.nodup.sublist h.layered.sublist
    refine (h.listed.append (followed_perm org reverse edges hfrontier)).trans
      ((filter_append_filter_perm ?_ edges).trans ?_)
    · -- what leaves the frontier is not nearer than it
      intro e he
      simp only [Bool.and_eq_true, decide_eq_true_eq] at he
      have hnot : e.source reverse ∉ w.frontier := by
        intro hmem
        have hdist := distance_of_mem_sphere ((h.level.mem_frontier _).mp hmem)
        exact absurd he.2 (by rw [hdist]; exact lt_irrefl _)
      simp [hnot]
    · rw [List.filter_congr]
      intro e _
      have hsource : distance (Leads edges org reverse) start (e.source reverse) < ((k + 1 : ℕ) : ℕ∞) ↔
          distance (Leads edges org reverse) start (e.source reverse) < k ∨ e.source reverse ∈ w.frontier := by
        rw [h.level.mem_frontier, distance_lt_iff, distance_lt_iff, Nat.exists_lt_succ_right]
      simp only [hsource]
      cases e.live org <;> simp

variable {depth nodes : ℤ}

open Classical in
/-- `Service.Traverse` stops for the node limit exactly when more assets than that are
within the depth, and otherwise lists these assets and every occurrence of what
leaves the ones before the depth. -/
theorem traverse_exact (limits : Limits) (edges : List RelationshipRow) (org start : String) (horg : org ≠ "")
    (hstart : start ≠ "") (reverse : Bool) (depth nodes : ℤ) (hdepth : 1 ≤ depth ∧ depth ≤ limits.maxDepth)
    (hnodes : 1 ≤ nodes ∧ nodes ≤ limits.maxNodes) :
    ((∃ m, limits.traverse org start depth nodes reverse edges = .error (.limitExceeded m)) ↔
        Crowded (Leads edges org reverse) start depth.toNat nodes.toNat) ∧
      (¬ Crowded (Leads edges org reverse) start depth.toNat nodes.toNat →
        ∃ r, limits.traverse org start depth nodes reverse edges = .ok r ∧
          r.Reaches (Leads edges org reverse) start depth.toNat ∧
          r.relationships.Perm (edges.filter fun e => e.live org &&
            decide (distance (Leads edges org reverse) start (e.source reverse) < depth.toNat))) := by
  have hsearch := traverse_search limits reverse edges horg hstart hdepth hnodes (fun h => h.toAt) (fun h => h.turn)
    (Walk.exact_initial org start reverse edges hnodes.1)
  obtain ⟨hlimit, hlists⟩ := hsearch.exact (by
    rintro r ⟨m, w, -, hw, hend⟩
    exact hend.not_crowded hw.level hw.sound.bound)
  refine ⟨hlimit, fun h => ?_⟩
  obtain ⟨_, hok, m, w, rfl, hw, hend⟩ := hlists h
  refine ⟨_, hok, Reaches.of_layered hw.layered hend, ?_⟩
  simp only [distance_lt_of_end hend.1 hend.2]
  exact hw.listed

theorem ball_pair : ball (Leads [runsOn] "org" false) "app" 1 = {"app", "host"} := by
  ext v
  simp only [ball, Set.mem_union, Set.mem_ofPred_eq, Set.mem_singleton_iff, exists_eq_left, leads_runsOn, true_and,
    Set.mem_insert_iff]

theorem not_crowded_pair : ¬ Crowded (Leads [runsOn] "org" false) "app" (1 : ℤ).toNat (2 : ℤ).toNat := by
  have htwo : (ball (Leads [runsOn] "org" false) "app" 1).encard = 2 := by
    rw [ball_pair]
    exact Set.encard_pair (by decide)
  exact fun h => absurd h (by unfold Crowded; rw [show (1 : ℤ).toNat = 1 from rfl, htwo]; decide)

open Classical in
/-- Two assets and a limit of two nodes. -/
theorem traverse_exact_pair : ∃ r, Limits.traverse ⟨6, 500⟩ "org" "app" 1 2 false [runsOn] = .ok r ∧
      r.Reaches (Leads [runsOn] "org" false) "app" (1 : ℤ).toNat ∧
      r.relationships.Perm ([runsOn].filter fun e => e.live "org" &&
        decide (distance (Leads [runsOn] "org" false) "app" (e.source false) < (1 : ℤ).toNat)) :=
  (traverse_exact ⟨6, 500⟩ [runsOn] "org" "app" (by decide) (by decide) false 1 2 (by decide) (by decide)).2
    not_crowded_pair

theorem not_crowded_lone (start : String) : ¬ Crowded (Leads [] "org" false) start 1 10 := by
  have hball : ball (Leads [] "org" false) start 1 = {start} := by
    simp [ball, Leads]
  unfold Crowded
  rw [hball, Set.encard_singleton]
  decide

/-- Without a start asset the walk does not begin, though the limit leaves room. -/
theorem traverse_without_start :
    Limits.traverse ⟨6, 500⟩ "org" "" 1 10 false [] = .error (.required "organization and start asset are required") ∧
      ¬ Crowded (Leads [] "org" false) "" 1 10 :=
  ⟨rfl, not_crowded_lone ""⟩

variable {collation : Collation} {db : Db}

/-- The expansion holds its level in order, and nothing is farther than its depth. -/
structure Expansion.Exact (maxNodes : ℤ) (step : String → String → Prop) (start : String) (m : ℕ)
    (f : Expansion) : Prop extends Expansion.At maxNodes step start m f where
  layered : Layered step start m f.nodes f.frontier
  ended : f.depth = m ∨ sphere step start (f.depth + 1) = ∅

theorem Expansion.exact_initial (step : String → String → Prop) (start : String) (hnodes : 1 ≤ maxNodes) :
    (Expansion.initial start).Exact maxNodes step start 0 where
  toAt := Expansion.at_start hnodes
  layered := Layered.init
  ended := .inl rfl

/-- A turn appends what it found, and takes its level for the depth if that is something. -/
theorem Expansion.turn_appends {f f' : Expansion} {level : ℕ} {db' : Db}
    (hturn : (f.turn collation org maxNodes reverse level).run db = .ok (f', db')) :
    f'.nodes = f.nodes ++ f'.frontier ∧ f'.depth = if f'.frontier = [] then f.depth else level := by
  obtain ⟨rows, db₁, -, hturn⟩ := run_bind_ok.mp hturn
  obtain ⟨-, db₂, -, hturn⟩ := run_bind_ok.mp hturn
  cases hturn
  by_cases hnil : (Expansion.scan f.seen rows).2 = []
  · simp [hnil]
  · simp [hnil, List.length_pos_iff.mpr hnil]

theorem Expansion.Exact.turn (collation : Collation) {f : Expansion}
    (h : f.Exact maxNodes (Leads db.relationships.rows org reverse) start k) :
    Search (Leads db.relationships.rows org reverse) start maxNodes (k + 1)
      (fun s => s.2 = db ∧ s.1.Exact maxNodes (Leads db.relationships.rows org reverse) start (k + 1))
      ((f.turn collation org maxNodes reverse (k + 1)).run db) := by
  obtain hfail | ⟨⟨f', db'⟩, hok, hdb, hf'⟩ := h.toAt.turn collation
  · exact .inl hfail
  obtain ⟨hnodes, hdepth⟩ := Expansion.turn_appends hok
  have hlevel := hf'.level
  refine .inr ⟨(f', db'), hok, hdb, hf', ?_, ?_⟩
  · rw [hnodes] at hlevel ⊢
    exact h.layered.next hlevel
  · rw [hdepth]
    split_ifs with hnil
    · -- nothing was found: the depth stays
      right
      cases h.ended with
      | inl heq =>
        rw [heq]
        exact hlevel.frontier_eq_nil.mp hnil
      | inr hempty => exact hempty
    · exact .inl rfl

theorem Expansion.Exact.greatest {f : Expansion} {step : String → String → Prop} {m : ℕ}
    (h : f.Exact maxNodes step start m) : IsGreatest {d | ∃ v ∈ f.nodes, distance step start v = d} f.depth := by
  obtain ⟨v, hv⟩ := Set.nonempty_iff_ne_empty.mpr h.reached
  have hall : ball step start m = ball step start f.depth := by
    cases h.ended with
    | inl heq => rw [heq]
    | inr hempty =>
      by_cases heq : m = f.depth
      · rw [heq]
      · have hle := h.depth_le
        rw [ball_eq_of_empty hempty (by omega), ball_pred_of_empty hempty]
  refine ⟨⟨v, ?_, distance_of_mem_sphere hv⟩, ?_⟩
  · rw [h.level.mem_visited, hall]
    exact sphere_subset_ball hv
  · rintro d ⟨w, hw, rfl⟩
    rw [distance_le_iff, ← hall, ← h.level.mem_visited]
    exact hw

/-- `TraversePostgres` stops for the node limit exactly when more assets than that are
within the depth, and otherwise lists these assets, how far they go, and what is
between them. -/
theorem traversePostgres_exact (collation : Collation) (db : Db) (org start : String) (horg : org ≠ "")
    (hstart : start ≠ "") (hasset : (db.assets.get start).any fun a => a.organizationID = org) (reverse : Bool)
    (depth maxNodes : ℤ) (hdepth : 1 ≤ depth) (hnodes : 1 ≤ maxNodes) :
    ((∃ m, (traversePostgres collation org start depth maxNodes reverse).run db = .error (.limitExceeded m)) ↔
        Crowded (Leads db.relationships.rows org reverse) start depth.toNat maxNodes.toNat) ∧
      (¬ Crowded (Leads db.relationships.rows org reverse) start depth.toNat maxNodes.toNat →
        ∃ r, (traversePostgres collation org start depth maxNodes reverse).run db = .ok (r, db) ∧
          r.Reaches (Leads db.relationships.rows org reverse) start depth.toNat ∧
          IsGreatest {d | ∃ v ∈ r.nodes, distance (Leads db.relationships.rows org reverse) start v = d} r.depth ∧
          r.relationships.Perm (db.relationships.rows.filter fun e =>
            e.live org && e.fromAssetID ∈ r.nodes && e.toAssetID ∈ r.nodes)) := by
  have hsearch := traversePostgres_search collation reverse horg hstart hasset hdepth hnodes (fun h => h.toAt)
    (fun h => h.turn collation) (Expansion.exact_initial (Leads db.relationships.rows org reverse) start hnodes)
  obtain ⟨hlimit, hlists⟩ := hsearch.exact (by
    rintro s ⟨m, f, -, hf, hend⟩
    exact hend.not_crowded hf.level hf.bound)
  refine ⟨hlimit, fun h => ?_⟩
  obtain ⟨_, hok, m, f, rfl, hf, hend⟩ := hlists h
  exact ⟨_, hok, Reaches.of_layered hf.layered hend, hf.greatest, List.mergeSort_perm _ _⟩

/-- Two assets and a limit of two nodes. -/
theorem traversePostgres_exact_pair :
    ∃ r, (traversePostgres byteOrder "org" "app" 1 2 false).run pairDb = .ok (r, pairDb) ∧
      r.Reaches (Leads [runsOn] "org" false) "app" (1 : ℤ).toNat ∧
      IsGreatest {d | ∃ v ∈ r.nodes, distance (Leads [runsOn] "org" false) "app" v = d} r.depth ∧
      r.relationships.Perm ([runsOn].filter fun e => e.live "org" && e.fromAssetID ∈ r.nodes && e.toAssetID ∈ r.nodes) :=
  (traversePostgres_exact byteOrder pairDb "org" "app" (by decide) (by decide) (by decide) false 1 2 (by decide)
    (by decide)).2 not_crowded_pair

/-- An asset whose ID is the empty text is no start. -/
theorem traversePostgres_without_start :
    ((loneDb.assets.put (assetNamed "")).get "").any (fun a => a.organizationID = "org") = true ∧
      (traversePostgres byteOrder "org" "" 1 10 false).run { loneDb with assets := loneDb.assets.put (assetNamed "") } =
        .error (.required "database, organization, and start asset are required") ∧
      ¬ Crowded (Leads loneDb.relationships.rows "org" false) "" 1 10 :=
  ⟨by decide, rfl, not_crowded_lone ""⟩

end Infragraph
