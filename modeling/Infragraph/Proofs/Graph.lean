import Infragraph.Sanity.Apply
import Infragraph.Spec.Graph

/-! The two traversal engines find the same nodes, and differ in what they report
of the last level. Each loop is followed level by level: a turn reaches the next
level or meets one node too many. -/

namespace Infragraph

open Relational ReadCommitted Prog Levels

variable {org start : String} {reverse : Bool} {maxNodes : ℤ} {edges : List RelationshipRow}
variable {frontier visited : List String} {f : Expansion}

def followed (org : String) (reverse : Bool) (edges : List RelationshipRow) (frontier : List String) :
    List RelationshipRow :=
  frontier.flatMap fun id => edges.filter fun e => e.live org && e.source reverse = id

theorem mem_followed {e : RelationshipRow} :
    e ∈ followed org reverse edges frontier ↔ e ∈ edges ∧ e.live org ∧ e.source reverse ∈ frontier := by
  simp only [followed, List.mem_flatMap, List.mem_filter, Bool.and_eq_true, decide_eq_true_eq]
  constructor
  · rintro ⟨id, hid, he, hlive, rfl⟩
    exact ⟨he, hlive, hid⟩
  · rintro ⟨he, hlive, hid⟩
    exact ⟨_, hid, he, hlive, rfl⟩

theorem visit_eq (id : String) (w : Walk) (e : RelationshipRow) : w.visit org maxNodes reverse id e =
      if e.live org && e.source reverse = id then w.follow maxNodes reverse e else .ok w := by
  unfold Walk.visit RelationshipRow.live
  by_cases horg : e.organizationID = org <;> by_cases hstatus : e.status = .active <;>
    by_cases hsource : e.source reverse = id <;> simp [horg, hstatus, hsource]

theorem foldlM_visit (id : String) (w : Walk) : edges.foldlM (Walk.visit org maxNodes reverse id) w =
      (edges.filter fun e => e.live org && e.source reverse = id).foldlM (Walk.follow maxNodes reverse) w := by
  induction edges generalizing w with
  | nil => rfl
  | cons e edges ih =>
    rw [List.foldlM_cons, visit_eq, List.filter_cons]
    split_ifs with h
    · exact bind_congr ih
    · exact ih w

theorem foldlM_frontier (frontier : List String) (w : Walk) :
    frontier.foldlM (fun w id => edges.foldlM (Walk.visit org maxNodes reverse id) w) w =
      (followed org reverse edges frontier).foldlM (Walk.follow maxNodes reverse) w := by
  unfold followed
  induction frontier generalizing w with
  | nil => rfl
  | cons id frontier ih =>
    rw [List.foldlM_cons, List.flatMap_cons, List.foldlM_append, foldlM_visit]
    exact bind_congr ih

/-- `seen` and the nodes are the same, and within the limit. -/
structure Walk.Sound (maxNodes : ℤ) (w : Walk) : Prop where
  seen : ∀ v, v ∈ w.seen ↔ v ∈ w.nodes
  length : w.seen.length = w.nodes.length
  bound : (w.nodes.length : ℤ) ≤ maxNodes

/-- `added` are distinct new targets of the relationships. -/
structure Fresh (reverse : Bool) (w : Walk) (es : List RelationshipRow) (added : List String) : Prop where
  nodup : added.Nodup
  new : ∀ v ∈ added, v ∉ w.nodes
  target : ∀ v ∈ added, ∃ e ∈ es, e.target reverse = v

/-- The walk after some relationships were followed. -/
structure Followed (maxNodes : ℤ) (reverse : Bool) (w : Walk) (es : List RelationshipRow) (added : List String)
    (w' : Walk) : Prop extends Fresh reverse w es added where
  sound : w'.Sound maxNodes
  nodes : w'.nodes = w.nodes ++ added
  next : w'.next = w.next ++ added
  relationships : w'.relationships = w.relationships ++ es
  reached : ∀ e ∈ es, e.target reverse ∈ w'.nodes

variable {w w' w'' : Walk} {es es' : List RelationshipRow} {added added' : List String}

theorem Fresh.append (h : Followed maxNodes reverse w es added w') (h' : Fresh reverse w' es' added') :
    Fresh reverse w (es ++ es') (added ++ added') := by
  refine ⟨List.nodup_append.mpr ⟨h.nodup, h'.nodup, ?_⟩, List.forall_mem_append.mpr ⟨h.new, fun v hv hmem => ?_⟩,
    List.forall_mem_append.mpr ⟨fun v hv => ?_, fun v hv => ?_⟩⟩
  · rintro v hv _ hu rfl
    exact h'.new v hu (by rw [h.nodes]; exact List.mem_append_right _ hv)
  · exact h'.new v hv (by rw [h.nodes]; exact List.mem_append_left _ hmem)
  · obtain ⟨e, he, htarget⟩ := h.target v hv
    exact ⟨e, List.mem_append_left _ he, htarget⟩
  · obtain ⟨e, he, htarget⟩ := h'.target v hv
    exact ⟨e, List.mem_append_right _ he, htarget⟩

theorem Followed.trans (h : Followed maxNodes reverse w es added w')
    (h' : Followed maxNodes reverse w' es' added' w'') :
    Followed maxNodes reverse w (es ++ es') (added ++ added') w'' := by
  refine ⟨Fresh.append h h'.toFresh, h'.sound, ?_, ?_, ?_, List.forall_mem_append.mpr ⟨fun e he => ?_, h'.reached⟩⟩
  · rw [h'.nodes, h.nodes, List.append_assoc]
  · rw [h'.next, h.next, List.append_assoc]
  · rw [h'.relationships, h.relationships, List.append_assoc]
  · rw [h'.nodes]
    exact List.mem_append_left _ (h.reached e he)

theorem follow_cases (reverse : Bool) (hw : w.Sound maxNodes) (e : RelationshipRow) :
    (∃ added w', w.follow maxNodes reverse e = .ok w' ∧ Followed maxNodes reverse w [e] added w') ∨
      (w.follow maxNodes reverse e = .error (.limitExceeded (some maxNodes)) ∧
        Fresh reverse w [e] [e.target reverse] ∧ maxNodes < w.nodes.length + 1) := by
  have hlength := hw.length
  by_cases hseen : e.target reverse ∈ w.seen
  · left
    refine ⟨[], { w with relationships := w.relationships ++ [e] }, by simp [Walk.follow, hseen],
      ⟨List.nodup_nil, by simp, by simp⟩, ⟨hw.seen, hw.length, hw.bound⟩, by simp, by simp, rfl, ?_⟩
    simpa using (hw.seen _).mp hseen
  have hnew : e.target reverse ∉ w.nodes := fun h => hseen ((hw.seen _).mpr h)
  have hfresh : Fresh reverse w [e] [e.target reverse] := ⟨List.nodup_singleton _, by simpa, by simp⟩
  by_cases hfull : maxNodes ≤ w.seen.length
  · right
    exact ⟨by simp [Walk.follow, hseen, hfull], hfresh, by omega⟩
  · left
    have hstep : w.follow maxNodes reverse e = .ok
        { w with
          relationships := w.relationships ++ [e], seen := e.target reverse :: w.seen
          nodes := w.nodes ++ [e.target reverse], next := w.next ++ [e.target reverse] } := by
      simp only [Walk.follow, if_neg hseen, if_neg hfull]
    refine ⟨[e.target reverse], _, hstep, hfresh, ⟨?_, ?_, ?_⟩, rfl, rfl, rfl, by simp⟩
    · intro v
      simp [hw.seen, or_comm]
    · simp [hlength]
    · simp
      omega

/-- Following relationships adds their new targets, or meets one more than the limit allows. -/
theorem follow_all (reverse : Bool) (es : List RelationshipRow) (hw : w.Sound maxNodes) :
    (∃ added w', es.foldlM (Walk.follow maxNodes reverse) w = .ok w' ∧
        Followed maxNodes reverse w es added w') ∨
      ∃ added, es.foldlM (Walk.follow maxNodes reverse) w = .error (.limitExceeded (some maxNodes)) ∧
        Fresh reverse w es added ∧ maxNodes < w.nodes.length + added.length := by
  induction es generalizing w with
  | nil =>
    exact .inl ⟨[], w, rfl, ⟨List.nodup_nil, by simp, by simp⟩, hw, by simp, by simp, by simp, by simp⟩
  | cons e es ih =>
    rw [List.foldlM_cons]
    obtain ⟨added, w', hok, hfollowed⟩ | ⟨hfail, hfresh, hmany⟩ := follow_cases reverse hw e
    · rw [hok]
      obtain ⟨added', w'', hok', hrest⟩ | ⟨added', hfail, hfresh, hmany⟩ := ih hfollowed.sound
      · exact .inl ⟨_, w'', hok', hfollowed.trans hrest⟩
      · refine .inr ⟨_, hfail, Fresh.append hfollowed hfresh, ?_⟩
        rw [hfollowed.nodes, List.length_append] at hmany
        rw [List.length_append]
        omega
    · rw [hfail]
      refine .inr ⟨_, rfl, ⟨hfresh.nodup, hfresh.new, ?_⟩, hmany⟩
      intro v hv
      obtain ⟨e', he', htarget⟩ := hfresh.target v hv
      exact ⟨e', List.mem_append_left es he', htarget⟩

variable {step : String → String → Prop} {k n d : ℕ}

theorem Crowded.mono (h : Crowded step start k maxNodes.toNat) (hkn : k ≤ n) :
    Crowded step start n maxNodes.toNat := lt_of_lt_of_le h (encard_ball_mono hkn)

theorem crowded_of_added (h : Level step start k visited frontier) (hnodup : added.Nodup)
    (hadded : ∀ v ∈ added, v ∉ visited ∧ ∃ u ∈ frontier, step u v) (hbound : (visited.length : ℤ) ≤ maxNodes)
    (hmany : maxNodes < visited.length + added.length) : Crowded step start (k + 1) maxNodes.toNat := by
  have hall : (visited ++ added).Nodup := by
    refine List.nodup_append.mpr ⟨h.nodup, hnodup, ?_⟩
    rintro v hv _ hw rfl
    exact (hadded v hw).1 hv
  have hball : ∀ v ∈ visited ++ added, v ∈ ball step start (k + 1) := by
    refine List.forall_mem_append.mpr ⟨fun v hv => ball_subset_succ ((h.mem_visited v).mp hv), fun v hv => ?_⟩
    obtain ⟨-, u, hu, hstep⟩ := hadded v hv
    exact step_mem_ball (sphere_subset_ball ((h.mem_frontier u).mp hu)) hstep
  refine lt_of_lt_of_le ?_ (length_le_encard hall hball)
  rw [List.length_append]
  norm_cast
  omega

/-- A search meets a level with too many nodes, or comes to a state with `P`. -/
def Search (step : String → String → Prop) (start : String) (maxNodes : ℤ) (n : ℕ) {σ : Type} (P : σ → Prop)
    (answer : Except TraverseError σ) : Prop :=
  (answer = .error (.limitExceeded (some maxNodes)) ∧ Crowded step start n maxNodes.toNat) ∨
    ∃ s, answer = .ok s ∧ P s

/-- A search ended at level `m`: at the depth `n`, or before it with nothing new. -/
def Ended (step : String → String → Prop) (start : String) (n m : ℕ) : Prop :=
  m ≤ n ∧ (m = n ∨ sphere step start m = ∅)

theorem Ended.not_crowded (h : Ended step start n k) (hlevel : Level step start k visited frontier)
    (hbound : (visited.length : ℤ) ≤ maxNodes) : ¬ Crowded step start n maxNodes.toNat := by
  unfold Crowded
  rw [ball_eq_of_end h.1 h.2, hlevel.encard]
  norm_cast
  omega

/-- A search that leaves room stops for the limit exactly when a level is crowded. -/
theorem Search.exact {σ : Type} {P : σ → Prop} {answer : Except TraverseError σ}
    (h : Search step start maxNodes n P answer) (hroom : ∀ s, P s → ¬ Crowded step start n maxNodes.toNat) :
    ((∃ m, answer = .error (.limitExceeded m)) ↔ Crowded step start n maxNodes.toNat) ∧
      (¬ Crowded step start n maxNodes.toNat → ∃ s, answer = .ok s ∧ P s) := by
  obtain ⟨hfail, hcrowded⟩ | ⟨s, hok, hs⟩ := h
  · rw [hfail]
    exact ⟨⟨fun _ => hcrowded, fun _ => ⟨_, rfl⟩⟩, fun h => absurd hcrowded h⟩
  · rw [hok]
    refine ⟨⟨?_, fun h => absurd h (hroom s hs)⟩, fun _ => ⟨s, rfl, hs⟩⟩
    rintro ⟨m, h⟩
    cases h

/-- A loop of turns meets a crowded level, or ends with what every turn keeps. -/
theorem turns_rule {σ : Type} {frontier : σ → List String} {turn : ℕ → σ → Except TraverseError σ}
    (turns : ℕ → ℕ → σ → Except TraverseError σ) (hzero : ∀ d s, turns 0 d s = .ok s)
    (hsucc : ∀ n d s, turns (n + 1) d s = if frontier s = [] then .ok s else turn d s >>= turns n (d + 1))
    {I : ℕ → σ → Prop} (hempty : ∀ {k s}, I k s → frontier s = [] → sphere step start k = ∅)
    (hturn : ∀ {k s}, I k s → Search step start maxNodes (k + 1) (I (k + 1)) (turn (k + 1) s)) {s : σ} (h : I k s)
    (n : ℕ) :
    Search step start maxNodes (k + n) (fun s' => ∃ m, I m s' ∧ Ended step start (k + n) m) (turns n (k + 1) s) := by
  induction n generalizing k s with
  | zero => exact .inr ⟨s, hzero _ s, k, h, le_rfl, .inl rfl⟩
  | succ n ih =>
    rw [hsucc]
    by_cases hnil : frontier s = []
    · rw [if_pos hnil]
      exact .inr ⟨s, rfl, k, h, by omega, .inr (hempty h hnil)⟩
    · rw [if_neg hnil]
      obtain ⟨hfail, hcrowded⟩ | ⟨s', hok, hs'⟩ := hturn h
      · rw [hfail]
        exact .inl ⟨rfl, hcrowded.mono (by omega)⟩
      · rw [hok]
        have hrest := ih hs'
        rw [show k + 1 + n = k + (n + 1) by omega] at hrest
        exact hrest

/-- The walk is at level `m`, and has followed what leaves the levels before. -/
structure Walk.At (org : String) (maxNodes : ℤ) (reverse : Bool) (edges : List RelationshipRow) (start : String) (m : ℕ)
    (w : Walk) : Prop where
  level : Level (Leads edges org reverse) start m w.nodes w.frontier
  sound : w.Sound maxNodes
  depth : w.depth = m
  relationships : ∀ e, e ∈ w.relationships ↔ e ∈ edges ∧ e.live org ∧
    ∃ j < m, e.source reverse ∈ sphere (Leads edges org reverse) start j

theorem Fresh.leads (h : Fresh reverse w (followed org reverse edges w'.frontier) added) :
    ∀ v ∈ added, v ∉ w.nodes ∧ ∃ u ∈ w'.frontier, Leads edges org reverse u v := by
  intro v hv
  obtain ⟨e, he, htarget⟩ := h.target v hv
  obtain ⟨hmem, hlive, hsource⟩ := mem_followed.mp he
  exact ⟨h.new v hv, _, hsource, e, hmem, hlive, rfl, htarget⟩

theorem Walk.At.turn (h : w.At org maxNodes reverse edges start k) :
    Search (Leads edges org reverse) start maxNodes (k + 1) (Walk.At org maxNodes reverse edges start (k + 1))
      (w.turn org maxNodes reverse edges (k + 1)) := by
  have hsound : { w with next := [] }.Sound maxNodes := ⟨h.sound.seen, h.sound.length, h.sound.bound⟩
  unfold Walk.turn
  rw [foldlM_frontier]
  obtain ⟨added, w', hok, hf⟩ | ⟨added, hfail, hfresh, hmany⟩ :=
    follow_all reverse (followed org reverse edges w.frontier) hsound
  · right
    rw [hok]
    refine ⟨_, rfl, ?_, ⟨hf.sound.seen, hf.sound.length, hf.sound.bound⟩, rfl, ?_⟩
    · rw [hf.nodes, hf.next]
      refine h.level.next hf.nodup ?_
      intro v
      constructor
      · exact hf.leads v
      · rintro ⟨hnew, u, hu, e, he, hlive, rfl, rfl⟩
        have hreached := hf.reached e (mem_followed.mpr ⟨he, hlive, hu⟩)
        rw [hf.nodes] at hreached
        exact (List.mem_append.mp hreached).resolve_left hnew
    · intro e
      rw [hf.relationships, List.mem_append, h.relationships, mem_followed, h.level.mem_frontier]
      constructor
      · rintro (⟨he, hlive, j, hj, hs⟩ | ⟨he, hlive, hs⟩)
        · exact ⟨he, hlive, j, by omega, hs⟩
        · exact ⟨he, hlive, k, by omega, hs⟩
      · rintro ⟨he, hlive, j, hj, hs⟩
        by_cases hjk : j = k
        · subst hjk
          exact .inr ⟨he, hlive, hs⟩
        · exact .inl ⟨he, hlive, j, by omega, hs⟩
  · left
    rw [hfail]
    exact ⟨rfl, crowded_of_added h.level hfresh.nodup hfresh.leads h.sound.bound hmany⟩

variable {collation : Collation} {db : Db}

theorem foldl_scan {rows : List String} (hnodup : rows.Nodup) {seen next : List String}
    (hnew : ∀ v ∈ rows, v ∉ seen) :
    rows.foldl (fun st node => if node ∈ st.1 then st else (node :: st.1, st.2 ++ [node])) (seen, next) =
      (rows.reverse ++ seen, next ++ rows) := by
  induction rows generalizing seen next with
  | nil => simp
  | cons v rows ih =>
    obtain ⟨hv, hnodup⟩ := List.nodup_cons.mp hnodup
    have hrest : ∀ u ∈ rows, u ∉ v :: seen := fun u hu hmem => (List.mem_cons.mp hmem).elim
      (fun heq => hv (heq ▸ hu)) (hnew u (List.mem_cons_of_mem v hu))
    rw [List.foldl_cons, if_neg (hnew v (.head _)), ih hnodup hrest]
    simp

def targets (collation : Collation) (rows : List RelationshipRow) (org : String) (reverse : Bool)
    (frontier visited : List String) : List String :=
  (((rows.filter fun e => e.live org && e.source reverse ∈ frontier &&
    !decide (e.target reverse ∈ visited)).map (·.target reverse)).dedup).mergeSort collation

theorem nodup_targets {rows : List RelationshipRow} : (targets collation rows org reverse frontier visited).Nodup :=
  (List.mergeSort_perm _ _).nodup_iff.mpr (List.nodup_dedup _)

theorem mem_targets {rows : List RelationshipRow} {v : String} :
    v ∈ targets collation rows org reverse frontier visited ↔
      v ∉ visited ∧ ∃ u ∈ frontier, Leads rows org reverse u v := by
  unfold targets
  rw [(List.mergeSort_perm _ _).mem_iff, List.mem_dedup, List.mem_map]
  constructor
  · rintro ⟨e, he, rfl⟩
    simp only [List.mem_filter, Bool.and_eq_true, decide_eq_true_eq, Bool.not_eq_true', decide_eq_false_iff_not] at he
    obtain ⟨hmem, ⟨hlive, hsource⟩, hnew⟩ := he
    exact ⟨hnew, _, hsource, e, hmem, hlive, rfl, rfl⟩
  · rintro ⟨hnew, u, hu, e, hmem, hlive, rfl, rfl⟩
    exact ⟨e, by simp [hmem, hlive, hu, hnew], rfl⟩

/-- The expansion is at level `m`; its depth is the last level that was not empty. -/
structure Expansion.At (maxNodes : ℤ) (step : String → String → Prop) (start : String) (m : ℕ)
    (f : Expansion) : Prop where
  level : Level step start m f.nodes f.frontier
  seen : ∀ v, v ∈ f.seen ↔ v ∈ f.nodes
  bound : (f.nodes.length : ℤ) ≤ maxNodes
  depth_le : f.depth ≤ m
  reached : sphere step start f.depth ≠ ∅
  last : f.depth = m ∨ sphere step start m = ∅

theorem Expansion.At.next (h : f.At maxNodes step start k) {seen found : List String}
    (hlevel : Level step start (k + 1) (f.nodes ++ found) found) (hseen : ∀ v, v ∈ seen ↔ v ∈ f.nodes ++ found)
    (hroom : ((f.nodes.length + found.length : ℕ) : ℤ) ≤ maxNodes) : Expansion.At maxNodes step start (k + 1)
      { seen := seen, frontier := found
        nodes := if 0 < found.length then f.nodes ++ found else f.nodes
        depth := if 0 < found.length then k + 1 else f.depth } := by
  have hnodes : (if 0 < found.length then f.nodes ++ found else f.nodes) = f.nodes ++ found := by
    split_ifs with hpos
    · rfl
    · rw [List.eq_nil_of_length_eq_zero (Nat.eq_zero_of_not_pos hpos), List.append_nil]
  rw [hnodes]
  have hempty : sphere step start (k + 1) = ∅ ↔ ¬ 0 < found.length := by
    rw [← hlevel.frontier_eq_nil, List.length_pos_iff, not_not]
  refine ⟨hlevel, hseen, by simpa using hroom, ?_, ?_, ?_⟩
  · have := h.depth_le
    dsimp only
    split_ifs <;> omega
  · split_ifs with hpos
    · exact fun hnone => hempty.mp hnone hpos
    · exact h.reached
  · split_ifs with hpos
    · exact .inl rfl
    · exact .inr (hempty.mpr hpos)

theorem Expansion.At.turn (collation : Collation) (h : f.At maxNodes (Leads db.relationships.rows org reverse) start k) :
    Search (Leads db.relationships.rows org reverse) start maxNodes (k + 1)
      (fun s => s.2 = db ∧ s.1.At maxNodes (Leads db.relationships.rows org reverse) start (k + 1))
      ((f.turn collation org maxNodes reverse (k + 1)).run db) := by
  set found := targets collation db.relationships.rows org reverse f.frontier f.nodes with hfound
  have hnodup : found.Nodup := nodup_targets
  have hmem : ∀ v, v ∈ found ↔ v ∉ f.nodes ∧ ∃ u ∈ f.frontier, Leads db.relationships.rows org reverse u v :=
    fun v => mem_targets
  have hbound := h.bound
  set limit := (maxNodes - f.nodes.length + 1).toNat with hlimit
  have hscan : Expansion.scan f.seen (found.take limit) =
      ((found.take limit).reverse ++ f.seen, found.take limit) := by
    refine foldl_scan (hnodup.sublist (List.take_sublist _ _)) ?_
    intro v hv
    rw [h.seen]
    exact ((hmem v).mp (List.mem_of_mem_take hv)).1
  have hrows : (exec (selectTargets collation org f.frontier f.nodes reverse limit)).run db =
      .ok (found.take limit, db) := rfl
  unfold Expansion.turn
  rw [run_bind_of_ok hrows]
  rw [hscan]
  dsimp only
  by_cases hroom : (found.length : ℤ) ≤ maxNodes - f.nodes.length
  · -- the query returned every new target
    right
    rw [List.take_of_length_le (by omega), failIf_neg (by omega)]
    refine ⟨_, rfl, rfl, h.next (h.level.next hnodup hmem) ?_ (by omega)⟩
    intro v
    simp [h.seen, or_comm]
  · left
    rw [List.length_take, failIf_pos (by omega)]
    exact ⟨rfl, crowded_of_added h.level hnodup (fun v => (hmem v).mp) hbound (by omega)⟩

theorem Expansion.run_turns (s : Expansion × Db) (n level : ℕ) :
    (s.1.turns collation org maxNodes reverse (n + 1) level).run s.2 =
      if s.1.frontier = [] then .ok s
      else (s.1.turn collation org maxNodes reverse level).run s.2 >>=
        fun s' => (s'.1.turns collation org maxNodes reverse n (level + 1)).run s'.2 := by
  rw [Expansion.turns]
  split_ifs
  · rfl
  · cases hturn : (s.1.turn collation org maxNodes reverse level).run s.2 with
    | error e => exact run_bind_error hturn
    | ok s' => exact run_bind_of_ok hturn

theorem leads_perm (org : String) (reverse : Bool) {edges' : List RelationshipRow} (h : edges.Perm edges') :
    Leads edges org reverse = Leads edges' org reverse := by
  funext v w
  simp only [Leads, h.mem_iff]

variable {depth nodes : ℤ}

def Walk.initial (start : String) : Walk := { seen := [start], frontier := [start], nodes := [start] }

theorem Walk.at_start (hnodes : 1 ≤ maxNodes) : (Walk.initial start).At org maxNodes reverse edges start 0 :=
  ⟨Level.init, ⟨fun _ => Iff.rfl, rfl, by simpa [Walk.initial] using hnodes⟩, rfl, by simp [Walk.initial]⟩

section

variable (limits : Limits) (reverse : Bool) (edges : List RelationshipRow) (horg : org ≠ "") (hstart : start ≠ "")
  (hdepth : 1 ≤ depth ∧ depth ≤ limits.maxDepth) (hnodes : 1 ≤ nodes ∧ nodes ≤ limits.maxNodes)

include horg hstart hdepth hnodes

theorem traverse_search {I : ℕ → Walk → Prop} (hat : ∀ {k w}, I k w → w.At org nodes reverse edges start k)
    (hturn : ∀ {k w}, I k w → Search (Leads edges org reverse) start nodes (k + 1) (I (k + 1))
      (w.turn org nodes reverse edges (k + 1))) (hinit : I 0 (Walk.initial start)) :
    Search (Leads edges org reverse) start nodes depth.toNat
      (fun r => ∃ m w, r = ⟨w.nodes, w.relationships, w.depth⟩ ∧ I m w ∧
        Ended (Leads edges org reverse) start depth.toNat m)
      (limits.traverse org start depth nodes reverse edges) := by
  have hloop := turns_rule (Walk.turns org nodes reverse edges) (fun _ _ => rfl) (fun _ _ _ => rfl)
    (fun h hnil => (hat h).level.frontier_eq_nil.mp hnil) hturn hinit depth.toNat
  have heq : limits.traverse org start depth nodes reverse edges =
      (Walk.turns org nodes reverse edges depth.toNat 1 (Walk.initial start)).map
        fun w => ⟨w.nodes, w.relationships, w.depth⟩ := by
    unfold Limits.traverse
    rw [if_neg (by tauto), if_neg (by omega)]
    rfl
  rw [heq]
  rw [Nat.zero_add] at hloop
  obtain ⟨hfail, hcrowded⟩ | ⟨w, hok, m, hw, hend⟩ := hloop
  · rw [hfail]
    exact .inl ⟨rfl, hcrowded⟩
  · rw [hok]
    exact .inr ⟨_, rfl, m, w, rfl, hw, hend⟩

/-- `Service.Traverse` ends at the depth or one level after the last. -/
theorem traverse_outcome : Search (Leads edges org reverse) start nodes depth.toNat
      (fun r => ¬ Crowded (Leads edges org reverse) start depth.toNat nodes.toNat ∧
        (∀ v, v ∈ r.nodes ↔ v ∈ ball (Leads edges org reverse) start depth.toNat) ∧
        Ended (Leads edges org reverse) start depth.toNat r.depth ∧
        ∀ e, e ∈ r.relationships ↔ e ∈ edges ∧ e.live org ∧
          ∃ j < r.depth, e.source reverse ∈ sphere (Leads edges org reverse) start j)
      (limits.traverse org start depth nodes reverse edges) := by
  obtain hfail | ⟨_, hok, m, w, rfl, hw, hend⟩ := traverse_search limits reverse edges horg hstart hdepth hnodes
    (fun h => h) (fun h => h.turn) (Walk.at_start hnodes.1)
  · exact .inl hfail
  · refine .inr ⟨_, hok, hend.not_crowded hw.level hw.sound.bound, ?_, ?_, ?_⟩
    · rw [ball_eq_of_end hend.1 hend.2]
      exact hw.level.mem_visited
    · rw [hw.depth]
      exact hend
    · rw [hw.depth]
      exact hw.relationships

end

def Expansion.initial (start : String) : Expansion := { seen := [start], frontier := [start], nodes := [start] }

def induced (collation : Collation) (rows : List RelationshipRow) (org : String) (nodes : List String) :
    List RelationshipRow :=
  (rows.filter fun e => e.live org && e.fromAssetID ∈ nodes && e.toAssetID ∈ nodes).mergeSort
    fun a b => collation a.id b.id

theorem mem_induced (reverse : Bool) {ns : List String} {e : RelationshipRow} :
    e ∈ induced collation edges org ns ↔ e ∈ edges ∧ e.live org ∧ e.source reverse ∈ ns ∧ e.target reverse ∈ ns := by
  unfold induced
  cases reverse <;> simp <;> tauto

theorem Expansion.at_start (hnodes : 1 ≤ maxNodes) : (Expansion.initial start).At maxNodes step start 0 :=
  ⟨Level.init, fun _ => Iff.rfl, by simpa [Expansion.initial] using hnodes, le_rfl, Set.singleton_ne_empty start,
    .inl rfl⟩

section

variable (collation : Collation) (reverse : Bool) (horg : org ≠ "") (hstart : start ≠ "")
  (hasset : (db.assets.get start).any fun a => a.organizationID = org) (hdepth : 1 ≤ depth) (hnodes : 1 ≤ nodes)

include horg hstart hasset hdepth hnodes

theorem traversePostgres_search {I : ℕ → Expansion → Prop}
    (hat : ∀ {k f}, I k f → f.At nodes (Leads db.relationships.rows org reverse) start k)
    (hturn : ∀ {k f}, I k f → Search (Leads db.relationships.rows org reverse) start nodes (k + 1)
      (fun s => s.2 = db ∧ I (k + 1) s.1) ((f.turn collation org nodes reverse (k + 1)).run db))
    (hinit : I 0 (Expansion.initial start)) :
    Search (Leads db.relationships.rows org reverse) start nodes depth.toNat
      (fun s => ∃ m f, s = (⟨f.nodes, induced collation db.relationships.rows org f.nodes, f.depth⟩, db) ∧ I m f ∧
        Ended (Leads db.relationships.rows org reverse) start depth.toNat m)
      ((traversePostgres collation org start depth nodes reverse).run db) := by
  have hloop := turns_rule (I := fun k s => s.2 = db ∧ I k s.1)
    (fun n level (s : Expansion × Db) => (s.1.turns collation org nodes reverse n level).run s.2) (fun _ _ => rfl)
    (fun n level s => Expansion.run_turns s n level) (fun h hnil => (hat h.2).level.frontier_eq_nil.mp hnil)
    (fun h => by rw [h.1]; exact hturn h.2) (s := (Expansion.initial start, db)) ⟨rfl, hinit⟩ depth.toNat
  have hexists : (exec (selectAssetExists start org)).run db = .ok (true, db) := by
    rw [← hasset]
    rfl
  unfold traversePostgres
  rw [failIf_neg (by tauto), ret_bind, failIf_neg (by omega), ret_bind, run_bind_of_ok hexists,
    failIf_neg (by simp), ret_bind]
  rw [Nat.zero_add] at hloop
  obtain ⟨hfail, hcrowded⟩ | ⟨⟨f, _⟩, hok, m, ⟨rfl, hf⟩, hend⟩ := hloop
  · exact .inl ⟨run_bind_error hfail, hcrowded⟩
  · exact .inr ⟨_, run_bind_of_ok hok, m, f, rfl, hf, hend⟩

/-- `TraversePostgres` ends at the last level that is not empty. -/
theorem traversePostgres_outcome : Search (Leads db.relationships.rows org reverse) start nodes depth.toNat
      (fun s => ¬ Crowded (Leads db.relationships.rows org reverse) start depth.toNat nodes.toNat ∧
        (∀ v, v ∈ s.1.nodes ↔ v ∈ ball (Leads db.relationships.rows org reverse) start depth.toNat) ∧
        sphere (Leads db.relationships.rows org reverse) start s.1.depth ≠ ∅ ∧
        (s.1.depth = depth.toNat ∨ sphere (Leads db.relationships.rows org reverse) start depth.toNat = ∅) ∧
        ∀ e, e ∈ s.1.relationships ↔ e ∈ db.relationships.rows ∧ e.live org ∧
          e.source reverse ∈ ball (Leads db.relationships.rows org reverse) start depth.toNat ∧
          e.target reverse ∈ ball (Leads db.relationships.rows org reverse) start depth.toNat)
      ((traversePostgres collation org start depth nodes reverse).run db) := by
  obtain hfail | ⟨_, hok, m, f, rfl, hf, hend⟩ := traversePostgres_search collation reverse horg hstart hasset hdepth
    hnodes (fun h => h) (fun h => h.turn collation) (Expansion.at_start hnodes)
  · exact .inl hfail
  have hball := ball_eq_of_end hend.1 hend.2
  refine .inr ⟨_, hok, hend.not_crowded hf.level hf.bound, ?_, hf.reached, ?_, ?_⟩
  · rw [hball]
    exact hf.level.mem_visited
  · cases hf.last with
    | inr hempty => exact .inr (sphere_empty_mono hempty hend.1)
    | inl hdepth =>
      cases hend.2 with
      | inl heq => exact .inl (hdepth.trans heq)
      | inr hempty => exact .inr (sphere_empty_mono hempty hend.1)
  · intro e
    rw [mem_induced reverse, hball, hf.level.mem_visited, hf.level.mem_visited]

end

theorem depth_agrees {m p D : ℕ} (hm : Ended step start D m) (hp : p = D ∨ sphere step start D = ∅)
    (hreached : sphere step start p ≠ ∅) : m = p ↔ sphere step start D ≠ ∅ := by
  constructor
  · rintro rfl
    cases hm.2 with
    | inl heq => rwa [heq] at hreached
    | inr hempty => exact absurd hempty hreached
  · intro hD
    have hm : m = D := hm.2.resolve_right fun hempty => hD (sphere_empty_mono hempty hm.1)
    rw [hm, hp.resolve_right hD]

/-- What leaves the levels before the last is all that stays within them, unless
something leads back from the last. -/
theorem relationships_agree {D : ℕ} : (∀ e : RelationshipRow,
        (e ∈ edges ∧ e.live org ∧ ∃ j < D, e.source reverse ∈ sphere (Leads edges org reverse) start j) ↔
          (e ∈ edges ∧ e.live org ∧ e.source reverse ∈ ball (Leads edges org reverse) start D ∧
            e.target reverse ∈ ball (Leads edges org reverse) start D)) ↔
      ∀ v w, v ∈ sphere (Leads edges org reverse) start D → w ∈ ball (Leads edges org reverse) start D →
        ¬ Leads edges org reverse v w := by
  constructor
  · rintro hsame v w hv hw ⟨e, he, hlive, rfl, rfl⟩
    obtain ⟨-, -, j, hj, hs⟩ := (hsame e).mpr ⟨he, hlive, sphere_subset_ball hv, hw⟩
    exact not_mem_sphere_of_lt hj hs hv
  · intro hopen e
    constructor
    · rintro ⟨he, hlive, j, hj, hs⟩
      have hsource := ball_mono (n := D - 1) (by omega) (sphere_subset_ball hs)
      have htarget := step_mem_ball hsource ⟨e, he, hlive, rfl, rfl⟩
      rw [Nat.sub_add_cancel (by omega)] at htarget
      exact ⟨he, hlive, ball_mono (by omega) hsource, htarget⟩
    · rintro ⟨he, hlive, hsource, htarget⟩
      obtain ⟨j, hj, hs⟩ := mem_ball_iff.mp hsource
      refine ⟨he, hlive, j, ?_, hs⟩
      by_contra hlast
      obtain rfl : j = D := by omega
      exact hopen _ _ hs htarget ⟨e, he, hlive, rfl, rfl⟩

/-- The engines agree when both stop at the node limit, or when the last level is
not empty and nothing leads back from it. -/
theorem traverse_agree_iff (limits : Limits) (collation : Collation) (db : Db) (edges : List RelationshipRow)
    (hedges : edges.Perm db.relationships.rows) (org start : String) (reverse : Bool)
    (hasset : (db.assets.get start).any fun a => a.organizationID = org) (depth nodes : ℤ)
    (hdepth : 1 ≤ depth ∧ depth ≤ limits.maxDepth) (hnodes : 1 ≤ nodes ∧ nodes ≤ limits.maxNodes) :
    SameAnswer (limits.traverse org start depth nodes reverse edges)
        (((traversePostgres collation org start depth nodes reverse).run db).map Prod.fst) ↔
      org ≠ "" ∧ start ≠ "" ∧
        (Crowded (Leads edges org reverse) start depth.toNat nodes.toNat ∨
          OpenEnded (Leads edges org reverse) start depth.toNat) := by
  by_cases hempty : org = "" ∨ start = ""
  · -- neither engine starts
    constructor
    · intro hsame
      have hfail : limits.traverse org start depth nodes reverse edges =
          .error (.required "organization and start asset are required") := by
        unfold Limits.traverse
        rw [if_pos hempty]
        rfl
      obtain ⟨m, m', h, -⟩ | ⟨r, r', h, -⟩ := hsame <;> cases hfail.symm.trans h
    · rintro ⟨horg, hstart, -⟩
      exact absurd hempty (by tauto)
  push Not at hempty
  obtain ⟨horg, hstart⟩ := hempty
  have hleads := leads_perm org reverse hedges
  have hlist := traverse_outcome limits reverse edges horg hstart hdepth hnodes
  have htable := traversePostgres_outcome collation reverse horg hstart hasset hdepth.1 hnodes.1
  rw [← hleads] at htable
  obtain ⟨hfail, hcrowded⟩ | ⟨r, hok, hroom, hns, hd, hrels⟩ := hlist
  · obtain ⟨hfail', -⟩ | ⟨s, -, hroom, -⟩ := htable
    · rw [hfail, hfail']
      exact ⟨fun _ => ⟨horg, hstart, .inl hcrowded⟩, fun _ => .inl ⟨_, _, rfl, rfl⟩⟩
    · exact absurd hcrowded hroom
  obtain ⟨-, hcrowded⟩ | ⟨⟨r', _⟩, hok', -, hns', hreached, hd', hrels'⟩ := htable
  · exact absurd hcrowded hroom
  rw [hok, hok']
  have hdepths := depth_agrees hd hd' hreached
  have hrest : sphere (Leads edges org reverse) start depth.toNat ≠ ∅ →
      ((∀ e, e ∈ r.relationships ↔ e ∈ r'.relationships) ↔
        ∀ v w, v ∈ sphere (Leads edges org reverse) start depth.toNat →
          w ∈ ball (Leads edges org reverse) start depth.toNat → ¬ Leads edges org reverse v w) := by
    intro hlast
    have hr : r.depth = depth.toNat := (hdepths.mpr hlast).trans (hd'.resolve_right hlast)
    rw [← relationships_agree]
    simp only [hrels, hrels', hr, hedges.mem_iff]
  constructor
  · rintro (⟨_, _, h, -⟩ | ⟨_, _, ⟨⟩, ⟨⟩, -, hrel, hdeq⟩)
    · cases h
    · have hlast := hdepths.mp hdeq
      exact ⟨horg, hstart, .inr ⟨Set.nonempty_iff_ne_empty.mpr hlast, (hrest hlast).mp hrel⟩⟩
  · rintro ⟨-, -, hcrowded | ⟨hsome, hopen⟩⟩
    · exact absurd hcrowded hroom
    · have hlast := Set.nonempty_iff_ne_empty.mp hsome
      refine .inr ⟨r, r', rfl, rfl, ?_, (hrest hlast).mpr hopen, hdepths.mpr hlast⟩
      intro v
      rw [hns, hns']

def assetNamed (id : String) : AssetRow :=
  { id := id, organizationID := "org", canonicalName := id, displayName := id, assetType := "APPLICATION"
    status := .active, environment := none, firstSeenAt := 1, lastSeenAt := 1 }

def loneDb : Db := { emptyDb with assets := Table.empty.put (assetNamed "host") }

def runsOn : RelationshipRow :=
  { id := "runs-on", organizationID := "org", fromAssetID := "app", toAssetID := "host", type := "RUNS_ON"
    status := .active, firstSeenAt := 1, lastSeenAt := 1 }

def pairDb : Db :=
  { emptyDb with
    assets := (Table.empty.put (assetNamed "host")).put (assetNamed "app")
    relationships := Table.empty.put runsOn }

def byteOrder : Collation := fun a b => decide (a ≤ b)

/-- From an asset without relationships one engine reports depth 1, the other 0. -/
theorem lone_asset_depth : ¬ SameAnswer (Limits.traverse ⟨6, 500⟩ "org" "host" 1 10 false [])
      (((traversePostgres byteOrder "org" "host" 1 10 false).run loneDb).map Prod.fst) := by
  have hlist : Limits.traverse ⟨6, 500⟩ "org" "host" 1 10 false [] = .ok ⟨["host"], [], 1⟩ := rfl
  have htable : (traversePostgres byteOrder "org" "host" 1 10 false).run loneDb = .ok (⟨["host"], [], 0⟩, loneDb) := by
    have hnone : (exec (selectTargets byteOrder "org" ["host"] ["host"] false 10)).run loneDb = .ok ([], loneDb) := by
      change Except.ok (List.take 10 (List.mergeSort [] byteOrder), loneDb) = _
      rw [List.mergeSort_nil]
      rfl
    have hinduced : (exec (selectInduced byteOrder "org" ["host"])).run loneDb = .ok ([], loneDb) := by
      change Except.ok (List.mergeSort [] _, loneDb) = _
      rw [List.mergeSort_nil]
    have hturns : (Expansion.turns byteOrder "org" 10 false 1 1 ⟨["host"], ["host"], ["host"], 0⟩).run loneDb =
        .ok (⟨["host"], [], ["host"], 0⟩, loneDb) := by
      exact run_bind_of_ok hnone
    exact (run_bind_of_ok hturns).trans (run_bind_of_ok hinduced)
  rw [hlist, htable]
  rintro (⟨_, _, h, -⟩ | ⟨_, _, ⟨⟩, ⟨⟩, -, -, hdepth⟩)
  · cases h
  · cases hdepth

theorem leads_runsOn {v w : String} : Leads [runsOn] "org" false v w ↔ v = "app" ∧ w = "host" := by
  constructor
  · rintro ⟨e, he, -, rfl, rfl⟩
    rw [List.mem_singleton.mp he]
    exact ⟨rfl, rfl⟩
  · rintro ⟨rfl, rfl⟩
    exact ⟨runsOn, List.mem_singleton_self _, by decide, rfl, rfl⟩

/-- One step along a single relationship, both engines give the same answer. -/
theorem traverse_agree_pair : SameAnswer (Limits.traverse ⟨6, 500⟩ "org" "app" 1 10 false [runsOn])
      (((traversePostgres byteOrder "org" "app" 1 10 false).run pairDb).map Prod.fst) := by
  refine (traverse_agree_iff ⟨6, 500⟩ byteOrder pairDb [runsOn] (List.Perm.refl _) "org" "app" false (by decide)
    1 10 (by decide) (by decide)).mpr ⟨by decide, by decide, .inr ⟨⟨"host", ?_, by simp [ball]⟩, ?_⟩⟩
  · exact step_mem_ball rfl (leads_runsOn.mpr ⟨rfl, rfl⟩)
  · intro v w hv hw hleads
    exact hv.2 (leads_runsOn.mp hleads).1

end Infragraph
