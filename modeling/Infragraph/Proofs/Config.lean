import Infragraph.Spec.Config

/-! The limits of a traversal request against the configured ceilings: a parameter
that is read as a number is brought under its ceiling, any other is replaced by a
default that knows nothing of it. And what `Validate` lets into production. -/

namespace Infragraph

open ReadCommitted Prog

/-- A number is clamped; the default is taken as it is. -/
theorem boundedInt_within {v : String} {d min max : ℤ} (hd : min ≤ d) (hmax : min ≤ max) :
    (min ≤ boundedInt v d min max ∧ boundedInt v d min max ≤ max) ↔ ((atoi v).isSome ∨ d ≤ max) := by
  unfold boundedInt
  cases atoi v with
  | none => simp [hd]
  | some n =>
    simp only [Option.isSome_some, true_or, iff_true]
    split_ifs <;> omega

section

variable [Urls]

theorem graphLimits_of_validate {c : Config} (h : c.validate = .ok ()) :
    1 ≤ c.maxGraphDepth ∧ 1 ≤ c.maxGraphNodes := by
  by_contra hlow
  unfold Config.validate at h
  split_ifs at h
  all_goals omega

def traverseAnswer (out : Except TraverseError (TraverseResult × Db)) : Except Reply (AssetAnswer × Db) :=
  match out with
  | .ok (result, db) => .ok (.traversal result, db)
  | .error e => .error (traverseReply e)

omit [Urls] in
theorem run_traversal (p : Prog Db Write Lock TraverseError TraverseResult) (db : Db) :
    (p.mapError traverseReply >>= fun result => return .traversal result).run db = traverseAnswer (p.run db) := by
  cases hrun : p.run db with
  | error e =>
    apply run_bind_error
    rw [run_mapError, hrun]
    rfl
  | ok out =>
    refine (run_bind_of_ok ?_).trans rfl
    rw [run_mapError, hrun]
    rfl

/-- A subresource is traversed with limits within the ceilings of an accepted
configuration exactly when each parameter is a number or its default is within. -/
theorem assetRoute_within_iff (c : Config) (hc : c.validate = .ok ()) (collation : Collation)
    (org route head id kind : String) (query : UrlValues)
    (hroute : (route.toList.splitOn '/').map String.ofList = [head, id, kind])
    (hkind : kind = "dependencies" ∨ kind = "dependents" ∨ kind = "impact" ∨ kind = "relationships") :
    (∀ db, (assetRoute c collation org route query).run db =
        traverseAnswer ((traversePostgres collation org id (c.traversalLimits query).1 (c.traversalLimits query).2
          (kind = "dependents" ∨ kind = "impact")).run db)) ∧
      ((1 ≤ (c.traversalLimits query).1 ∧ (c.traversalLimits query).1 ≤ c.maxGraphDepth ∧
          1 ≤ (c.traversalLimits query).2 ∧ (c.traversalLimits query).2 ≤ c.maxGraphNodes) ↔
        ((atoi (query.get "maxDepth")).isSome ∨ 3 ≤ c.maxGraphDepth) ∧
          ((atoi (query.get "maxNodes")).isSome ∨ 100 ≤ c.maxGraphNodes)) := by
  refine ⟨fun db => ?_, ?_⟩
  · unfold assetRoute
    rw [hroute]
    dsimp only
    rw [if_pos hkind]
    exact run_traversal _ db
  obtain ⟨hdepth, hnodes⟩ := graphLimits_of_validate hc
  rw [← and_assoc, ← boundedInt_within (by omega) hdepth, ← boundedInt_within (by omega) hnodes]
  rfl

end

@[reducible] def noUrls : Urls := ⟨fun _ => none⟩

def smallConfig : Config :=
  { environment := "test", databaseURL := "postgres://localhost/infragraph", sessionSecret := "", masterKey := ""
    allowedOrigins := [], objectStorageType := "local", s3Endpoint := "", s3Bucket := "", s3AccessKey := ""
    s3SecretKey := "", s3UseTLS := false, otelEnabled := false, otelEndpoint := "", debug := false
    maxGraphDepth := 2, maxGraphNodes := 50, maxImportBytes := 1024, maxSnapshotBytes := 1024
    maxConcurrentReconciliations := 1 }

theorem assetRoute_within_given : (1 ≤ (smallConfig.traversalLimits [("maxDepth", "9"), ("maxNodes", "-4")]).1 ∧
      (smallConfig.traversalLimits [("maxDepth", "9"), ("maxNodes", "-4")]).1 ≤ smallConfig.maxGraphDepth ∧
      1 ≤ (smallConfig.traversalLimits [("maxDepth", "9"), ("maxNodes", "-4")]).2 ∧
      (smallConfig.traversalLimits [("maxDepth", "9"), ("maxNodes", "-4")]).2 ≤ smallConfig.maxGraphNodes) :=
  (@assetRoute_within_iff noUrls smallConfig rfl (fun a b => decide (a ≤ b)) "org" "assets/app/impact" "assets" "app"
    "impact"
    [("maxDepth", "9"), ("maxNodes", "-4")] (by decide) (by decide)).2.mpr (by decide)

/-- Without parameters both limits are above the ceilings. -/
theorem assetRoute_exceeds_ceilings :
    @Config.validate noUrls smallConfig = .ok () ∧ smallConfig.traversalLimits [] = (3, 100) ∧
    smallConfig.maxGraphDepth = 2 ∧
      smallConfig.maxGraphNodes = 50 :=
  ⟨rfl, rfl, rfl, rfl⟩

section

variable [Urls] {c : Config}

end

end Infragraph
