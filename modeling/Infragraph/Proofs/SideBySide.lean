import Infragraph.Proofs.Footprint

/-! `ApplyPostgres` among other reconciliations, statement by statement. An asset
is pending from the statement that first changes its row, its identities or its
claims to the one that settles its status; both under the lock on its row, except
in the sweep, where the lock is taken in between. -/

namespace Infragraph

open Relational ReadCommitted Prog

variable {F : AssetStatus → Bool → Bool → Prop} {C : Schedule Db} {org connector a e : String} {p p' : List String}
  {G : List Lock → Db → Prop} {β : Type} {v d₁ d₂ : Db} {l : Local Db Write Lock} {b : Bool} {K P : Prop}

/-- A fact about the locks and the view that neither others nor further locks
can falsify. -/
def Durable (org connector : String) (G : List Lock → Db → Prop) : Prop :=
  ∀ held held' v v', held ⊆ held' → Later org connector held v v' → G held v → G held' v'

theorem durable_true : Durable org connector fun _ _ => True := fun _ _ _ _ _ _ _ => trivial

theorem Durable.and {G' : List Lock → Db → Prop} (h : Durable org connector G) (h' : Durable org connector G') :
    Durable org connector fun held v => G held v ∧ G' held v :=
  fun _ _ _ _ hh hl hg => ⟨h _ _ _ _ hh hl hg.1, h' _ _ _ _ hh hl hg.2⟩

theorem durable_held {lk : Lock} : Durable org connector fun held _ => lk ∈ held :=
  fun _ _ _ _ hh _ hg => hh hg

theorem durable_owns {o : String} : Durable org connector fun _ v => v.Owns o a :=
  fun _ _ _ _ _ hl hg => hl.owns _ _ hg

theorem durable_ownsAll : Durable org connector fun _ v => ∀ x ∈ p, v.Owns org x :=
  fun _ _ _ _ _ hl h x hx => hl.owns _ _ (h x hx)

theorem durable_same {H : Db → Prop} (hH : ∀ v v', SameAt a v v' → H v → H v') :
    Durable org connector fun held v => assetLock a ∈ held ∧ H v :=
  fun _ _ _ _ hh hl hg => ⟨hh hg.1, hH _ _ (hl.asset a hg.1) hg.2⟩

theorem durable_own {H : Option SourceIdentityRow → Prop} :
    Durable org connector fun _ v => H (v.sourceIdentities.get (org, connector, e)) := by
  intro held held' v v' _ hl hg
  rw [hl.own]
  exact hg

/-- The asset of an observation is found: held, of the organization, and the one
its external ID is bound to, if it is. -/
def Found (org connector e a : String) (held : List Lock) (v : Db) : Prop :=
  assetLock a ∈ held ∧ v.Owns org a ∧
    ∀ i, v.sourceIdentities.get (org, connector, e) = some i → i.assetID = a

theorem durable_bound : Durable org connector fun _ v =>
    ∀ i, v.sourceIdentities.get (org, connector, e) = some i → i.assetID = a :=
  durable_own (H := fun o => ∀ i, o = some i → i.assetID = a)

theorem durable_absent (org connector e : String) :
    Durable org connector fun _ v => v.sourceIdentities.get (org, connector, e) = none :=
  durable_own (H := fun o => o = none)

theorem durable_found : Durable org connector (Found org connector e a) :=
  durable_held.and (durable_owns.and durable_bound)

def Tied (org connector e a : String) (held : List Lock) (v : Db) : Prop :=
  assetLock a ∈ held ∧ v.Owns org a ∧ v.binds a (org, connector, e) = true

theorem durable_tied : Durable org connector (Tied org connector e a) :=
  durable_same fun _ _ hs h => ⟨hs.owns.mpr h.1, (hs.binds _).trans h.2⟩

theorem Tied.congr {held held' : List Lock} {v' : Db} (h : Tied org connector e a held v) (hh : held ⊆ held')
    (ha : v'.assets = v.assets) (hi : v'.sourceIdentities = v.sourceIdentities) :
    Tied org connector e a held' v' := by
  refine ⟨hh h.1, ?_, (binds_congr (by rw [hi])).trans h.2.2⟩
  unfold Db.Owns
  rw [ha]
  exact h.2.1

/-- Before the status of a pending asset is written; `K` says that the asset is
held already and observed through `e`. -/
def Handled (K : Prop) (org connector e a : String) (p : List String) (held : List Lock) (v : Db) : Prop :=
  (∀ b ∈ p, v.Owns org b) ∧ (K → assetLock a ∈ held ∧ v.binds a (org, connector, e) = true)

theorem durable_handled : Durable org connector (Handled K org connector e a p) := by
  intro held held' v v' hh hl h
  refine ⟨fun b hb => hl.owns _ _ (h.1 b hb), fun hk => ?_⟩
  obtain ⟨hheld, hbinds⟩ := h.2 hk
  exact ⟨hh hheld, ((hl.asset a hheld).binds _).trans hbinds⟩

/-- After it is written: the flag is right if the claims were kept (`P`) or the
asset was held all along. -/
def Judged (K P : Prop) (org connector e a : String) (p : List String) (b : Bool) (held : List Lock)
    (v : Db) : Prop :=
  (∀ b ∈ p, v.Owns org b) ∧ assetLock a ∈ held ∧ (K → v.binds a (org, connector, e) = true) ∧
    ∃ r, v.assets.get a = some r ∧ r.organizationID = org ∧
      r.status = (if b then .conflicting else .active) ∧ (P ∨ K → b = v.conflict org a)

theorem durable_judged : Durable org connector (Judged K P org connector e a p b) := by
  refine durable_ownsAll.and (durable_same fun v v' hs h => ⟨fun hk => (hs.binds _).trans (h.1 hk), ?_⟩)
  obtain ⟨r, hr, ho, hst, hb⟩ := h.2
  exact ⟨r, hs.row.trans hr, ho, hst, fun hpk => (hb hpk).trans (hs.conflict org).symm⟩

theorem Judged.fact_observed (hobs : ∀ c, F (if c then .conflicting else .active) true c) {held : List Lock}
    (h : Judged True P org connector e a p b held v) : v.Fact F a := by
  obtain ⟨-, -, hbinds, r, hr, rfl, hst, hb⟩ := h
  intro r' hr'
  rw [hr] at hr'
  cases hr'
  have hactive : v.anyActive a = true := anyActive_iff_binds.mpr ⟨_, hbinds trivial⟩
  rw [hst, hactive, ← hb (.inr trivial)]
  exact hobs b

section

variable {v₁ v₂ : Db} {sql : String} {f : AssetRow → AssetRow} {rs : List Unit} {ws : List Write} {r : AssetRow}

theorem eval_updateAsset {q : Db → AssetRow → Bool} (he : (updateAsset sql a org q f).eval v₁ v₂ = .ok (rs, ws)) :
    ws = (((v₂.assets.get a).filter fun r => (r.organizationID = org && q v₁ r) &&
      (v₁.assets.get a).any fun r => r.organizationID = org && q v₁ r).toList.map f).map .asset := by
  have heval := changed_by_key v₁.assets v₂.assets a (fun r => r.organizationID = org && q v₁ r) f
  simp only [← Bool.and_assoc] at heval
  simp only [updateAsset, Stmt.update, Except.ok.injEq, Prod.mk.injEq] at he
  rw [← he.2, heval]

theorem Owns.put (hid : r.id = a) (ho : r.organizationID = org) :
    Db.Owns { v with assets := v.assets.put r } org a :=
  ⟨r, by subst hid; exact Table.get_put_self _ _, ho⟩

/-- A new version of a row leaves every asset with its organization. -/
theorem Owns.keep (hid : r.id = a)
    (ho : ∀ r₀, v.assets.get a = some r₀ → r.organizationID = r₀.organizationID) {o x : String}
    (h : v.Owns o x) : Db.Owns { v with assets := v.assets.put r } o x := by
  obtain ⟨r₀, hr₀, rfl⟩ := h
  by_cases hx : x = a
  · subst hx
    exact Owns.put hid (ho r₀ hr₀)
  · exact ⟨r₀, (Table.get_put_of_ne _ fun he => hx (he.symm.trans hid)).trans hr₀, rfl⟩

/-- What `markAssetMissing` writes for an asset that is held and was just given
the status of a present one. -/
theorem eval_markAssetMissing (hsame : SameAt a v₁ v₂)
    (hr : v₂.assets.get a = some r) (ho : r.organizationID = org) (hst : r.status ≠ .missing ∧ r.status ≠ .retired)
    (he : (markAssetMissing a org).eval v₁ v₂ = .ok (rs, ws)) :
    ws = (if v₂.anyActive a then [] else [{ r with status := .missing }]).map .asset := by
  rw [eval_updateAsset he, ← hsame.row, hr, ← hsame.anyActive]
  cases v₂.anyActive a <;> simp [ho, hst.1, hst.2]

end

variable [Hashes]

def Assert (F : AssetStatus → Bool → Bool → Prop) (org connector : String) (p : List String) (G : List Lock → Db → Prop)
    (d : Db) (l : Local Db Write Lock) : Prop :=
  Working F org connector p d l ∧ G l.held (l.view d)

theorem Assert.stable (hG : Durable org connector G) :
    Stable (footprintRely F) (Assert F org connector p G) := fun d d' l hi hi' hu h =>
  ⟨Working.stable d d' l hi hi' hu h.1, hG _ _ _ _ (List.Subset.refl _) (h.1.later hu) h.2⟩

def failsAnywhere (_ : Error) (_ : Db) (_ : Local Db Write Lock) : Prop := True

/-- Among other reconciliations the program goes from `p` pending and `G` to `p'` pending and `G'`. -/
abbrev Takes (C : Schedule Db) (F : AssetStatus → Bool → Bool → Prop) (org connector : String) (p : List String)
    (G : List Lock → Db → Prop) (prog : Tx β) (p' : β → List String) (G' : β → List Lock → Db → Prop) : Prop :=
  Triple C (footprintRely F) failsAnywhere (Assert F org connector p G) prog fun b =>
    Assert F org connector (p' b) (G' b)

abbrev Stays (C : Schedule Db) (F : AssetStatus → Bool → Bool → Prop) (org connector : String) (p : List String)
    (G : List Lock → Db → Prop) (prog : Tx β) : Prop :=
  Takes C F org connector p G prog (fun _ => p) fun _ => G

section

variable (hG : Durable org connector G)
include hG

theorem triple_stmt {st : Sql β} {G' : β → List Lock → Db → Prop} (hG' : ∀ b, Durable org connector (G' b))
    (h : ∀ d₁ d₂ l b ws, (footprintRely F).inv d₁ → (footprintRely F).inv d₂ →
      Later org connector l.held (l.view d₁) (l.view d₂) → Working F org connector p d₁ l →
      Working F org connector p d₂ l → G l.held (l.view d₁) → G l.held (l.view d₂) →
      st.eval (l.view d₁) (l.view d₂) = .ok (b, ws) →
      Assert F org connector p' (G' b) d₂ (l.done st d₁ d₂ ws)) :
    Takes C F org connector p G (exec st) (fun _ => p') G' := by
  refine Triple.exec (Assert.stable hG) (fun b => Assert.stable (hG' b)) (fun _ _ _ _ _ _ _ => trivial) ?_
  intro d₁ d₂ l b ws hi₁ hi₂ hu _ h₁ h₂ he
  exact h d₁ d₂ l b ws hi₁ hi₂ (h₁.1.later hu) h₁.1 h₂.1 h₁.2 h₂.2 he

theorem triple_read {call : Call} {f : Db → β} {G' : β → List Lock → Db → Prop} (hG' : ∀ b, Durable org connector (G' b))
    (h : ∀ held v₁ v₂, v₁.Rooted → Later org connector held v₁ v₂ → G held v₁ → G held v₂ →
      G' (f v₁) held v₂) : Takes C F org connector p G (exec (Stmt.select call f)) (fun _ => p) G' := by
  refine Triple.select (Assert.stable hG) (fun b => Assert.stable (hG' b)) ?_
  intro d₁ d₂ l hi₁ _ hu _ h₁ h₂
  refine ⟨{ h₂.1 with }, ?_⟩
  exact h l.held _ _ (h₁.1.rooted hi₁) (h₁.1.later hu) h₁.2 h₂.2

theorem triple_peek {call : Call} {f : Db → β} : Stays C F org connector p G (exec (Stmt.select call f)) :=
  triple_read hG (fun _ => hG) fun _ _ _ _ _ _ h => h

end

/-- Code that does not write what the status of assets depends on. -/
theorem triple_other {prog : Tx β} (hw : prog.Writes Write.IsOther) (hG : Durable org connector G) :
    Stays C F org connector p G prog := by
  intro d l hi h
  induction prog generalizing d l with
  | ret a => exact fun d' hi' hu => Assert.stable hG d d' l hi hi' hu h
  | throw e => exact fun _ _ _ => trivial
  | stmt st k ih =>
    intro d₁ d₂ hi₁ hu₁ hi₂ hu₂
    refine ⟨fun _ _ => trivial, fun _ r ws he => ih r (hw.2 r) d₂ _ hi₂ ?_⟩
    obtain ⟨hwork, hg⟩ := Assert.stable hG d₁ d₂ l hi₁ hi₂ hu₂ (Assert.stable hG d d₁ l hi hi₁ hu₁ h)
    have hdone : (l.done st d₁ d₂ ws).writes = l.writes ++ ws := rfl
    obtain ⟨hwork', hrows⟩ := hwork.other hi₂ hdone (List.subset_append_left _ _) (hw.1 _ _ _ _ he)
    exact ⟨hwork', hG _ _ _ _ (List.subset_append_left _ _) hrows.later hg⟩

theorem triple_ret {b : β} (hG : Durable org connector G) : Stays C F org connector p G (.ret b) :=
  Triple.ret (Assert.stable hG) fun _ _ _ h => h

theorem triple_failIf {c : Prop} [Decidable c] {e : Error} (hG : Durable org connector G) :
    Stays C F org connector p G (failIf c e) :=
  (Triple.failIf (Assert.stable hG) fun _ _ _ _ _ => trivial).post fun _ _ _ _ h => h.2

section

variable {v₁ v₂ : Db} {sql : String} {f : AssetRow → AssetRow} {rs : List Unit} {ws : List Write} {r : AssetRow}

section

variable (h : Working F org connector p d₂ l) (hi : (footprintRely F).inv d₂) (ha : a ∈ p)
include h hi ha

/-- A statement that writes a new version of the row of a pending asset. -/
theorem Working.putRow {st : Sql β} {q : AssetRow} (hr : (l.view d₂).assets.get a = some r) (hid : q.id = r.id)
    (ho : q.organizationID = r.organizationID) (hws : ws = [q].map .asset)
    (hheld : assetLock a ∈ (l.done st d₁ d₂ ws).held) : Working F org connector p d₂ (l.done st d₁ d₂ ws) ∧
      (∀ o b, (l.view d₂).Owns o b → ((l.done st d₁ d₂ ws).view d₂).Owns o b) ∧
      ((l.done st d₁ d₂ ws).view d₂).assets.get a = some q ∧
      (l.done st d₁ d₂ ws).view d₂ = { l.view d₂ with assets := (l.view d₂).assets.put q } := by
  have hid' : q.id = a := hid.trans (Table.key_of_get hr)
  have hview : (l.done st d₁ d₂ ws).view d₂ = { l.view d₂ with assets := (l.view d₂).assets.put q } := by
    rw [Local.view_done, hws]
    rfl
  have horg : ∀ r₀, (l.view d₂).assets.get a = some r₀ → q.organizationID = r₀.organizationID := by
    intro r₀ hr₀
    rw [hr] at hr₀
    cases hr₀
    exact ho
  refine ⟨h.putAsset hi (congrArg (l.writes ++ ·) hws) (List.subset_append_left _ _) hheld ha ?_, ?_, ?_, hview⟩
  · intro x hx
    rw [List.mem_singleton.mp hx]
    exact ⟨hid', horg⟩
  · intro o b hb
    rw [hview]
    exact Owns.keep hid' horg hb
  · rw [hview]
    exact (Table.get_put _ _ _).trans (if_pos hid')

/-- An `UPDATE` of a pending asset of the organization changes its row and holds it. -/
theorem Working.updateAsset {st : Sql (List Unit)} (h₁ : (l.view d₁).Owns org a) (h₂ : (l.view d₂).Owns org a)
    (he : st.eval (l.view d₁) (l.view d₂) = .ok (rs, ws))
    (hst : st = Infragraph.updateAsset sql a org (fun _ _ => true) f)
    (hf : ∀ r, (f r).id = r.id ∧ (f r).organizationID = r.organizationID) :
    Working F org connector p d₂ (l.done st d₁ d₂ ws) ∧ assetLock a ∈ (l.done st d₁ d₂ ws).held ∧
      (∀ o b, (l.view d₂).Owns o b → ((l.done st d₁ d₂ ws).view d₂).Owns o b) ∧
      ∃ r, r.organizationID = org ∧ ((l.done st d₁ d₂ ws).view d₂).assets.get a = some (f r) ∧
        (l.done st d₁ d₂ ws).view d₂ = { l.view d₂ with assets := (l.view d₂).assets.put (f r) } := by
  subst hst
  obtain ⟨r₁, hr₁, ho₁⟩ := h₁
  obtain ⟨r, hr, ho⟩ := h₂
  have hid₁ : r₁.id = a := Table.key_of_get hr₁
  have hws : ws = [f r].map .asset := by
    rw [eval_updateAsset he, hr, hr₁]
    simp [ho, ho₁]
  have hheld : assetLock a ∈ (l.done (Infragraph.updateAsset sql a org (fun _ _ => true) f) d₁ d₂ ws).held := by
    refine List.mem_append_right _ (List.mem_map.mpr ⟨r₁, ?_, by rw [hid₁]; rfl⟩)
    exact List.mem_filter.mpr ⟨Table.mem_of_get hr₁, by simp [hid₁, ho₁]⟩
  obtain ⟨hwork, howns, hget, hview⟩ := h.putRow hi ha hr (hf r).1 (hf r).2 hws hheld
  exact ⟨hwork, hheld, howns, r, ho, hget, hview⟩

end

end

theorem triple_touchAsset (connector e : String) {t : Time} : Takes C F org connector []
      (fun _ v => v.Owns org a ∧ ∀ i, v.sourceIdentities.get (org, connector, e) = some i → i.assetID = a)
      (exec (touchAsset t a org)) (fun _ => [a]) fun _ => Found org connector e a := by
  refine triple_stmt (durable_owns.and durable_bound) (fun _ => durable_found) ?_
  intro d₁ d₂ l rs ws _ hi₂ _ _ hw₂ hg₁ hg₂ he
  obtain ⟨hwork, hheld, howns, r, -, -, hview⟩ := (hw₂.weaken (List.nil_subset [a])).updateAsset hi₂
    (.head _) hg₁.1 hg₂.1 he rfl fun _ => ⟨rfl, rfl⟩
  refine ⟨hwork, hheld, howns _ _ hg₂.1, ?_⟩
  rw [hview]
  exact hg₂.2

theorem triple_selectAssetStatus (connector e : String) : Takes C F org connector []
      (fun _ v => v.Owns org a ∧ ∀ i, v.sourceIdentities.get (org, connector, e) = some i → i.assetID = a)
      (exec (selectAssetStatus a org)) (fun _ => []) fun _ => Found org connector e a := by
  refine triple_stmt (durable_owns.and durable_bound) (fun _ => durable_found) ?_
  intro d₁ d₂ l b ws _ hi₂ _ _ hw₂ hg₁ hg₂ he
  obtain ⟨r₁, hr₁, ho₁⟩ := hg₁.1
  obtain ⟨-, -, -, rfl⟩ := eval_selectForUpdate_ok he
  have hdone : (l.done (selectAssetStatus a org) d₁ d₂ []).writes = l.writes ++ [] := rfl
  obtain ⟨hwork, hrows⟩ := hw₂.other hi₂ hdone (List.subset_append_left _ _) (by simp)
  refine ⟨hwork, List.mem_append_right _ ?_, hrows.owns hg₂.1, ?_⟩
  · simp only [selectAssetStatus, Stmt.selectForUpdate, hr₁]
    simp [ho₁, assetLock, Table.key_of_get hr₁]
  · rw [hrows.identities]
    exact hg₂.2

theorem triple_insertAsset {r : AssetRow} (hid : r.id = a) (ho : r.organizationID = org) :
    Takes C F org connector [] (fun _ v => v.sourceIdentities.get (org, connector, e) = none)
      (exec (insertAsset r)) (fun _ => [a]) fun _ => Found org connector e a := by
  refine triple_stmt (durable_absent _ _ _) (fun _ => durable_found) ?_
  intro d₁ d₂ l b ws _ hi₂ _ _ hw₂ _ hg₂ he
  subst hid
  obtain ⟨hfresh, rfl⟩ := eval_insert_ok.mp he
  have hnone : (l.view d₂).assets.get r.id = none := by simpa [ite_some_eq_none] using hfresh
  have hheld : assetLock r.id ∈ (l.done (insertAsset r) d₁ d₂ [.asset r]).held :=
    List.mem_append_right _ (.head _)
  have hdone : (l.done (insertAsset r) d₁ d₂ [.asset r]).writes = l.writes ++ [r].map .asset := rfl
  refine ⟨(hw₂.weaken (List.nil_subset [r.id])).putAsset hi₂ hdone (List.subset_append_left _ _) hheld
    (.head _) ?_, hheld, ?_, ?_⟩
  · intro x hx
    rw [List.mem_singleton.mp hx]
    exact ⟨rfl, fun r₀ hr₀ => absurd (hnone.symm.trans hr₀) (by simp)⟩
  · rw [Local.view_done]
    exact Owns.put rfl ho
  · rw [Local.view_done]
    intro i hget
    exact absurd (hg₂.symm.trans hget) (by simp)

theorem triple_resolveStrong (hG : Durable org connector G) (identities : List (String × String)) :
    Takes C F org connector p G (resolveStrong org identities) (fun _ => p)
      fun a held v => G held v ∧ (a = "" ∨ v.Owns org a) := by
  have hI : ∀ a, Durable org connector fun held v => G held v ∧ (a = "" ∨ v.Owns org a) :=
    fun a => hG.and fun _ _ _ _ _ hl h => h.imp id (hl.owns _ _)
  refine (Triple.foldlM (fun _ a => Assert F org connector p fun held v => G held v ∧ (a = "" ∨ v.Owns org a))
    (fun _ a => Assert.stable (hI a)) ?_ "").pre fun d l _ h => ⟨h.1, h.2, .inl rfl⟩
  intro pre x post a _
  have hdur : ∀ found : Option String, Durable org connector fun held v =>
      (G held v ∧ (a = "" ∨ v.Owns org a)) ∧ ∀ b, found = some b → v.Owns org b :=
    fun found => (hI a).and fun _ _ _ _ _ hl h b hb => hl.owns _ _ (h b hb)
  refine Triple.bind (triple_read (hI a) hdur ?_) fun found => (triple_failIf (hdur found)).bind fun _ => ?_
  · intro held v₁ v₂ hroot hl _ h
    refine ⟨h, fun b hb => hl.owns _ _ ?_⟩
    obtain ⟨x, hx, rfl⟩ := Option.map_eq_some_iff.mp hb
    have ho : x.organizationID = org := congrArg Prod.fst (Table.key_of_get hx)
    exact ho ▸ hroot.strong x (Table.mem_of_get hx)
  · refine Triple.ret (Assert.stable (hdur found)) ?_
    rintro d l - ⟨hwork, ⟨hg, ha⟩, hfound⟩
    refine ⟨hwork, hg, ?_⟩
    cases found with
    | none => simpa using ha
    | some b =>
      by_cases hb : b = ""
      · simpa [hb] using ha
      · simpa [hb] using hfound b rfl

theorem relate_other (s : SnapshotEnvelope) (now : Time) (assets : List (String × String)) (sum : Summary)
    (r : RelationshipObservation) : (relate s now assets sum r).Writes Write.IsOther := by
  refine Writes.failIf.bind fun _ => Writes.select.bind fun existing => ?_
  refine Writes.bind (Writes.upsert fun _ => trivial) fun _ => Writes.bind ?_ fun _ => ?_
  · unfold recordAddition
    split_ifs
    · trivial
    · exact (insertChangeRow_writes trivial).bind fun _ => trivial
  · refine Writes.bind (Writes.upsert fun _ => trivial) fun _ => ?_
    exact Writes.bind (Writes.insert fun _ => trivial) fun _ => trivial

/-- The asset of an observation is pending from here on. -/
theorem triple_resolveAsset (order : MapOrder) (s : SnapshotEnvelope) (o : Observation) (t : Time) (sum : Summary) :
    Takes C F s.organizationID s.connectorID [] (fun _ _ => True) (resolveAsset order s o t sum) (fun res => [res.1])
      fun res => Found s.organizationID s.connectorID o.externalID res.1 := by
  have hdur : ∀ known : Option String, Durable s.organizationID s.connectorID fun _ v =>
      (v.sourceIdentities.get (s.organizationID, s.connectorID, o.externalID)).map (·.assetID) = known ∧
        ∀ a, known = some a → v.Owns s.organizationID a := fun known =>
    Durable.and (durable_own (H := fun r => r.map (·.assetID) = known))
      fun _ _ _ _ _ hl h a ha => hl.owns _ _ (h a ha)
  refine Triple.bind (triple_read durable_true hdur ?_) fun known => ?_
  · intro held v₁ v₂ hroot hl _ _
    refine ⟨by rw [hl.own], fun a ha => hl.owns _ _ ?_⟩
    obtain ⟨i, hi, rfl⟩ := Option.map_eq_some_iff.mp ha
    have ho : i.organizationID = s.organizationID := congrArg Prod.fst (Table.key_of_get hi)
    exact ho ▸ hroot.identity i (Table.mem_of_get hi)
  cases known with
  | none =>
    have hstrong := triple_resolveStrong (C := C) (F := F) (p := [])
      (durable_absent s.organizationID s.connectorID o.externalID)
    refine Triple.bind ((hstrong _).pre ?_) fun found => ?_
    · rintro d l - ⟨hw, hnone, -⟩
      exact ⟨hw, by simpa using hnone⟩
    · by_cases hf : found = ""
      · rw [if_pos hf]
        refine Triple.bind ((triple_insertAsset rfl rfl).pre fun d l _ h => ⟨h.1, h.2.1⟩) fun _ => ?_
        exact Triple.ret (Assert.stable durable_found) fun _ _ _ h => h
      · rw [if_neg hf]
        refine Triple.bind ((triple_touchAsset s.connectorID o.externalID).pre ?_) fun _ => ?_
        · rintro d l - ⟨hw, hnone, hown⟩
          exact ⟨hw, hown.resolve_left hf, fun i hi => absurd (hnone.symm.trans hi) (by simp)⟩
        · exact Triple.ret (Assert.stable durable_found) fun _ _ _ h => h
  | some a =>
    refine Triple.bind ((triple_selectAssetStatus s.connectorID o.externalID).pre ?_) fun prior => ?_
    · rintro d l - ⟨hw, hmap, hown⟩
      refine ⟨hw, hown a rfl, fun i hi => ?_⟩
      rw [hi] at hmap
      exact Option.some.inj hmap
    refine Triple.bind ((triple_touchAsset s.connectorID o.externalID).pre fun d l _ h => ⟨h.1, h.2.2⟩) fun _ => ?_
    split_ifs
    · refine (triple_other (insertChangeRow_writes trivial) durable_found).bind fun _ => ?_
      exact Triple.ret (Assert.stable durable_found) fun _ _ _ h => h
    · exact Triple.ret (Assert.stable durable_found) fun _ _ _ h => h

theorem triple_upsertSourceIdentity {r : SourceIdentityRow} (hkey : r.key = (org, connector, e)) (ha : r.assetID = a)
    (hst : r.status = .active) :
    Takes C F org connector [a] (Found org connector e a) (exec (upsertSourceIdentity r)) (fun _ => [a])
      fun _ => Tied org connector e a := by
  refine triple_stmt durable_found (fun _ => durable_tied) ?_
  intro d₁ d₂ l b ws _ hi₂ _ _ hw₂ _ hg₂ he
  obtain ⟨hheld, hown, hknown⟩ := hg₂
  obtain ⟨i, rfl, hik, hia, hist⟩ : ∃ i, ws = [i].map Write.sourceIdentity ∧ i.key = (org, connector, e) ∧
      i.assetID = a ∧ i.status = .active := by
    obtain ⟨old, hold, -, rfl⟩ | ⟨-, -, -, rfl⟩ := eval_upsert_ok he
    · rw [hkey] at hold
      have hkold : old.key = (org, connector, e) := Table.key_of_get hold
      exact ⟨_, rfl, hkold, hknown old hold, rfl⟩
    · exact ⟨r, rfl, hkey, ha, hst⟩
  have hview : (l.done (upsertSourceIdentity r) d₁ d₂ ([i].map .sourceIdentity)).view d₂ =
      { l.view d₂ with sourceIdentities := (l.view d₂).sourceIdentities.put i } := Local.view_done ..
  have hio : i.organizationID = org := congrArg Prod.fst hik
  refine ⟨hw₂.putIdentities hi₂ rfl (List.subset_append_left _ _) ?_ ?_, List.mem_append_left _ hheld, ?_⟩
  · intro j hj
    rw [List.mem_singleton.mp hj, hia, hio]
    exact ⟨rfl, congrArg (·.2.1) hik, hown⟩
  · intro a' ha' k
    have hne : a ≠ a' := fun h => ha' (h ▸ .head _)
    rw [hview]
    by_cases hk : i.key = k
    · -- before and after, the key is not bound to another asset
      rw [Bool.eq_iff_iff, binds_iff, binds_iff]
      constructor
      · rintro ⟨j, hj, hja, -⟩
        rw [← hk, Table.get_put_self] at hj
        cases hj
        exact absurd (hia.symm.trans hja) hne
      · rintro ⟨j, hj, hja, -⟩
        rw [← hk, hik] at hj
        exact absurd ((hknown j hj).symm.trans hja) hne
    · exact binds_congr (Table.get_put_of_ne _ hk)
  · rw [hview]
    exact ⟨hown, binds_iff.mpr ⟨i, by rw [← hik]; exact Table.get_put_self _ _, hia, hist⟩⟩

theorem triple_bindStrong {t : Time} (identities : List (String × String)) :
    Stays C F org connector [a] (Tied org connector e a) (bindStrong org a t identities) := by
  refine Triple.foldlM (fun _ _ => Assert F org connector [a] (Tied org connector e a))
    (fun _ _ => Assert.stable durable_tied) ?_ ()
  intro pre x post _ _
  refine Triple.bind (triple_stmt durable_tied (fun _ => durable_tied) ?_) fun b => triple_failIf durable_tied
  intro d₁ d₂ l b ws _ hi₂ _ _ hw₂ _ hg₂ he
  obtain ⟨y, rfl, hy⟩ : ∃ y, ws = [.strongIdentity y] ∧ (l.view d₂).Owns y.organizationID y.assetID := by
    obtain ⟨old, hold, -, rfl⟩ | ⟨-, -, -, rfl⟩ := eval_upsert_ok he
    · exact ⟨_, rfl, (hw₂.rooted hi₂).strong old (Table.mem_of_get hold)⟩
    · exact ⟨_, rfl, hg₂.2.1⟩
  have hdone : (l.done (upsertStrongIdentity ⟨org, x.1, x.2, a, timestamptz t, timestamptz t⟩) d₁ d₂
      [.strongIdentity y]).writes = l.writes ++ [.strongIdentity y] := rfl
  obtain ⟨hwork, hrows⟩ := hw₂.putStrong hi₂ hdone (List.subset_append_left _ _) hy
  exact ⟨hwork, durable_tied _ _ _ _ (List.subset_append_left _ _) hrows.later hg₂⟩

theorem Working.deactivate {sql : String} {args : List String} {q : Db → ClaimRow → Bool} {st : Sql (List Unit)}
    {rs : List Unit} {ws : List Write} (h : Working F org connector p d₂ l) (hi : (footprintRely F).inv d₂)
    (ha : a ∈ p) (he : st.eval (l.view d₁) (l.view d₂) = .ok (rs, ws)) (hst : st = Infragraph.deactivate sql args q)
    (hq : ∀ v c, q v c = true → c.assetID = a) : Working F org connector p d₂ (l.done st d₁ d₂ ws) ∧
      ((l.done st d₁ d₂ ws).view d₂).assets = (l.view d₂).assets ∧
      ((l.done st d₁ d₂ ws).view d₂).sourceIdentities = (l.view d₂).sourceIdentities := by
  subst hst
  obtain ⟨-, rfl⟩ := he
  refine ⟨h.putClaims hi rfl (List.subset_append_left _ _) ha ?_, ?_, ?_⟩
  · intro c hc
    obtain ⟨c₀, hc₀, hsel, rfl⟩ := Table.mem_changed.mp hc
    simp only [Bool.and_eq_true, Option.any_eq_true] at hsel
    obtain ⟨hq₀, c₁, hc₁, hq₁⟩ := hsel
    have hca : c₀.assetID = a := hq _ _ hq₀
    have hown := (h.rooted hi).claim c₀ hc₀
    rw [hca] at hown
    refine ⟨List.mem_append_right _ (List.mem_map.mpr ⟨c₁, ?_, ?_⟩), hca, hown, fun x hx => ?_⟩
    · exact List.mem_filter.mpr ⟨Table.mem_of_get hc₁, hq₁⟩
    · have hid : c₁.id = c₀.id := Table.key_of_get hc₁
      rw [hid]
    · rw [Table.mem_iff_get.mp hc₀] at hx
      cases hx
      exact hca
  · rw [Local.view_done, writeAll_claim]
  · rw [Local.view_done, writeAll_claim]

theorem triple_recordClaims (s : SnapshotEnvelope) (o : Observation) (t : Time) (attributes : List (String × Json)) :
    Stays C F s.organizationID s.connectorID [a] (Tied s.organizationID s.connectorID e a)
      (recordClaims s o a t attributes) := by
  refine Triple.foldlM
    (fun _ _ => Assert F s.organizationID s.connectorID [a] (Tied s.organizationID s.connectorID e a))
    (fun _ _ => Assert.stable durable_tied) ?_ ()
  intro pre x post _ _
  refine (triple_failIf durable_tied).bind fun _ => ?_
  refine Triple.bind
    (Q := fun _ => Assert F s.organizationID s.connectorID [a] (Tied s.organizationID s.connectorID e a)) ?_
    fun _ => ?_
  · refine triple_stmt durable_tied (fun _ => durable_tied) ?_
    intro d₁ d₂ l rs ws _ hi₂ _ _ hw₂ _ hg₂ he
    obtain ⟨hwork, hassets, hids⟩ := hw₂.deactivate hi₂ (.head _) he rfl
      fun v c hc => by simp at hc; exact hc.2.1
    exact ⟨hwork, hg₂.congr (List.subset_append_left _ _) hassets hids⟩
  refine (triple_peek durable_tied).bind fun authority => ?_
  refine triple_stmt durable_tied (fun _ => durable_tied) ?_
  intro d₁ d₂ l _ ws _ hi₂ _ _ hw₂ _ hg₂ he
  obtain ⟨hfresh, rfl⟩ := eval_insert_ok.mp he
  have hnone : (l.view d₂).claims.get (claimRow s o a t authority x).id = none := by
    simpa [ite_some_eq_none] using hfresh
  have hdone : (l.done (insertClaim (claimRow s o a t authority x)) d₁ d₂
      [.claim (claimRow s o a t authority x)]).writes = l.writes ++ [claimRow s o a t authority x].map .claim := rfl
  refine ⟨hw₂.putClaims hi₂ hdone (List.subset_append_left _ _) (.head _) ?_,
    hg₂.congr (List.subset_append_left _ _) ?_ ?_⟩
  · intro c hc
    rw [List.mem_singleton.mp hc]
    exact ⟨List.mem_append_right _ (.head _), rfl, hg₂.2.1,
      fun c₀ hc₀ => absurd (hnone.symm.trans hc₀) (by simp)⟩
  · rw [Local.view_done]; rfl
  · rw [Local.view_done]; rfl

def FlagRead (K : Prop) (org a : String) (b : Bool) (d : Db) (l : Local Db Write Lock) : Prop :=
  (∃ d₁, l.reads.getLast? = some (conflictCall org a, d₁) ∧ b = (l.view d₁).conflict org a) ∧
    (K → b = (l.view d).conflict org a)

theorem stable_flagRead : Stable (footprintRely F) fun d l =>
    Assert F org connector p (Handled K org connector e a p) d l ∧ FlagRead K org a b d l := by
  intro d d' l hi hi' hu h
  refine ⟨Assert.stable durable_handled d d' l hi hi' hu h.1, h.2.1, fun hk => ?_⟩
  exact (h.2.2 hk).trans (((h.1.1.later hu).asset a (h.1.2.2 hk).1).conflict org).symm

section

variable (hC : P → ∀ call reads d₁ d₂, C call reads d₁ d₂ → claimsKept call reads d₁ d₂)
include hC

theorem triple_updateEffectiveAsset (K : Prop) (connector e : String) (ha : a ∈ p) :
    Takes C F org connector p (Handled K org connector e a p) (updateEffectiveAsset org a) (fun _ => p)
      fun b => Judged K P org connector e a p b := by
  refine (triple_peek durable_handled).bind fun environment => ?_
  refine (triple_peek durable_handled).bind fun display => ?_
  refine Triple.bind (Q := fun b d l => Assert F org connector p (Handled K org connector e a p) d l ∧
    FlagRead K org a b d l) ?_ fun b => ?_
  · refine Triple.select (Assert.stable durable_handled) (fun b => stable_flagRead) ?_
    intro d₁ d₂ l _ _ hu _ h₁ h₂
    refine ⟨⟨{ h₂.1 with }, h₂.2⟩, ⟨d₁, by simp, rfl⟩, fun hk => ?_⟩
    exact (((h₁.1.later hu).asset a (h₁.2.2 hk).1).conflict org).symm
  refine Triple.bind (Q := fun _ => Assert F org connector p (Judged K P org connector e a p b)) ?_ fun _ =>
    Triple.ret (Assert.stable durable_judged) fun _ _ _ h => h
  refine Triple.exec stable_flagRead (fun _ => Assert.stable durable_judged) (fun _ _ _ _ _ _ _ => trivial) ?_
  intro d₁ d₂ l rs ws _ hi₂ _ hsched h₁ h₂ he
  obtain ⟨hwork, hheld, howns, r, ho, hget, hview⟩ := h₂.1.1.updateAsset hi₂ ha (h₁.1.2.1 a ha)
    (h₂.1.2.1 a ha) he rfl fun _ => ⟨rfl, rfl⟩
  refine ⟨hwork, fun b hb => howns _ _ (h₂.1.2.1 b hb), hheld, ?_, _, hget, ho, rfl, ?_⟩ <;> rw [hview]
  · exact fun hk => (h₂.1.2.2 hk).2
  rintro (hp | hk)
  · obtain ⟨d₀, hlast, hb⟩ := h₂.2.1
    have hkept := hC hp _ _ _ _ hsched org a d₀ rfl hlast
    exact hb.trans (conflict_congr fun c hc => (claims_writeAll hkept l.writes c hc.2.1).symm)
  · exact h₂.2.2 hk

omit hC in
theorem triple_recordObservation (order : MapOrder) (s : SnapshotEnvelope) (o : Observation) (t : Time) :
    Takes C F s.organizationID s.connectorID [a] (Found s.organizationID s.connectorID o.externalID a)
      (recordObservation order s o a t) (fun _ => [a]) fun _ => Tied s.organizationID s.connectorID o.externalID a := by
  refine (triple_upsertSourceIdentity (r := identityRow s o a t) rfl rfl rfl).bind fun _ => ?_
  refine (triple_bindStrong _).bind fun _ => ?_
  refine Triple.bind (triple_other (Writes.insert fun _ => trivial) durable_tied) fun _ => ?_
  exact triple_recordClaims s o t _

/-- An observation leaves no asset pending. -/
theorem triple_observe (hobs : ∀ c, F (if c then .conflicting else .active) true c) (order : MapOrder)
    (s : SnapshotEnvelope) (now : Time) (st : Progress) (o : Observation) :
    Stays C F s.organizationID s.connectorID [] (fun _ _ => True) (observe order s now st o) := by
  refine (triple_failIf durable_true).bind fun _ => ?_
  refine (triple_failIf durable_true).bind fun _ => ?_
  refine (triple_failIf durable_true).bind fun _ => ?_
  refine (triple_resolveAsset order s o _ _).bind fun ⟨a, created, sum⟩ => ?_
  refine (triple_recordObservation order s o _).bind fun _ => ?_
  refine Triple.bind ((triple_updateEffectiveAsset hC True s.connectorID o.externalID (p := [a])
    (.head _)).pre ?_) fun b => ?_
  · exact fun d l _ h => ⟨h.1, fun b hb => List.mem_singleton.mp hb ▸ h.2.2.1, fun _ => ⟨h.2.1, h.2.2.2⟩⟩
  refine Triple.pre (P := Assert F s.organizationID s.connectorID [] fun _ _ => True) ?_
    fun d l _ h => ⟨h.1.settle h.2.2.1 (h.2.fact_observed hobs), trivial⟩
  refine (triple_other ?_ durable_true).bind fun _ => (triple_other ?_ durable_true).bind fun _ => ?_
  · unfold recordConflict
    split_ifs
    · exact (insertChangeRow_writes trivial).bind fun _ => trivial
    · trivial
  · unfold recordDiscovery
    split_ifs
    · exact (insertChangeRow_writes trivial).bind fun _ => trivial
    · trivial
  · exact triple_ret durable_true

end

/-- An `UPDATE` of the connector's identities that changes the status of those of
pending assets only. -/
theorem Working.updateIdentities {sql : String} {st : Sql (List String)} {q : Db → SourceIdentityRow → Bool}
    {f : SourceIdentityRow → SourceIdentityRow} {as : List String} {ws : List Write}
    (h : Working F org connector p d₂ l) (hi : (footprintRely F).inv d₂)
    (he : st.eval (l.view d₁) (l.view d₂) = .ok (as, ws))
    (hst : st = Infragraph.updateIdentities sql org connector q f)
    (hf : ∀ i, (f i).key = i.key ∧ (f i).assetID = i.assetID)
    (hp : ∀ i, i.assetID ∈ as → i.assetID ∈ p ∨ (f i).status = i.status) :
    Working F org connector p d₂ (l.done st d₁ d₂ ws) ∧ ∀ a ∈ as, (l.view d₂).Owns org a := by
  subst hst
  simp only [Infragraph.updateIdentities, Stmt.update, Except.ok.injEq, Prod.mk.injEq] at he
  obtain ⟨sel, hsel, rfl, rfl⟩ : ∃ sel : SourceIdentityRow → Bool,
      (∀ i, sel i = true → i.organizationID = org ∧ i.connectorID = connector) ∧
      as = ((l.view d₂).sourceIdentities.changed sel f).map (·.assetID) ∧
      ws = ((l.view d₂).sourceIdentities.changed sel f).map .sourceIdentity := by
    refine ⟨_, fun i hs => ?_, he.1.symm, he.2.symm⟩
    simp only [Bool.and_eq_true, decide_eq_true_eq] at hs
    exact hs.1.1
  refine ⟨h.putIdentities hi rfl (List.subset_append_left _ _) ?_ ?_, ?_⟩
  · intro i hmem
    obtain ⟨j, hj, hs, rfl⟩ := Table.mem_changed.mp hmem
    have hjo : (f j).organizationID = j.organizationID := congrArg Prod.fst (hf j).1
    have hjc : (f j).connectorID = j.connectorID := congrArg (·.2.1) (hf j).1
    rw [hjo, hjc, (hf j).2]
    exact ⟨(hsel j hs).1, (hsel j hs).2, (h.rooted hi).identity j hj⟩
  · intro a ha k
    rw [Local.view_done, writeAll_sourceIdentity]
    unfold Db.binds
    rw [Table.get_changed _ _ fun i => (hf i).1]
    cases hk : (l.view d₂).sourceIdentities.get k with
    | none => rfl
    | some j =>
      simp only [Option.map_some, Option.any_some]
      split_ifs with hs
      · by_cases hja : j.assetID = a
        · -- the row was changed, so its asset is among those returned
          have hmem : j.assetID ∈ ((l.view d₂).sourceIdentities.changed sel f).map (·.assetID) :=
            List.mem_map.mpr ⟨f j, Table.mem_changed.mpr ⟨j, Table.mem_of_get hk, hs, rfl⟩, (hf j).2⟩
          rcases hp j hmem with hpend | hstatus
          · exact absurd (hja ▸ hpend) ha
          · rw [hstatus, (hf j).2]
        · simp [(hf j).2, hja]
      · rfl
  · intro a ha
    obtain ⟨i, hmem, rfl⟩ := List.mem_map.mp ha
    obtain ⟨j, hj, hs, rfl⟩ := Table.mem_changed.mp hmem
    rw [(hf j).2, ← (hsel j hs).1]
    exact (h.rooted hi).identity j hj

theorem triple_incrementAbsences (snapshot : String) :
    Stays C F org connector [] (fun _ _ => True) (exec (incrementAbsences org connector snapshot)) := by
  refine triple_stmt durable_true (fun _ => durable_true) ?_
  intro d₁ d₂ l as ws _ hi₂ _ _ hw₂ _ _ he
  exact ⟨(hw₂.updateIdentities hi₂ he rfl (fun _ => ⟨rfl, rfl⟩) fun _ _ => .inr rfl).1, trivial⟩

/-- The assets that lost an identity are pending. -/
theorem triple_markIdentitiesMissing (threshold : ℕ) :
    Takes C F org connector [] (fun _ _ => True) (exec (markIdentitiesMissing org connector threshold)) id
      fun as _ v => ∀ a ∈ as, v.Owns org a := by
  refine Triple.exec (Assert.stable durable_true) (fun _ => Assert.stable durable_ownsAll)
    (fun _ _ _ _ _ _ _ => trivial) ?_
  intro d₁ d₂ l as ws _ hi₂ _ _ _ h₂ he
  obtain ⟨hwork, hown⟩ := (h₂.1.weaken (List.nil_subset as)).updateIdentities hi₂ he rfl
    (fun _ => ⟨rfl, rfl⟩) fun _ ha => .inl ha
  refine ⟨hwork, fun a ha => ?_⟩
  obtain ⟨r, hr, ho⟩ := hown a ha
  simp only [markIdentitiesMissing, Infragraph.updateIdentities, Stmt.update, Except.ok.injEq,
    Prod.mk.injEq] at he
  rw [Local.view_done, ← he.2, writeAll_sourceIdentity]
  exact ⟨r, hr, ho⟩

section

variable (hsweep : ∀ b c act, (P → b = c) → F (if act then if b then .conflicting else .active else .missing) act c)
include hsweep

/-- The row that is left settles the asset. -/
theorem triple_markAssetMissing :
    Takes C F org connector (a :: p) (Judged False P org connector e a (a :: p) b) (exec (markAssetMissing a org))
      (fun _ => p) fun _ _ v => ∀ x ∈ p, v.Owns org x := by
  refine triple_stmt durable_judged (fun _ => durable_ownsAll) ?_
  intro d₁ d₂ l rs ws _ hi₂ hl _ hw₂ _ hg₂ he
  obtain ⟨hown, hheld, -, r, hr, ho, hst, hb⟩ := hg₂
  have hpresent : r.status ≠ .missing ∧ r.status ≠ .retired := by
    rw [hst]
    cases b <;> simp
  have hws := eval_markAssetMissing (hl.asset a hheld) hr ho hpresent he
  have hF := hsweep b ((l.view d₂).conflict org a) ((l.view d₂).anyActive a) fun hp => hb (.inl hp)
  have hheld' : assetLock a ∈ (l.done (markAssetMissing a org) d₁ d₂ ws).held := List.mem_append_left _ hheld
  cases hact : (l.view d₂).anyActive a with
  | true =>
    -- another identity keeps the asset: nothing is written
    rw [hact] at hws hF
    have hdone : (l.done (markAssetMissing a org) d₁ d₂ ws).writes = l.writes ++ [] := by rw [hws]; rfl
    obtain ⟨hwork, hrows⟩ := hw₂.other hi₂ hdone (List.subset_append_left _ _) (by simp)
    refine ⟨hwork.settle hheld' ((hrows.sameAt a).fact ?_), fun x hx =>
      hrows.owns (hown x (.tail _ hx))⟩
    intro r' hr'
    rw [hr] at hr'
    cases hr'
    rw [hact, ho, hst]
    exact hF
  | false =>
    rw [hact] at hws hF
    obtain ⟨hwork, howns, hget, hview⟩ := hw₂.putRow (q := { r with status := .missing }) hi₂ (.head _) hr
      rfl rfl hws hheld'
    refine ⟨hwork.settle hheld' ?_, fun x hx => howns _ _ (hown x (.tail _ hx))⟩
    intro r' hr'
    rw [hget] at hr'
    cases hr'
    rw [hview]
    change F .missing ((l.view d₂).anyActive a) ((l.view d₂).conflict r.organizationID a)
    rw [hact, ho]
    exact hF

section

variable (hC : P → ∀ call reads d₁ d₂, C call reads d₁ d₂ → claimsKept call reads d₁ d₂)
include hC

theorem triple_missingAsset (s : SnapshotEnvelope) (sum : Summary) :
    Takes C F s.organizationID s.connectorID (a :: p) (fun _ v => ∀ x ∈ a :: p, v.Owns s.organizationID x)
      (missingAsset s sum a) (fun _ => p) fun _ _ v => ∀ x ∈ p, v.Owns s.organizationID x := by
  refine Triple.bind (Q := fun _ => Assert F s.organizationID s.connectorID (a :: p)
    (Handled False s.organizationID s.connectorID "" a (a :: p))) ?_ fun _ => ?_
  · refine triple_stmt durable_ownsAll (fun _ => durable_handled) ?_
    intro d₁ d₂ l rs ws _ hi₂ _ _ hw₂ _ hg₂ he
    obtain ⟨hwork, hassets, -⟩ := hw₂.deactivate hi₂ (.head _) he rfl
      fun v c hc => by simp at hc; exact hc.1.2.2.1
    refine ⟨hwork, fun x hx => ?_, False.elim⟩
    unfold Db.Owns
    rw [hassets]
    exact hg₂ x hx
  refine (triple_updateEffectiveAsset hC False s.connectorID "" (.head _)).bind fun b => ?_
  refine (triple_markAssetMissing hsweep).bind fun affected => ?_
  split_ifs
  · exact (triple_other (insertChangeRow_writes trivial) durable_ownsAll).bind fun _ => triple_ret durable_ownsAll
  · exact triple_ret durable_ownsAll

theorem triple_markMissing (order : MapOrder) (s : SnapshotEnvelope) (threshold : ℕ) (sum : Summary) :
    Stays C F s.organizationID s.connectorID [] (fun _ _ => True) (markMissing order s threshold sum) := by
  refine (triple_incrementAbsences _).bind fun _ => (triple_markIdentitiesMissing _).bind fun as => ?_
  refine Triple.bind (Q := fun _ => Assert F s.organizationID s.connectorID [] fun _ _ => True) ?_ fun _ => ?_
  · -- the assets still to be visited are the pending ones
    have hloop := Triple.foldlM (C := C) (E := failsAnywhere) (l := order.missing as) (f := missingAsset s)
      (fun pre _ => Assert F s.organizationID s.connectorID ((order.missing as).drop pre.length) fun _ v =>
        ∀ x ∈ (order.missing as).drop pre.length, v.Owns s.organizationID x)
      (fun _ _ => Assert.stable durable_ownsAll) (by
        intro pre x post sum hl
        have hdrop : (order.missing as).drop pre.length = x :: post := by simp [hl]
        have hdrop' : (order.missing as).drop (pre ++ [x]).length = post := by
          rw [hl, show pre ++ x :: post = (pre ++ [x]) ++ post by simp]
          exact List.drop_left
        rw [hdrop, hdrop']
        exact triple_missingAsset hsweep hC s sum) sum
    refine (hloop.pre ?_).post ?_
    · intro d l _ h
      have hmem : ∀ x, x ∈ order.missing as ↔ x ∈ as := fun x => (order.missing_perm as).mem_iff
      exact ⟨h.1.weaken fun x hx => (hmem x).mpr hx, fun x hx => h.2 x ((hmem x).mp hx)⟩
    · intro _ d l _ h
      have hnil : (order.missing as).drop (order.missing as).length = [] := List.drop_length
      rw [hnil] at h
      exact ⟨h.1, trivial⟩
  · refine triple_other ?_ durable_true
    refine Writes.bind (Writes.update fun _ => trivial) fun _ => ?_
    refine Writes.bind (Writes.update fun _ => trivial) fun _ => Writes.foldlM (fun _ rel => ?_) _
    exact Writes.bind (Writes.update fun _ => trivial) fun _ => trivial

theorem triple_applyPostgres (hobs : ∀ c, F (if c then .conflicting else .active) true c) (order : MapOrder)
    (clock : Time) (s : SnapshotEnvelope) (threshold : ℤ) :
    Stays C F s.organizationID s.connectorID [] (fun _ _ => True) (applyPostgres order clock s threshold) := by
  refine (triple_failIf durable_true).bind fun _ => ?_
  refine (Triple.foldlM (fun _ _ => Assert F s.organizationID s.connectorID [] fun _ _ => True)
    (fun _ _ => Assert.stable durable_true)
    (fun _ o _ st _ => triple_observe hC hobs order s _ st o) _).bind fun st => ?_
  refine (triple_other (Writes.foldlM (relate_other s _ _) _) durable_true).bind fun _ => ?_
  refine (triple_markMissing hsweep hC order s _ _).bind fun _ => ?_
  refine Triple.bind (triple_other (Writes.insert fun _ => trivial) durable_true) fun _ => ?_
  exact triple_ret durable_true

end

end

/-- A property of statuses that holds of an observed asset and of a swept one is
an invariant of reconciliations that run side by side. -/
theorem reconcile_verified {S : System Db Write Lock Error Summary ApplyCall} (hS : S.code = reconcileLocked)
    (hC : P → ∀ c call reads d₁ d₂, S.schedule c call reads d₁ d₂ → claimsKept call reads d₁ d₂)
    (hobs : ∀ c, F (if c then .conflicting else .active) true c)
    (hsweep : ∀ b c act, (P → b = c) → F (if act then if b then .conflicting else .active else .missing) act c) :
    Verified S (footprintRely F) (fun _ => failsAnywhere) fun c _ =>
      Assert F c.snapshot.organizationID c.snapshot.connectorID [] fun _ _ => True := by
  refine ⟨fun c _ d l hi h => h.1.publishes hi, fun c d hi => ?_⟩
  rw [hS]
  refine Safe.bind (Q := fun _ => Assert F c.snapshot.organizationID c.snapshot.connectorID [] fun _ _ => True)
    hi ?_ fun _ => triple_applyPostgres hsweep (fun hp => hC hp c) hobs _ _ _ _
  refine Triple.exec (P := fun _ l => l = ({} : Local Db Write Lock)) (fun _ _ _ _ _ _ h => h)
    (fun _ => Assert.stable durable_true) (fun _ _ _ _ _ _ _ => trivial) ?_ d {} hi rfl
  rintro d₁ d₂ l _ ws - - - - rfl - ⟨⟩
  exact ⟨Working.begin F rfl rfl, trivial⟩

end Infragraph
