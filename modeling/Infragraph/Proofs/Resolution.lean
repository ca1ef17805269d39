import Infragraph.Lib.Failures
import Infragraph.Lib.Lists
import Infragraph.Sanity.Apply
import Infragraph.Spec.Resolution

/-! `Resolve` against the strong lookup loop of `ApplyPostgres`. The one stops at the
first strong identity that is bound, the other asks all of them and refuses to
choose: they decide alike exactly when those that are bound agree, and all can be
asked for. -/

namespace Infragraph

open Relational ReadCommitted Prog

variable {db : Db} {org : String} {o : Observation}

def Db.strongLookup (db : Db) (org : String) (e : String × String) : String :=
  ((db.strongIdentities.get (org, e.1, e.2)).map (·.assetID)).getD ""

/-- The strong identities of the observation that are bound are bound to one asset. -/
def Agree (db : Db) (org : String) (o : Observation) : Prop :=
  ∀ e ∈ strongIdentities o, ∀ e' ∈ strongIdentities o, db.strongLookup org e ≠ "" → db.strongLookup org e' ≠ "" →
    db.strongLookup org e = db.strongLookup org e'

theorem strongLookup_eq {e : String × String} {a : String} (ha : a ≠ "") : db.strongLookup org e = a ↔
    ∃ x, db.strongIdentities.get (org, e.1, e.2) = some x ∧ x.assetID = a := by
  unfold Db.strongLookup
  cases db.strongIdentities.get (org, e.1, e.2) with
  | none => simp [ha.symm]
  | some x => simp

/-- A loop without an error has found the asset of every identity that is bound. -/
theorem resolveStrong_found {l : List (String × String)} {a : String} {d : Db}
    (h : (resolveStrong org l).run db = .ok (a, d)) :
    d = db ∧ (∀ e ∈ l, db.strongLookup org e ≠ "" → db.strongLookup org e = a) ∧
      (a ≠ "" → ∃ e ∈ l, db.strongLookup org e = a) := by
  obtain ⟨hdb, hall, hex⟩ := run_resolveStrong h
  refine ⟨hdb, fun e he hne => ?_, fun ha => ?_⟩
  · obtain ⟨x, hx, hxa⟩ := (strongLookup_eq hne).mp rfl
    rw [← hxa] at hne ⊢
    exact hall e he x hx hne
  · obtain ⟨e, he, hx⟩ := hex ha
    exact ⟨e, he, (strongLookup_eq ha).mpr hx⟩

/-- The only error is that two identities are bound to different assets. -/
theorem resolveStrong_error {l : List (String × String)} {err : Error}
    (h : (resolveStrong org l).run db = .error err) :
    err = .errorf "strong identifiers resolve to conflicting canonical assets" [] ∧
      ∃ e ∈ l, ∃ e' ∈ l, db.strongLookup org e ≠ "" ∧ db.strongLookup org e' ≠ "" ∧
        db.strongLookup org e ≠ db.strongLookup org e' := by
  obtain ⟨pre, e, post, a, d, rfl, hpre, hbody⟩ := run_foldlM_error h
  obtain ⟨rfl, -, hex⟩ := resolveStrong_found hpre
  obtain ⟨⟨hfound, ha, hne⟩, rfl⟩ | ⟨-, hret⟩ := run_failIf_bind_eq_error.mp (run_select_bind_eq_error.mp hbody)
  · obtain ⟨e', he', rfl⟩ := hex ha
    exact ⟨rfl, e, by simp, e', by simp [he'], hfound, ha, hne⟩
  · cases hret

/-- The loop ends without an error exactly when the bound identities agree, in
whatever order it asks for them. -/
theorem resolveStrong_ok_iff {l : List (String × String)} (hperm : l.Perm (strongIdentities o)) :
    (∃ a, (resolveStrong org l).run db = .ok (a, db)) ↔ Agree db org o := by
  constructor
  · rintro ⟨a, hrun⟩ e he e' he' hne hne'
    obtain ⟨-, hall, -⟩ := resolveStrong_found hrun
    rw [hall e (hperm.mem_iff.mpr he) hne, hall e' (hperm.mem_iff.mpr he') hne']
  · intro hagree
    cases hrun : (resolveStrong org l).run db with
    | error err =>
      obtain ⟨-, e, he, e', he', hne, hne', hdiff⟩ := resolveStrong_error hrun
      exact absurd (hagree e (hperm.mem_iff.mp he) e' (hperm.mem_iff.mp he') hne hne') hdiff
    | ok out =>
      obtain ⟨a, d⟩ := out
      obtain ⟨rfl, -⟩ := resolveStrong_found hrun
      exact ⟨a, rfl⟩

/-- PostgreSQL takes the lookups of the strong identities, if one of them is bound. -/
def Askable (db : Db) (org : String) (o : Observation) : Prop :=
  (∃ e ∈ strongIdentities o, db.strongLookup org e ≠ "") →
    ∀ e ∈ strongIdentities o, storable org = true ∧ storable e.2 = true

theorem key_of_strong {e : String × String} (he : e ∈ strongIdentities o) : e.1 ∈ strongKeys := by
  obtain ⟨k, hk, rfl⟩ := List.mem_map.mp (List.mem_of_mem_filter he)
  exact hk

theorem refuseNul_strong {e : String × String} (he : e ∈ strongIdentities o) :
    refuseNul (selectStrongIdentity org e.1 e.2).call = none ↔ storable org = true ∧ storable e.2 = true := by
  have hkey : storable e.1 = true := (show ∀ k ∈ strongKeys, storable k = true by decide) e.1 (key_of_strong he)
  simp [refuseNul, selectStrongIdentity, Stmt.select, hkey]

theorem lookupStrong_eq {l : List (String × String)} (hperm : l.Perm (strongIdentities o))
    (h : ∀ e ∈ strongIdentities o, storable org = true ∧ storable e.2 = true) :
    lookupStrong org l = resolveStrong org l := by
  refine Along.refusing_eq (Q := fun _ => True) (Along.foldlM (fun a e he _ => ?_) trivial)
  have he := hperm.mem_iff.mp he
  exact Along.step ((refuseNul_strong he).mpr (h e he)) fun _ _ => Along.failIf fun _ => trivial

theorem lookupStrong_refused {l : List (String × String)} (hperm : l.Perm (strongIdentities o)) {e : String × String}
    (he : e ∈ strongIdentities o) (h : ¬ (storable org = true ∧ storable e.2 = true)) (db : Db) :
    ∃ err, (lookupStrong org l).run db = .error err := by
  obtain ⟨err, herr⟩ := Option.ne_none_iff_exists'.mp (mt (refuseNul_strong he).mp h)
  exact run_refusing_foldlM (hperm.mem_iff.mpr he) (fun _ => refusing_exec_bind herr) _ db

theorem strongKeys_plain : ∀ k ∈ strongKeys, ':' ∉ k.toList := by decide

theorem identities_eq {k v : String} (hk : k ∈ strongKeys) :
    db.identities org (k ++ ":" ++ v) = db.strongLookup org (k, v) := by
  have hall : ∀ c ∈ k.toList, decide (c ≠ ':') = true := by
    intro c hc
    have := strongKeys_plain k hk
    simpa using fun h : c = ':' => this (h ▸ hc)
  have htext : (k ++ ":" ++ v).toList = k.toList ++ ':' :: v.toList := by simp
  unfold Db.identities Db.strongLookup
  rw [htext, List.takeWhile_append_of_pos hall, List.dropWhile_append_of_pos hall]
  simp

/-- The loop of `Resolve` asks for every entry of `StrongIdentities`. -/
theorem lookup_strongIdentities {k v : String} :
    (k ∈ strongKeys ∧ ((strongIdentities o).lookup k).getD "" = v ∧ v ≠ "") ↔ (k, v) ∈ strongIdentities o := by
  unfold strongIdentities
  rw [List.lookup_filter_map]
  simp only [List.mem_filter, List.mem_map, Prod.mk.injEq, decide_eq_true_eq]
  constructor
  · rintro ⟨hk, hv, hne⟩
    split_ifs at hv with hkeep
    · cases hv
      exact ⟨⟨k, hk, rfl, rfl⟩, hkeep.2⟩
    · exact absurd hv.symm hne
  · rintro ⟨⟨k', hk, rfl, rfl⟩, hkeep⟩
    rw [if_pos ⟨hk, hkeep⟩]
    exact ⟨hk, rfl, hkeep.1⟩

theorem matchStrong_some {k id : String} (h : matchStrong o (db.identities org) = some (k, id)) :
    id ≠ "" ∧ ∃ e ∈ strongIdentities o, db.strongLookup org e = id := by
  obtain ⟨k', hk', hfound⟩ := List.exists_of_findSome?_eq_some h
  dsimp only at hfound
  split_ifs at hfound with hv hid
  cases hfound
  refine ⟨hid, _, lookup_strongIdentities.mp ⟨hk', rfl, hv⟩, ?_⟩
  rw [identities_eq hk']

theorem matchStrong_none (h : matchStrong o (db.identities org) = none) :
    ∀ e ∈ strongIdentities o, db.strongLookup org e = "" := by
  rintro ⟨k, v⟩ he
  obtain ⟨hk, hv, hne⟩ := lookup_strongIdentities.mpr he
  have hnone := List.findSome?_eq_none_iff.mp h k hk
  rw [hv, if_neg hne, identities_eq hk] at hnone
  by_contra hbound
  rw [if_neg hbound] at hnone
  cases hnone

def Observation.hostname (o : Observation) : Option String :=
  match o.identityHints.get "hostname" with
  | none | some .null => none
  | some hint => some (trimSpace hint.sprint)

theorem hintText_hostname : (o.hostname = none ∧ hintText o.identityHints "hostname" = "<nil>") ∨
    o.hostname = some (hintText o.identityHints "hostname") := by
  have hnil : trimSpace Json.null.sprint = "<nil>" := by decide +kernel
  unfold Observation.hostname hintText
  cases o.identityHints.get "hostname" with
  | none => exact .inl ⟨rfl, hnil⟩
  | some hint =>
    cases hint with
    | null => exact .inl ⟨rfl, hnil⟩
    | bool | num | str | arr | obj => exact .inr rfl

section

variable [CaseFolding] {assets : List KnownAsset}

theorem resolve_matched {id : String} : ((resolve o assets (db.identities org)).decision = .matched ∧
      (resolve o assets (db.identities org)).assetID = id) ↔
    ∃ k, matchStrong o (db.identities org) = some (k, id) := by
  unfold resolve
  cases matchStrong o (db.identities org) with
  | some found => simp [Prod.ext_iff]
  | none =>
    cases assets.find? fun a => sameFold a.canonicalName (hintText o.identityHints "hostname") with
    | none => simp
    | some a =>
      dsimp only
      split_ifs <;> simp

theorem resolve_candidate : (resolve o assets (db.identities org)).decision = .candidate ↔
    matchStrong o (db.identities org) = none ∧
      ∃ a ∈ assets, sameFold a.canonicalName (hintText o.identityHints "hostname") = true := by
  unfold resolve
  cases matchStrong o (db.identities org) with
  | some found => simp
  | none =>
    cases hfind : assets.find? fun a => sameFold a.canonicalName (hintText o.identityHints "hostname") with
    | none =>
      simp only [true_and, reduceCtorEq, false_iff, not_exists, not_and]
      intro a ha
      simpa using List.find?_eq_none.mp hfind a ha
    | some a =>
      have hfound := List.find?_some hfind
      have hmem := List.mem_of_find?_eq_some hfind
      simp only [true_and]
      split_ifs <;> exact ⟨fun _ => ⟨a, hmem, hfound⟩, fun _ => rfl⟩

/-- `Resolve` and the loop decide alike, whatever order the loop asks in. -/
structure DecideAlike (db : Db) (org : String) (o : Observation) (assets : List KnownAsset) : Prop where
  matched : ∀ l, l.Perm (strongIdentities o) → ∀ a,
    ((resolve o assets (db.identities org)).decision = .matched ∧
        (resolve o assets (db.identities org)).assetID = a) ↔
      a ≠ "" ∧ (lookupStrong org l).run db = .ok (a, db)
  conflict : ∀ l, l.Perm (strongIdentities o) →
    (lookupStrong org l).run db =
        .error (.errorf "strong identifiers resolve to conflicting canonical assets" []) →
      (resolve o assets (db.identities org)).decision ≠ .matched
  candidate : (resolve o assets (db.identities org)).decision = .candidate →
    ∃ host, o.hostname = some host ∧ ∃ a ∈ assets, sameFold a.canonicalName host = true

/-- An absent hint is taken for the name of no asset: a strong identity is bound, or
there is a hint, or no asset is named as an absent hint prints. -/
def HostnameSound (db : Db) (org : String) (o : Observation) (assets : List KnownAsset) : Prop :=
  (∃ e ∈ strongIdentities o, db.strongLookup org e ≠ "") ∨ o.hostname ≠ none ∨
    ∀ a ∈ assets, sameFold a.canonicalName "<nil>" = false

/-- `Resolve` matches exactly when a strong identity is bound. -/
theorem resolve_matched_bound : (∃ id, (resolve o assets (db.identities org)).decision = .matched ∧
      (resolve o assets (db.identities org)).assetID = id) ↔
    ∃ e ∈ strongIdentities o, db.strongLookup org e ≠ "" := by
  constructor
  · rintro ⟨id, hmatched⟩
    obtain ⟨k, hfirst⟩ := resolve_matched.mp hmatched
    obtain ⟨hne, e, he, hid⟩ := matchStrong_some hfirst
    exact ⟨e, he, hid ▸ hne⟩
  · rintro ⟨e, he, hbound⟩
    cases hfirst : matchStrong o (db.identities org) with
    | none => exact absurd (matchStrong_none hfirst e he) hbound
    | some found => exact ⟨found.2, resolve_matched.mpr ⟨found.1, hfirst⟩⟩

theorem DecideAlike.askable (h : DecideAlike db org o assets) : Askable db org o := by
  intro hbound e he
  by_contra hnul
  have hself := List.Perm.refl (strongIdentities o)
  obtain ⟨id, hmatched⟩ := resolve_matched_bound.mpr hbound
  obtain ⟨err, herr⟩ := lookupStrong_refused hself he hnul db
  cases herr.symm.trans ((h.matched _ hself id).mp hmatched).2

theorem DecideAlike.agree (h : DecideAlike db org o assets) : Agree db org o := by
  have hself := List.Perm.refl (strongIdentities o)
  by_contra hdiffer
  have hdiffer' := hdiffer
  unfold Agree at hdiffer'
  push Not at hdiffer'
  obtain ⟨e, he, -, -, hbound, -⟩ := hdiffer'
  have heq : lookupStrong org _ = resolveStrong org _ := lookupStrong_eq hself (h.askable ⟨e, he, hbound⟩)
  cases hrun : (resolveStrong org (strongIdentities o)).run db with
  | ok out =>
    obtain ⟨a, d⟩ := out
    obtain ⟨rfl, -⟩ := resolveStrong_found hrun
    exact hdiffer ((resolveStrong_ok_iff hself).mp ⟨a, hrun⟩)
  | error err =>
    obtain ⟨rfl, -⟩ := resolveStrong_error hrun
    obtain ⟨id, hmatched, -⟩ := resolve_matched_bound.mpr ⟨e, he, hbound⟩
    exact h.conflict _ hself (heq ▸ hrun) hmatched

theorem DecideAlike.hostnameSound (h : DecideAlike db org o assets) : HostnameSound db org o assets := by
  by_contra hunsound
  unfold HostnameSound at hunsound
  push Not at hunsound
  obtain ⟨hunbound, hhost, a, ha, hfold⟩ := hunsound
  have hfirst : matchStrong o (db.identities org) = none := by
    cases hfirst : matchStrong o (db.identities org) with
    | none => rfl
    | some found =>
      obtain ⟨hne, e, he, hid⟩ := matchStrong_some hfirst
      exact absurd (hid ▸ hunbound e he) hne
  rcases hintText_hostname (o := o) with ⟨-, hnil⟩ | hsome
  · have hcandidate := resolve_candidate.mpr ⟨hfirst, a, ha, hnil ▸ by simpa using hfold⟩
    obtain ⟨host, hgiven, -⟩ := h.candidate hcandidate
    rw [hhost] at hgiven
    cases hgiven
  · rw [hhost] at hsome
    cases hsome

/-- The first bound identity is the answer of the loop where the bound ones agree. -/
theorem resolve_matched_iff (hagree : Agree db org o) {l : List (String × String)} (hperm : l.Perm (strongIdentities o))
    (a : String) : ((resolve o assets (db.identities org)).decision = .matched ∧
        (resolve o assets (db.identities org)).assetID = a) ↔
      a ≠ "" ∧ (resolveStrong org l).run db = .ok (a, db) := by
  obtain ⟨found, hrun⟩ := (resolveStrong_ok_iff hperm).mpr hagree
  obtain ⟨-, hall, hex⟩ := resolveStrong_found hrun
  rw [resolve_matched]
  constructor
  · rintro ⟨k, hfirst⟩
    obtain ⟨hne, e, he, hid⟩ := matchStrong_some hfirst
    have hfound := hall e (hperm.mem_iff.mpr he) (hid ▸ hne)
    refine ⟨hne, ?_⟩
    rw [hrun, ← hfound, hid]
  · rintro ⟨hne, hloop⟩
    rw [hrun] at hloop
    cases hloop
    obtain ⟨e, he, hbound⟩ := hex hne
    cases hfirst : matchStrong o (db.identities org) with
    | none => exact absurd (hbound ▸ matchStrong_none hfirst e (hperm.mem_iff.mp he)) hne
    | some out =>
      obtain ⟨k, id⟩ := out
      obtain ⟨hne', e', he', hid⟩ := matchStrong_some hfirst
      have hsame := hall e' (hperm.mem_iff.mpr he') (hid ▸ hne')
      exact ⟨k, by rw [← hsame, hid]⟩

theorem unbound_alike (h : ¬ ∃ e ∈ strongIdentities o, db.strongLookup org e ≠ "") {l : List (String × String)}
    (hperm : l.Perm (strongIdentities o)) (a : String) : ((resolve o assets (db.identities org)).decision = .matched ∧
        (resolve o assets (db.identities org)).assetID = a) ↔
      a ≠ "" ∧ (lookupStrong org l).run db = .ok (a, db) := by
  refine iff_of_false (fun hmatched => h (resolve_matched_bound.mp ⟨a, hmatched⟩)) ?_
  rintro ⟨hne, hrun⟩
  obtain ⟨-, -, hex⟩ := resolveStrong_found (run_refusing_ok hrun)
  obtain ⟨e, he, rfl⟩ := hex hne
  exact h ⟨e, hperm.mem_iff.mp he, hne⟩

/-- `Resolve` and the strong lookup loop decide alike exactly when the bound strong
identities agree, an absent hint is taken for the name of no asset, and no lookup is
refused for a NUL while a strong identity is bound. -/
theorem resolve_alike_iff (db : Db) (org : String) (o : Observation) (assets : List KnownAsset) :
    DecideAlike db org o assets ↔ Agree db org o ∧ HostnameSound db org o assets ∧ Askable db org o := by
  constructor
  · intro h
    exact ⟨h.agree, h.hostnameSound, h.askable⟩
  · rintro ⟨hagree, hsound, hask⟩
    refine ⟨fun l hperm a => ?_, fun l hperm herr hmatched => ?_, fun hcandidate => ?_⟩
    · by_cases hbound : ∃ e ∈ strongIdentities o, db.strongLookup org e ≠ ""
      · rw [lookupStrong_eq hperm (hask hbound)]
        exact resolve_matched_iff hagree hperm a
      · exact unbound_alike hbound hperm a
    · have hbound := resolve_matched_bound.mp ⟨_, hmatched, rfl⟩
      rw [lookupStrong_eq hperm (hask hbound)] at herr
      obtain ⟨a, hrun⟩ := (resolveStrong_ok_iff hperm).mpr hagree
      rw [hrun] at herr
      cases herr
    · obtain ⟨hfirst, a, ha, hfold⟩ := resolve_candidate.mp hcandidate
      rcases hintText_hostname (o := o) with ⟨hnone, hnil⟩ | hsome
      · rcases hsound with ⟨e, he, hbound⟩ | hgiven | hunnamed
        · exact absurd (matchStrong_none hfirst e he) hbound
        · exact absurd hnone hgiven
        · rw [hnil, hunnamed a ha] at hfold
          cases hfold
      · exact ⟨_, hsome, a, ha, hfold⟩

end

def movedMachine : Observation :=
  { externalID := "vm", assetType := "VIRTUAL_MACHINE", observedAt := 5000
    attributes := GoMap.nil
    identityHints := goMap [("cloud_id", .str "i-1"), ("vm_uuid", .str "u-1")] (by simp) }

def boundTwice : Db :=
  { emptyDb with
      strongIdentities := (emptyDb.strongIdentities.put ⟨"org", "cloud_id", "i-1", "first", 0, 0⟩).put
        ⟨"org", "vm_uuid", "u-1", "second", 0, 0⟩ }

/-- The loop refuses to choose, `Resolve` takes the first. -/
theorem resolve_takes_first : (lookupStrong "org" (strongIdentities movedMachine)).run boundTwice =
        .error (.errorf "strong identifiers resolve to conflicting canonical assets" []) ∧
      (@resolve ⟨id⟩ movedMachine [] (boundTwice.identities "org")).decision = .matched ∧
      ¬ @DecideAlike ⟨id⟩ boundTwice "org" movedMachine [] := by
  have herr : (lookupStrong "org" (strongIdentities movedMachine)).run boundTwice =
      .error (.errorf "strong identifiers resolve to conflicting canonical assets" []) := by rfl
  have hmatch : (@resolve ⟨id⟩ movedMachine [] (boundTwice.identities "org")).decision = .matched := by decide +kernel
  refine ⟨herr, hmatch, fun h => ?_⟩
  exact @DecideAlike.conflict ⟨id⟩ _ _ _ _ h _ (List.Perm.refl _) herr hmatch

end Infragraph
