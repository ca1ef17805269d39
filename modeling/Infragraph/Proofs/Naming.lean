import Infragraph.Proofs.Authority
import Infragraph.Proofs.Claims
import Infragraph.Proofs.Retired
import Infragraph.Proofs.Transitions

/-! The name of a new asset. It is written twice: by `observationName` when the row
is inserted, and from the claims when the effective asset is computed. The second
does not ask for a key in particular, for a string, or for what is left of it when
it is trimmed. -/

namespace Infragraph

open Relational ReadCommitted Prog

/-- The foreign keys to `assets`. -/
structure Db.References (db : Db) : Prop where
  identity : ∀ i ∈ db.sourceIdentities, (db.assets.get i.assetID).isSome
  strong : ∀ x ∈ db.strongIdentities, (db.assets.get x.assetID).isSome
  claim : ∀ c ∈ db.claims, (db.assets.get c.assetID).isSome

structure Db.Unused (db : Db) (a : String) : Prop where
  asset : db.assets.get a = none
  identity : ∀ i ∈ db.sourceIdentities, i.assetID ≠ a
  strong : ∀ x ∈ db.strongIdentities, x.assetID ≠ a
  claim : ∀ c ∈ db.claims, c.assetID ≠ a

theorem Db.References.unused {db : Db} (h : db.References) {a : String} (ha : db.assets.get a = none) :
    db.Unused a := by
  refine ⟨ha, fun i hi he => ?_, fun x hx he => ?_, fun c hc he => ?_⟩
  · simpa [he, ha] using h.identity i hi
  · simpa [he, ha] using h.strong x hx
  · simpa [he, ha] using h.claim c hc

theorem superseded_assetID (org a connector : String) (keys : List String) (c : ClaimRow) :
    (c.superseded org a connector keys).assetID = c.assetID := by
  rw [superseded_eq]

theorem orKeep_eq {value : Option String} {column : String} :
    orKeep value column = column ↔ value = none ∨ value = some "" ∨ value = some column := by
  unfold orKeep
  cases value with
  | none => simp
  | some v =>
    dsimp only
    split_ifs with hv <;> simp [hv]

def nameKeys : List String := ["name", "hostname", "display_name"]

section

variable [Hashes] {db db' d d' : Db} {s : SnapshotEnvelope} {o : Observation} {t : Time} {a b : String}

def claimStanding (db : Db) (s : SnapshotEnvelope) (o : Observation) (key : String) : ℕ ×ₗ String :=
  toLex (authorityRank (db.authority s.organizationID s.connectorID o.assetType key),
    stableID "claim" [s.snapshotID, o.externalID, key])

/-- The attribute under a name key that the claims of the observation are led by. -/
structure NamedBy (db : Db) (s : SnapshotEnvelope) (o : Observation) (e : String × Json) : Prop where
  entry : e ∈ o.attributes.entries
  name : e.1 ∈ nameKeys
  first : ∀ e' ∈ o.attributes.entries, e'.1 ∈ nameKeys → claimStanding db s o e'.1 ≤ claimStanding db s o e.1

/-- The text of the leading attribute is missing, empty, or the name. -/
def NamesAgree (db : Db) (s : SnapshotEnvelope) (o : Observation) : Prop :=
  ∀ e, NamedBy db s o e → e.2.unquoted = none ∨ e.2.unquoted = some "" ∨ e.2.unquoted = some (observationName o)

theorem Recorded.unused (h : Recorded s o t d d' b) (hab : b ≠ a) (hd : d.Unused a) : d'.Unused a := by
  obtain ⟨j, hj, -, hja, -⟩ := h.identity
  refine ⟨by rw [h.others a (Ne.symm hab), hd.asset], fun i hi => ?_, fun x hx => ?_, fun c hc => ?_⟩
  · rw [hj, Table.mem_put] at hi
    rcases hi with rfl | ⟨hi, -⟩
    · exact hja.trans_ne hab
    · exact hd.identity i hi
  · rcases h.bound.origin _ x (Table.mem_iff_get.mp hx) with ⟨y, hy, hyx⟩ | ⟨-, hxb⟩
    · rw [← hyx]
      exact hd.strong y (Table.mem_of_get hy)
    · exact hxb.trans_ne hab
  · rcases (h.claims c).mp hc with ⟨e, -, rfl⟩ | ⟨c₀, hc₀, rfl⟩
    · exact hab
    · rw [superseded_assetID]
      exact hd.claim c₀ hc₀

theorem Recorded.name_claims (h : Recorded s o t d d' a) (hd : d.Unused a) (c : ClaimRow) :
    c ∈ (d'.activeClaims s.organizationID a).filter (fun c => nameKeys.contains c.attributeKey) ↔
      ∃ e ∈ o.attributes.entries, e.1 ∈ nameKeys ∧
        c = claimRow s o a t (d.authority s.organizationID s.connectorID o.assetType e.1) e := by
  simp only [Db.activeClaims, List.mem_filter, Table.mem_rows, h.claims, decide_eq_true_eq,
    List.contains_iff_mem]
  constructor
  · rintro ⟨⟨⟨e, he, rfl⟩ | ⟨c₀, hc₀, rfl⟩, -, hca, -⟩, hname⟩
    · exact ⟨e, he, hname, rfl⟩
    · rw [superseded_assetID] at hca
      exact absurd hca (hd.claim c₀ hc₀)
  · rintro ⟨e, he, hname, rfl⟩
    exact ⟨⟨.inl ⟨e, he, rfl⟩, rfl, rfl, rfl⟩, hname⟩

/-- The effective name of the asset is the one it was inserted with exactly when the
leading attribute says no other. -/
theorem Recorded.name_kept (h : Recorded s o t d d' a) (hd : d.Unused a) :
    orKeep (d'.effectiveValue s.organizationID a nameKeys) (observationName o) = observationName o ↔
      NamesAgree d s o := by
  rw [orKeep_eq]
  unfold Db.effectiveValue
  cases hfirst : firstBy ClaimRow.before _ with
  | none =>
    have hnil := (firstBy_eq_none ClaimRow.before_iff).mp hfirst
    refine iff_of_true (.inl rfl) fun e he => ?_
    have hmem := (h.name_claims hd _).mpr ⟨e, he.entry, he.name, rfl⟩
    rw [hnil] at hmem
    cases hmem
  | some c =>
    obtain ⟨hc, hmax⟩ := firstBy_eq_some ClaimRow.before_iff hfirst
    obtain ⟨e, he, hname, rfl⟩ := (h.name_claims hd c).mp hc
    have hleads : NamedBy d s o e := by
      refine ⟨he, hname, fun e' he' hname' => ?_⟩
      have hle := hmax _ ((h.name_claims hd _).mpr ⟨e', he', hname', rfl⟩)
      simp only [ClaimRow.standing, claimRow, Prod.Lex.toLex_le_toLex, lt_irrefl, true_and, false_or] at hle
      simpa only [claimStanding, Prod.Lex.toLex_le_toLex] using hle
    refine ⟨fun hsays e' hleads' => ?_, fun hall => hall e hleads⟩
    -- two leading claims have one ID, so they are one row
    have hsame := le_antisymm (hleads.first e' hleads'.entry hleads'.name) (hleads'.first e he hname)
    have hid : (claimRow s o a t (d.authority s.organizationID s.connectorID o.assetType e'.1) e').id =
        (claimRow s o a t (d.authority s.organizationID s.connectorID o.assetType e.1) e).id :=
      congrArg (fun x => (ofLex x).2) hsame
    have hrow := Table.eq_of_key ((h.claims _).mpr (.inl ⟨e', hleads'.entry, rfl⟩))
      ((h.claims _).mpr (.inl ⟨e, he, rfl⟩)) hid
    have hvalue : e'.2 = e.2 := congrArg ClaimRow.value hrow
    rw [hvalue]
    exact hsays

/-- An asset that was not there is the one that the observation creates. -/
theorem Sighted.created_of_unused {k : Sighting} (h : Sighted s o d a k) (hd : d.Unused a) : k = .created := by
  cases hi : d.sourceIdentities.get (s.organizationID, s.connectorID, o.externalID) with
  | some i =>
    obtain ⟨r, hr, -⟩ := h.known i hi
    cases hd.asset.symm.trans hr
  | none =>
    rcases h.unknown hi with ⟨-, hstrong⟩ | ⟨rfl, -⟩
    · -- a strong identity that leads to the asset would name it
      obtain ⟨e, -, he⟩ := List.exists_of_findSome?_eq_some hstrong
      obtain ⟨x, hx, hxa⟩ := Option.map_eq_some_iff.mp (Option.filter_eq_some_iff.mp he).1
      exact absurd hxa (hd.strong x (Table.mem_of_get hx))
    · rfl

theorem run_observe_named {order : MapOrder} {now : Time} {st st' : Progress}
    (h : (observe order s now st o).run d = .ok (st', d')) (hasset : st'.assets = (o.externalID, a) :: st.assets)
    (hd : d.Unused a) : ∃ r, d'.assets.get a = some r ∧
      r.canonicalName = orKeep (d'.effectiveValue s.organizationID a nameKeys) (observationName o) ∧
      r.displayName = orKeep (d'.effectiveValue s.organizationID a nameKeys) (observationName o) := by
  obtain ⟨-, -, b, created, sum₁, d₄, u, d₅, h4, h5, hall, hget, rfl, -⟩ := observe_ok h
  obtain rfl : b = a := congrArg Prod.snd (List.head_eq_of_cons_eq hasset)
  obtain ⟨hres, -, k, hsighted, -, -, -, hrow⟩ := run_resolveAsset h4
  obtain ⟨r, hr, horg, hcanonical, hdisplay⟩ := hrow (hsighted.created_of_unused hd)
  have hassets : d₅.assets = d₄.assets := by
    rw [(run_recordObservation (by rw [hres.frame]; exact hres.known) h5).2.1]
  have hid : r.id = b := Table.key_of_get hr
  have hvalue : d'.effectiveValue s.organizationID b nameKeys = d₅.effectiveValue s.organizationID b nameKeys := by
    rw [hall]
    rfl
  refine ⟨d₅.effectiveRow r, by rw [hget, hassets, hr, Option.map_some, if_pos ⟨hid, horg⟩], ?_, ?_⟩
  · rw [hvalue, ← hcanonical, ← hid, ← horg]
    rfl
  · rw [hvalue, ← hdisplay, ← hid, ← horg]
    rfl

theorem run_assets_unused {order : MapOrder} {now : Time} {l : List Observation} {st st' : Progress}
    (h : (l.foldlM (observe order s now) st).run d = .ok (st', d'))
    (hl : ∀ o ∈ l, d'.assetOf s.organizationID s.connectorID o.externalID ≠ some a) :
    (∀ r, d'.assets.get a = some r ↔ d.assets.get a = some r) ∧ (d.Unused a → d'.Unused a) := by
  induction l generalizing st d with
  | nil =>
    cases h
    exact ⟨fun _ => Iff.rfl, id⟩
  | cons o l ih =>
    obtain ⟨st₁, d₁, h₁, h₂⟩ := run_bind_ok.mp h
    obtain ⟨-, -, b, -, -, hrec, -⟩ := run_observe h₁
    obtain ⟨hasset, hunused⟩ := ih h₂ fun o' ho' => hl o' (List.mem_cons_of_mem o ho')
    have hab : b ≠ a := by
      intro hab
      obtain ⟨i, hi, hkey, hib, -⟩ := hrec.identity
      have hbound : d₁.assetOf s.organizationID s.connectorID o.externalID = some a := by
        rw [Db.assetOf, hi, ← hkey, Table.get_put_self, Option.map_some, hib, hab]
      exact hl o (.head _) ((run_observe_kept h₂).assetOf hbound)
    refine ⟨fun r => ?_, fun hd => hunused (hrec.unused hab hd)⟩
    rw [hasset, hrec.others a (Ne.symm hab)]

/-- The only identity of the asset is one that the snapshot contains, so it does not expire. -/
theorem Loaded.not_expires {c : ApplyCall} {now : Time} {assets : List (String × String)}
    (h : Loaded c.snapshot now c.snapshot.assets assets db d) (hdb : db.Unused a) : ¬ c.Expires d a := by
  rintro ⟨i, hi, horg, hconnector, hia, -, hexpired⟩
  have hget := Table.mem_iff_get.mp hi
  by_cases hin : ∃ o ∈ c.snapshot.assets, o.externalID = i.externalID
  · obtain ⟨o, ho, he⟩ := hin
    obtain ⟨j, hj, -, habs⟩ := h.seen o ho
    have hkey : i.key = (c.snapshot.organizationID, c.snapshot.connectorID, o.externalID) := by
      rw [SourceIdentityRow.key, horg, hconnector, he]
    rw [hkey, hj] at hget
    cases hget
    have hobs : d.observed c.snapshot.snapshotID i.externalID = true :=
      observed_iff.mpr ⟨_, (h.observations _).mpr (.inr ⟨o, ho, rfl⟩), rfl, he⟩
    rw [hobs, habs] at hexpired
    exact absurd hexpired (not_le.mpr (effectiveThreshold_pos _))
  · have hold := h.unseen i.key fun o ho hkey => hin ⟨o, ho, (congrArg (·.2.2) hkey).symm⟩
    rw [hget] at hold
    exact hdb.identity i (Table.mem_of_get hold.symm) hia

/-- A new asset that one observation leads to is named as the observation exactly
when the leading attribute says no other name. -/
theorem created_named_iff {c : ApplyCall} {sum : Summary} (hrefs : db.References) (hc : c.run db = .ok (sum, db'))
    (ho : o ∈ c.snapshot.assets)
    (ha : db'.assetOf c.snapshot.organizationID c.snapshot.connectorID o.externalID = some a)
    (hnew : db.assets.get a = none) (honly : ∀ o' ∈ c.snapshot.assets, o'.externalID ≠ o.externalID →
      db'.assetOf c.snapshot.organizationID c.snapshot.connectorID o'.externalID ≠ some a) :
    (∃ r, db'.assets.get a = some r ∧ r.canonicalName = observationName o ∧ r.displayName = observationName o) ↔
      NamesAgree db c.snapshot o := by
  obtain ⟨st, d₁, d₂, d₃, sum₂, happ⟩ := ApplyCall.run_ok hc
  have hunused := hrefs.unused hnew
  have hloaded := run_assets happ.observe rfl
  obtain ⟨pre, post, st₁, st₂, x₁, x₂, hpre', hpost', hpre, hself, hpost⟩ := run_observe_split happ.observe ho
  obtain ⟨-, -, b, -, hassets, hrec, -⟩ := run_observe hself
  have hkept := run_observe_kept hpost
  obtain ⟨i, hi, hkey, hib, -⟩ := hrec.identity
  have hbound : x₂.assetOf c.snapshot.organizationID c.snapshot.connectorID o.externalID = some b := by
    rw [Db.assetOf, hi, ← hkey, Table.get_put_self, Option.map_some, hib]
  obtain rfl : b = a := by
    have hafter := happ.kept.2.assetOf (hkept.assetOf hbound)
    rw [ha] at hafter
    exact (Option.some.inj hafter).symm
  -- before its observation the asset is not there, and nothing writes it afterwards
  have hx₁ : x₁.Unused b := (run_assets_unused hpre fun o' ho' hb => honly o' (hpre' o' ho').2 (hpre' o' ho').1
    (happ.kept.2.assetOf (hkept.assetOf (hrec.kept.assetOf hb)))).2 hunused
  obtain ⟨r, hr, hcanonical, hdisplay⟩ := run_observe_named hself hassets hx₁
  have hr₁ : d₁.assets.get b = some r :=
    ((run_assets_unused hpost fun o' ho' hb => honly o' (hpost' o' ho').2 (hpost' o' ho').1
      (happ.kept.2.assetOf hb)).1 r).mpr hr
  obtain ⟨missing, e₁, sum₁, e₂, removed, e₃, h1, h2, h3, h4⟩ := run_markMissing happ.sweep
  have hd₂ := run_relationships_frame happ.relate
  have hspared : b ∉ c.order.missing missing := by
    rw [(c.order.missing_perm missing).mem_iff, h1.mem_missing, hd₂]
    exact hloaded.not_expires hunused
  have he₁ : e₁.assets.get b = some r := by
    rw [h1.frame, hd₂]
    exact hr₁
  have hfinal : db'.assets.get b = some r := by
    have hloop := run_missing_asset h2 he₁
    rw [if_neg fun hlost => hspared hlost.1] at hloop
    rw [happ.frame, run_removed_frame h4, h3.frame]
    exact hloop
  have hpolicies : x₁.policies = db.policies := by rw [(run_assets hpre rfl).frame]
  have hagree : NamesAgree db c.snapshot o ↔ NamesAgree x₁ c.snapshot o := by
    have hstanding : claimStanding x₁ c.snapshot o = claimStanding db c.snapshot o := by
      unfold claimStanding Db.authority
      rw [hpolicies]
    refine forall_congr' fun e => imp_congr_left ⟨fun he => ⟨he.entry, he.name, ?_⟩, fun he => ⟨he.entry, he.name, ?_⟩⟩
    · rw [hstanding]
      exact he.first
    · rw [← hstanding]
      exact he.first
  rw [hagree, ← hrec.name_kept hx₁, hfinal]
  constructor
  · rintro ⟨r', hr', hname, -⟩
    cases hr'
    exact hcanonical.symm.trans hname
  · intro hname
    exact ⟨r, rfl, hcanonical.trans hname, hdisplay.trans hname⟩

end

def leadsToNew (c : ApplyCall) (external : String) (p : Db → Bool) : Bool :=
  succeeds c emptyDb fun out =>
    decide (out.2.assetOf "org" "one" external = some (@stableID toy "asset" ["org", "one", external])) && p out.2

theorem leadsToNew_run {c : ApplyCall} {external : String} {p : Db → Bool} (h : leadsToNew c external p = true) :
    ∃ sum db', @ApplyCall.run toy c emptyDb = .ok (sum, db') ∧
      db'.assetOf "org" "one" external = some (@stableID toy "asset" ["org", "one", external]) ∧ p db' = true := by
  obtain ⟨sum, db', hrun, hout⟩ := run_of_succeeds h
  rw [Bool.and_eq_true] at hout
  exact ⟨sum, db', hrun, of_decide_eq_true hout.1, hout.2⟩

def paddedSeen : Observation :=
  { databaseSeen with attributes := goMap [("name", .str "  postgres ")] (by simp) }

def paddedCall : ApplyCall := callOf (snapshotOf "padded" "one" [paddedSeen] [])

/-- The row is inserted under the trimmed name and then renamed to the text as it came. -/
theorem padded_name_kept : ∃ sum db' r, @ApplyCall.run toy paddedCall emptyDb = .ok (sum, db') ∧
    db'.assetOf "org" "one" "db" = some (@stableID toy "asset" ["org", "one", "db"]) ∧
    db'.assets.get (@stableID toy "asset" ["org", "one", "db"]) = some r ∧
    r.canonicalName = "  postgres " ∧ r.displayName = "  postgres " ∧ observationName paddedSeen = "postgres" := by
  have hrun : leadsToNew paddedCall "db" (fun db' => (db'.assets.get (@stableID toy "asset" ["org", "one", "db"])).any
      fun r => r.canonicalName = "  postgres " ∧ r.displayName = "  postgres ") = true := by decide +kernel
  obtain ⟨sum, db', hok, hleads, hnames⟩ := leadsToNew_run hrun
  obtain ⟨r, hr, hboth⟩ := (Option.any_eq_true _ _).mp hnames
  obtain ⟨hcanonical, hdisplay⟩ := of_decide_eq_true hboth
  exact ⟨sum, db', r, hok, hleads, hr, hcanonical, hdisplay, by decide +kernel⟩

theorem emptyDb_references : emptyDb.References :=
  ⟨fun i hi => absurd hi (Table.not_mem_empty i), fun x hx => absurd hx (Table.not_mem_empty x),
    fun c hc => absurd hc (Table.not_mem_empty c)⟩

theorem created_named_first : ∃ sum db' r, @ApplyCall.run toy firstCall emptyDb = .ok (sum, db') ∧
    db'.assets.get (@stableID toy "asset" ["org", "one", "db"]) = some r ∧
    r.canonicalName = observationName databaseSeen ∧ r.displayName = observationName databaseSeen := by
  have hrun : leadsToNew firstCall "db" (fun db' => decide
      (db'.assetOf "org" "one" "app" ≠ some (@stableID toy "asset" ["org", "one", "db"]))) = true := by decide +kernel
  obtain ⟨sum, db', hok, hleads, hother⟩ := leadsToNew_run hrun
  have hagree : @NamesAgree toy emptyDb firstCall.snapshot databaseSeen := by
    intro e he
    obtain ⟨hentry, -, -⟩ := he
    rw [List.mem_singleton.mp hentry]
    exact .inr (.inr (by decide +kernel))
  have honly : ∀ o' ∈ firstCall.snapshot.assets, o'.externalID ≠ databaseSeen.externalID →
      db'.assetOf "org" "one" o'.externalID ≠ some (@stableID toy "asset" ["org", "one", "db"]) := by
    intro o' ho' hne
    rcases List.mem_cons.mp ho' with rfl | ho'
    · exact of_decide_eq_true hother
    · exact absurd (by rw [List.mem_singleton.mp ho']) hne
  obtain ⟨r, hr, hboth⟩ := (@created_named_iff toy emptyDb db' databaseSeen _ firstCall sum emptyDb_references hok
    (by simp [firstCall, callOf, snapshotOf]) hleads rfl honly).mpr hagree
  exact ⟨sum, db', r, hok, hr, hboth⟩

end Infragraph
