import Infragraph.Sanity.Ingest
import Infragraph.Spec.Interleaving
import Infragraph.Proofs.Inventory

/-! What a reconciling session owns. The status of an asset depends on its row,
its ACTIVE identities and its claims; whoever changes one of them holds the row
of the asset when it commits. So a session that holds the row counts on all
three, and one that holds the connector's lock on the identities of its own
connector. -/

namespace Infragraph

open Relational ReadCommitted Prog

def assetTable : TableOf Db Write AssetRow.id where
  table := Db.assets
  row? | .asset r => some r | _ => none
  write d w := by cases w <;> rfl

def identityTable : TableOf Db Write SourceIdentityRow.key where
  table := Db.sourceIdentities
  row? | .sourceIdentity r => some r | _ => none
  write d w := by cases w <;> rfl

def strongTable : TableOf Db Write StrongIdentityRow.key where
  table := Db.strongIdentities
  row? | .strongIdentity r => some r | _ => none
  write d w := by cases w <;> rfl

def claimTable : TableOf Db Write ClaimRow.id where
  table := Db.claims
  row? | .claim r => some r | _ => none
  write d w := by cases w <;> rfl

def Db.binds (db : Db) (a : String) (k : String × String × String) : Bool :=
  (db.sourceIdentities.get k).any fun i => i.assetID = a ∧ i.status = .active

def Db.Owns (db : Db) (org a : String) : Prop :=
  ∃ r, db.assets.get a = some r ∧ r.organizationID = org

variable {d d' d₁ d₂ d₃ v v' : Db} {a org connector : String}

theorem binds_iff {k : String × String × String} :
    d.binds a k = true ↔ ∃ i, d.sourceIdentities.get k = some i ∧ i.assetID = a ∧ i.status = .active := by
  simp [Db.binds, Option.any_eq_true]

theorem anyActive_iff_binds : d.anyActive a = true ↔ ∃ k, d.binds a k = true := by
  simp only [anyActive_iff, binds_iff]
  constructor
  · rintro ⟨i, hi, h⟩
    exact ⟨i.key, i, Table.mem_iff_get.mp hi, h⟩
  · rintro ⟨k, i, hi, h⟩
    exact ⟨i, Table.mem_of_get hi, h⟩

theorem anyActive_congr (h : ∀ k, d'.binds a k = d.binds a k) : d'.anyActive a = d.anyActive a := by
  rw [Bool.eq_iff_iff, anyActive_iff_binds, anyActive_iff_binds]
  simp only [h]

structure SameAt (a : String) (d d' : Db) : Prop where
  row : d'.assets.get a = d.assets.get a
  binds : ∀ k, d'.binds a k = d.binds a k
  claims : ∀ c : ClaimRow, c.assetID = a → (c ∈ d'.claims ↔ c ∈ d.claims)

theorem binds_congr {k : String × String × String} (h : d'.sourceIdentities.get k = d.sourceIdentities.get k) :
    d'.binds a k = d.binds a k := by
  unfold Db.binds
  rw [h]

theorem SameAt.refl (a : String) (d : Db) : SameAt a d d := ⟨rfl, fun _ => rfl, fun _ _ => Iff.rfl⟩

theorem SameAt.trans (h : SameAt a d₁ d₂) (h' : SameAt a d₂ d₃) : SameAt a d₁ d₃ :=
  ⟨h'.row.trans h.row, fun k => (h'.binds k).trans (h.binds k),
    fun c hc => (h'.claims c hc).trans (h.claims c hc)⟩

theorem SameAt.anyActive (h : SameAt a d d') : d'.anyActive a = d.anyActive a := anyActive_congr h.binds

theorem SameAt.conflict (h : SameAt a d d') (org : String) : d'.conflict org a = d.conflict org a :=
  conflict_congr fun c hc => h.claims c hc.2.1

theorem SameAt.owns (h : SameAt a d d') : d'.Owns org a ↔ d.Owns org a := by
  unfold Db.Owns
  rw [h.row]

theorem claims_writeAll (h : ∀ c : ClaimRow, c.assetID = a → (c ∈ d'.claims ↔ c ∈ d.claims)) (ws : List Write)
    (c : ClaimRow) (hc : c.assetID = a) : c ∈ (writeAll d' ws).claims ↔ c ∈ (writeAll d ws).claims := by
  rw [Table.mem_iff_get, Table.mem_iff_get]
  rcases claimTable.get_cases ws c.id with ⟨x, -, -, hx⟩ | ⟨-, hx⟩
  · exact Iff.of_eq (congrArg (· = some c) ((hx d').trans (hx d).symm))
  · have hd := h c hc
    rw [Table.mem_iff_get, Table.mem_iff_get] at hd
    exact (Iff.of_eq (congrArg (· = some c) (hx d'))).trans
      (hd.trans (Iff.of_eq (congrArg (· = some c) (hx d).symm)))

theorem SameAt.writeAll (h : SameAt a d d') (ws : List Write) : SameAt a (writeAll d ws) (writeAll d' ws) := by
  refine ⟨assetTable.get_congr ws h.row, fun k => ?_, claims_writeAll h.claims ws⟩
  rcases identityTable.get_cases ws k with ⟨i, -, -, hi⟩ | ⟨-, hi⟩
  · exact binds_congr ((hi d').trans (hi d).symm)
  · calc (ReadCommitted.writeAll d' ws).binds a k = d'.binds a k := binds_congr (hi d')
      _ = d.binds a k := h.binds k
      _ = (ReadCommitted.writeAll d ws).binds a k := (binds_congr (hi d)).symm

/-- A property of the status of an asset, given whether it has an ACTIVE identity
and whether its claims conflict. -/
def Db.Fact (F : AssetStatus → Bool → Bool → Prop) (db : Db) (a : String) : Prop :=
  ∀ r, db.assets.get a = some r → F r.status (db.anyActive a) (db.conflict r.organizationID a)

theorem SameAt.fact {F : AssetStatus → Bool → Bool → Prop} (h : SameAt a d d') (hf : d.Fact F a) : d'.Fact F a := by
  intro r hr
  rw [h.anyActive, h.conflict]
  exact hf r (h.row ▸ hr)

/-- Every reference to an asset is to one of the row's own organization. -/
structure Db.Rooted (db : Db) : Prop where
  identity : ∀ i ∈ db.sourceIdentities, db.Owns i.organizationID i.assetID
  strong : ∀ x ∈ db.strongIdentities, db.Owns x.organizationID x.assetID
  claim : ∀ c ∈ db.claims, db.Owns c.organizationID c.assetID

section

variable [Hashes]

def assetLock (a : String) : Lock := .entry .assets [a]

structure Undisturbed (held : List Lock) (d d' : Db) : Prop where
  owns : ∀ org a, d.Owns org a → d'.Owns org a
  connector : ∀ org c, connectorLock org c ∈ held → ∀ e,
    d'.sourceIdentities.get (org, c, e) = d.sourceIdentities.get (org, c, e)
  asset : ∀ a, assetLock a ∈ held → SameAt a d d'
  claim : ∀ id, Lock.entry .claims [id] ∈ held → d'.claims.get id = d.claims.get id

theorem Undisturbed.refl (held : List Lock) (d : Db) : Undisturbed held d d :=
  ⟨fun _ _ h => h, fun _ _ _ _ => rfl, fun a _ => .refl a d, fun _ _ => rfl⟩

theorem Undisturbed.trans {held : List Lock} (h : Undisturbed held d₁ d₂) (h' : Undisturbed held d₂ d₃) :
    Undisturbed held d₁ d₃ :=
  ⟨fun o a ho => h'.owns o a (h.owns o a ho),
    fun o c hl e => (h'.connector o c hl e).trans (h.connector o c hl e),
    fun a hl => (h.asset a hl).trans (h'.asset a hl),
    fun id hl => (h'.claim id hl).trans (h.claim id hl)⟩

variable (F : AssetStatus → Bool → Bool → Prop)

def footprintRely : Rely Db Lock where
  inv d := d.Rooted ∧ ∀ a, d.Fact F a
  rel := Undisturbed
  refl := Undisturbed.refl
  trans := Undisturbed.trans

/-- Inside a reconciliation of a connector: its own writes are confined to its
identities, to assets it holds and to the assets `pending`, whose status is still
to be settled. -/
structure Working (org connector : String) (pending : List String) (d : Db) (l : Local Db Write Lock) : Prop where
  lock : connectorLock org connector ∈ l.held
  assets : ∀ r ∈ assetTable.written l.writes, assetLock r.id ∈ l.held
  identities : ∀ i ∈ identityTable.written l.writes, i.organizationID = org ∧ i.connectorID = connector
  claims : ∀ c ∈ claimTable.written l.writes, Lock.entry .claims [c.id] ∈ l.held ∧
    (assetLock c.assetID ∈ l.held ∨ c.assetID ∈ pending) ∧
    ∀ c₀, d.claims.get c.id = some c₀ → c₀.assetID = c.assetID
  binds : ∀ a, assetLock a ∉ l.held → a ∉ pending → ∀ k, (l.view d).binds a k = d.binds a k
  owns : ∀ o a, d.Owns o a → (l.view d).Owns o a
  identity : ∀ i ∈ identityTable.written l.writes, (l.view d).Owns i.organizationID i.assetID
  strong : ∀ x ∈ strongTable.written l.writes, (l.view d).Owns x.organizationID x.assetID
  claim : ∀ c ∈ claimTable.written l.writes, (l.view d).Owns c.organizationID c.assetID
  fact : ∀ a, assetLock a ∈ l.held → a ∉ pending → (l.view d).Fact F a

theorem Working.begin {l : Local Db Write Lock} (hw : l.writes = [])
    (hh : l.held = [connectorLock org connector]) : Working F org connector [] d l := by
  have hview : l.view d = d := by rw [Local.view, hw, writeAll_nil]
  have hasset : ∀ a, assetLock a ∉ l.held := by simp [hh, assetLock, connectorLock]
  refine ⟨by simp [hh], ?_, ?_, ?_, fun _ _ _ _ => by rw [hview], fun _ _ h => by rwa [hview], ?_, ?_, ?_,
    fun a ha => absurd ha (hasset a)⟩ <;> simp [hw]

/-- How the view of a session that holds `held` moves while others commit. -/
structure Later (org connector : String) (held : List Lock) (v v' : Db) : Prop where
  owns : ∀ o a, v.Owns o a → v'.Owns o a
  own : ∀ e, v'.sourceIdentities.get (org, connector, e) = v.sourceIdentities.get (org, connector, e)
  asset : ∀ a, assetLock a ∈ held → SameAt a v v'

variable {F} {p p' : List String} {l l' : Local Db Write Lock} {ws : List Write}

theorem Working.later (h : Working F org connector p d l) (hu : Undisturbed l.held d d') :
    Later org connector l.held (l.view d) (l.view d') := by
  refine ⟨fun o a ho => ?_, fun e => ?_, fun a hl => (hu.asset a hl).writeAll _⟩
  · obtain ⟨r, hr, horg⟩ := ho
    rcases assetTable.get_cases l.writes a with ⟨x, -, -, hx⟩ | ⟨-, hx⟩
    · exact ⟨r, ((hx d').trans (hx d).symm).trans hr, horg⟩
    · obtain ⟨r', hr', horg'⟩ := hu.owns o a ⟨r, (hx d).symm.trans hr, horg⟩
      exact ⟨r', (hx d').trans hr', horg'⟩
  · exact identityTable.get_congr l.writes (hu.connector org connector h.lock e)

/-- Other sessions do not disturb the work. -/
theorem Working.stable : Stable (footprintRely F) (Working F org connector p) := by
  intro d d' l _ _ hu h
  have hlater := h.later hu
  refine ⟨h.lock, h.assets, h.identities, fun c hc => ?_, fun a hl hp k => ?_, fun o a ho => ?_,
    fun i hi => hlater.owns _ _ (h.identity i hi), fun x hx => hlater.owns _ _ (h.strong x hx),
    fun c hc => hlater.owns _ _ (h.claim c hc), fun a hl hp => (hlater.asset a hl).fact (h.fact a hl hp)⟩
  · obtain ⟨hlock, htouch, hkeep⟩ := h.claims c hc
    exact ⟨hlock, htouch, by rw [hu.claim c.id hlock]; exact hkeep⟩
  · rcases identityTable.get_cases l.writes k with ⟨i, hi, rfl, hget⟩ | ⟨-, hget⟩
    · -- a key the session wrote is one of its connector, which nobody else writes
      obtain ⟨ho, hc⟩ := h.identities i hi
      have hd : d'.sourceIdentities.get i.key = d.sourceIdentities.get i.key := by
        have := hu.connector org connector h.lock i.externalID
        rwa [← ho, ← hc] at this
      calc (l.view d').binds a i.key = (l.view d).binds a i.key := binds_congr ((hget d').trans (hget d).symm)
        _ = d.binds a i.key := h.binds a hl hp _
        _ = d'.binds a i.key := (binds_congr hd).symm
    · exact binds_congr (hget d')
  · rcases assetTable.get_cases l.writes a with ⟨r, hr, rfl, hget⟩ | ⟨-, hget⟩
    · have hd := (hu.asset r.id (h.assets r hr)).owns.mp ho
      exact hlater.owns _ _ (h.owns o _ hd)
    · obtain ⟨r, hr, horg⟩ := ho
      exact ⟨r, (hget d').trans hr, horg⟩

section

variable (h : Working F org connector p d l)
include h

/-- Where the session neither holds the asset nor has it pending, it left it alone. -/
theorem Working.same (hl : assetLock a ∉ l.held) (hp : a ∉ p) : SameAt a d (l.view d) := by
  refine ⟨?_, h.binds a hl hp, fun c hc => ?_⟩
  · rcases assetTable.get_cases l.writes a with ⟨r, hr, rfl, -⟩ | ⟨-, hget⟩
    · exact absurd (h.assets r hr) hl
    · exact hget d
  · rw [Table.mem_iff_get, Table.mem_iff_get]
    rcases claimTable.get_cases l.writes c.id with ⟨x, hx, hid, hget⟩ | ⟨-, hget⟩
    · obtain ⟨-, htouch, hkeep⟩ := h.claims x hx
      have hne : c.assetID ≠ x.assetID := by
        rintro he
        rw [← he, hc] at htouch
        exact htouch.elim hl hp
      constructor
      · intro hv
        have : x = c := Option.some.inj ((hget d).symm.trans hv)
        exact absurd (congrArg ClaimRow.assetID this).symm hne
      · intro hd
        exact absurd (hkeep c (by rw [hid]; exact hd)) hne
    · exact Iff.of_eq (congrArg (· = some c) (hget d))

theorem Working.facts (hi : (footprintRely F).inv d) (hp : a ∉ p) : (l.view d).Fact F a := by
  by_cases hl : assetLock a ∈ l.held
  · exact h.fact a hl hp
  · exact (h.same hl hp).fact (hi.2 a)

theorem Working.rooted (hi : (footprintRely F).inv d) : (l.view d).Rooted := by
  refine ⟨fun i hmem => ?_, fun x hmem => ?_, fun c hmem => ?_⟩
  · rcases identityTable.mem_writeAll hmem with hw | hd
    · exact h.identity i hw
    · exact h.owns _ _ (hi.1.identity i hd)
  · rcases strongTable.mem_writeAll hmem with hw | hd
    · exact h.strong x hw
    · exact h.owns _ _ (hi.1.strong x hd)
  · rcases claimTable.mem_writeAll hmem with hw | hd
    · exact h.claim c hw
    · exact h.owns _ _ (hi.1.claim c hd)

end

/-- With nothing pending, the session may commit. -/
theorem Working.publishes (h : Working F org connector [] d l) (hi : (footprintRely F).inv d) :
    (footprintRely F).inv (l.view d) ∧ ∀ held, (∀ lk ∈ l.held, lk ∉ held) → Undisturbed held d (l.view d) := by
  refine ⟨⟨h.rooted hi, fun a => h.facts hi List.not_mem_nil⟩, fun held hdisj => ⟨h.owns, ?_, ?_, ?_⟩⟩
  · intro o c hl e
    rcases identityTable.get_cases l.writes (o, c, e) with ⟨i, hmem, hk, -⟩ | ⟨-, hget⟩
    · obtain ⟨ho, hc⟩ := h.identities i hmem
      have hko : i.organizationID = o := congrArg Prod.fst hk
      have hkc : i.connectorID = c := congrArg (·.2.1) hk
      rw [← hko, ← hkc, ho, hc] at hl
      exact absurd hl (hdisj _ h.lock)
    · exact hget d
  · intro a hl
    exact h.same (fun hmine => hdisj _ hmine hl) List.not_mem_nil
  · intro id hl
    rcases claimTable.get_cases l.writes id with ⟨c, hmem, rfl, -⟩ | ⟨-, hget⟩
    · exact absurd hl (hdisj _ (h.claims c hmem).1)
    · exact hget d

theorem Working.weaken (h : Working F org connector p d l) (hp : p ⊆ p') : Working F org connector p' d l :=
  { h with
    claims := fun c hc => ⟨(h.claims c hc).1, (h.claims c hc).2.1.imp id fun hm => hp hm, (h.claims c hc).2.2⟩
    binds := fun a hl ha => h.binds a hl fun hm => ha (hp hm)
    fact := fun a hl ha => h.fact a hl fun hm => ha (hp hm) }

/-- A pending asset that is held and settled is pending no more. -/
theorem Working.settle (h : Working F org connector (a :: p) d l) (hl : assetLock a ∈ l.held)
    (hf : (l.view d).Fact F a) : Working F org connector p d l := by
  have hcons : ∀ x, x ∉ p → x ≠ a → x ∉ a :: p := fun x hx hxa hm =>
    (List.mem_cons.mp hm).elim hxa hx
  refine { h with claims := fun c hc => ?_, binds := fun x hx hp => ?_, fact := fun x hx hp => ?_ }
  · obtain ⟨hlock, htouch, hkeep⟩ := h.claims c hc
    refine ⟨hlock, ?_, hkeep⟩
    rcases htouch with hheld | hm
    · exact .inl hheld
    · rcases List.mem_cons.mp hm with he | hm
      · exact .inl (he ▸ hl)
      · exact .inr hm
  · exact h.binds x hx (hcons x hp fun he => hx (he ▸ hl))
  · by_cases he : x = a
    · exact he ▸ hf
    · exact h.fact x hx (hcons x hp he)

/-- The work goes on after more writes, if they are confined like the others and
every asset that is not pending is left alone. -/
theorem Working.extend (h : Working F org connector p d l) (hi : (footprintRely F).inv d)
    (hw : l'.writes = l.writes ++ ws) (hh : l.held ⊆ l'.held)
    (hassets : ∀ r ∈ assetTable.written ws, assetLock r.id ∈ l'.held)
    (hids : ∀ i ∈ identityTable.written ws, i.organizationID = org ∧ i.connectorID = connector ∧
      (l'.view d).Owns i.organizationID i.assetID)
    (hstrong : ∀ x ∈ strongTable.written ws, (l'.view d).Owns x.organizationID x.assetID)
    (hclaims : ∀ c ∈ claimTable.written ws, Lock.entry .claims [c.id] ∈ l'.held ∧ c.assetID ∈ p ∧
      (l'.view d).Owns c.organizationID c.assetID ∧
      ∀ c₀, (l.view d).claims.get c.id = some c₀ → c₀.assetID = c.assetID)
    (howns : ∀ o a, (l.view d).Owns o a → (l'.view d).Owns o a)
    (hsame : ∀ a, a ∉ p → SameAt a (l.view d) (l'.view d)) : Working F org connector p d l' := by
  have hmem : ∀ {ρ κ : Type} [DecidableEq κ] {key : ρ → κ} (T : TableOf Db Write key) {r : ρ},
      r ∈ T.written l'.writes → r ∈ T.written l.writes ∨ r ∈ T.written ws := by
    intro ρ κ _ key T r hr
    rw [hw, T.written_append] at hr
    exact List.mem_append.mp hr
  refine ⟨hh h.lock, fun r hr => ?_, fun i hr => ?_, fun c hr => ?_, fun a hl hp k => ?_,
    fun o a ho => howns o a (h.owns o a ho), fun i hr => ?_, fun x hr => ?_, fun c hr => ?_,
    fun a hl hp => (hsame a hp).fact (h.facts hi hp)⟩
  · rcases hmem _ hr with hr | hr
    · exact hh (h.assets r hr)
    · exact hassets r hr
  · rcases hmem _ hr with hr | hr
    · exact h.identities i hr
    · exact ⟨(hids i hr).1, (hids i hr).2.1⟩
  · rcases hmem _ hr with hr | hr
    · obtain ⟨hlock, htouch, hkeep⟩ := h.claims c hr
      exact ⟨hh hlock, htouch.imp (fun hl => hh hl) id, hkeep⟩
    · obtain ⟨hlock, hpend, -, hkeep⟩ := hclaims c hr
      refine ⟨hlock, .inr hpend, fun c₀ hc₀ => ?_⟩
      -- the version the session sees is the committed one or one it wrote before
      rcases claimTable.get_cases l.writes c.id with ⟨x, hx, hid, hget⟩ | ⟨-, hget⟩
      · rw [← hid] at hc₀
        exact ((h.claims x hx).2.2 c₀ hc₀).trans (hkeep x (hget d))
      · exact hkeep c₀ ((hget d).trans hc₀)
  · exact ((hsame a hp).binds k).trans (h.binds a (fun hm => hl (hh hm)) hp k)
  · rcases hmem _ hr with hr | hr
    · exact howns _ _ (h.identity i hr)
    · exact (hids i hr).2.2
  · rcases hmem _ hr with hr | hr
    · exact howns _ _ (h.strong x hr)
    · exact hstrong x hr
  · rcases hmem _ hr with hr | hr
    · exact howns _ _ (h.claim c hr)
    · exact (hclaims c hr).2.2.1

structure SameRows (v v' : Db) : Prop where
  assets : v'.assets = v.assets
  identities : v'.sourceIdentities = v.sourceIdentities
  claims : v'.claims = v.claims

omit [Hashes] in
theorem SameRows.sameAt (h : SameRows v v') (a : String) : SameAt a v v' :=
  ⟨by rw [h.assets], fun k => binds_congr (by rw [h.identities]), fun c _ => by rw [h.claims]⟩

omit [Hashes] in
theorem SameRows.owns (h : SameRows v v') {o a : String} (ho : v.Owns o a) : v'.Owns o a := by
  unfold Db.Owns
  rw [h.assets]
  exact ho

omit [Hashes] in
theorem SameRows.later (h : SameRows v v') {held : List Lock} : Later org connector held v v' :=
  ⟨fun _ _ => h.owns, fun e => by rw [h.identities], fun a _ => h.sameAt a⟩

/-- Nothing that the status of an asset depends on. -/
def Write.IsOther : Write → Prop
  | .asset _ => False
  | .sourceIdentity _ => False
  | .strongIdentity _ => False
  | .claim _ => False
  | _ => True

omit [Hashes] in
theorem written_other (h : ∀ w ∈ ws, w.IsOther) :
    assetTable.written ws = [] ∧ identityTable.written ws = [] ∧ strongTable.written ws = [] ∧
      claimTable.written ws = [] := by
  simp only [TableOf.written, List.filterMap_eq_nil_iff]
  refine ⟨fun w hw => ?_, fun w hw => ?_, fun w hw => ?_, fun w hw => ?_⟩ <;>
    · have := h w hw
      cases w <;> first | rfl | cases this

omit [Hashes] in
theorem sameRows_writeAll (ha : assetTable.written ws = []) (hid : identityTable.written ws = [])
    (hc : claimTable.written ws = []) : SameRows v (writeAll v ws) := by
  refine ⟨(assetTable.writeAll v ws).trans ?_, (identityTable.writeAll v ws).trans ?_,
    (claimTable.writeAll v ws).trans ?_⟩
  · rw [ha]; rfl
  · rw [hid]; rfl
  · rw [hc]; rfl

omit [Hashes] in
theorem view_append (hw : l'.writes = l.writes ++ ws) (d : Db) : l'.view d = writeAll (l.view d) ws := by
  unfold Local.view
  rw [hw, writeAll_append]

section

variable (h : Working F org connector p d l) (hi : (footprintRely F).inv d)
include h hi

theorem Working.other (hw : l'.writes = l.writes ++ ws) (hh : l.held ⊆ l'.held) (hws : ∀ w ∈ ws, w.IsOther) :
    Working F org connector p d l' ∧ SameRows (l.view d) (l'.view d) := by
  obtain ⟨ha, hid, hs, hc⟩ := written_other hws
  have hrows : SameRows (l.view d) (l'.view d) := view_append hw d ▸ sameRows_writeAll ha hid hc
  refine ⟨h.extend hi hw hh ?_ ?_ ?_ ?_ (fun _ _ => hrows.owns) fun a _ => hrows.sameAt a, hrows⟩
  · simp [ha]
  · simp [hid]
  · simp [hs]
  · simp [hc]

theorem Working.putStrong {x : StrongIdentityRow} (hw : l'.writes = l.writes ++ [.strongIdentity x])
    (hh : l.held ⊆ l'.held)
    (hx : (l.view d).Owns x.organizationID x.assetID) :
    Working F org connector p d l' ∧ SameRows (l.view d) (l'.view d) := by
  have hrows : SameRows (l.view d) (l'.view d) := view_append hw d ▸ sameRows_writeAll rfl rfl rfl
  refine ⟨h.extend hi hw hh (by simp [assetTable, TableOf.written]) (by simp [identityTable, TableOf.written])
    ?_ (by simp [claimTable, TableOf.written]) (fun _ _ => hrows.owns) fun a _ => hrows.sameAt a, hrows⟩
  intro y hy
  rw [List.mem_singleton.mp hy]
  exact hrows.owns hx

theorem Working.putAsset {rs : List AssetRow} (hw : l'.writes = l.writes ++ rs.map .asset) (hh : l.held ⊆ l'.held)
    (hl : assetLock a ∈ l'.held) (ha : a ∈ p)
    (hrs : ∀ r ∈ rs, r.id = a ∧ ∀ r₀, (l.view d).assets.get a = some r₀ → r.organizationID = r₀.organizationID) :
    Working F org connector p d l' := by
  have hwa : assetTable.written (rs.map .asset) = rs := assetTable.written_map (fun _ => rfl) rs
  have hview : l'.view d = { l.view d with assets := (l.view d).assets.putAll rs } := by
    rw [view_append hw, writeAll_asset]
  have hother : ∀ k, k ≠ a → (l'.view d).assets.get k = (l.view d).assets.get k := by
    intro k hk
    rw [hview]
    exact Table.get_putAll_of_not_mem _ _ fun r hr hrk => hk (hrk ▸ (hrs r hr).1)
  refine h.extend hi hw hh ?_ (identityTable.unwritten fun _ => rfl)
    (strongTable.unwritten fun _ => rfl) (claimTable.unwritten fun _ => rfl) ?_ ?_
  · intro r hr
    rw [hwa] at hr
    rw [(hrs r hr).1]
    exact hl
  · rintro o k ⟨r₀, hr₀, ho⟩
    by_cases hk : k = a
    · subst hk
      rcases assetTable.get_cases (rs.map .asset) k with ⟨r, hr, -, hget⟩ | ⟨-, hget⟩
      · rw [hwa] at hr
        exact ⟨r, by rw [view_append hw]; exact hget _, ((hrs r hr).2 r₀ hr₀).trans ho⟩
      · exact ⟨r₀, by rw [view_append hw]; exact (hget _).trans hr₀, ho⟩
    · exact ⟨r₀, (hother k hk).trans hr₀, ho⟩
  · intro k hk
    refine ⟨hother k fun he => hk (he ▸ ha), fun _ => ?_, fun c _ => ?_⟩ <;> rw [hview]
    exact binds_congr rfl

/-- Identities of the connector change, none of an asset that is not pending. -/
theorem Working.putIdentities {rs : List SourceIdentityRow} (hw : l'.writes = l.writes ++ rs.map .sourceIdentity)
    (hh : l.held ⊆ l'.held)
    (hrs : ∀ i ∈ rs, i.organizationID = org ∧ i.connectorID = connector ∧ (l.view d).Owns i.organizationID i.assetID)
    (hbinds : ∀ a, a ∉ p → ∀ k, (l'.view d).binds a k = (l.view d).binds a k) : Working F org connector p d l' := by
  have hwi : identityTable.written (rs.map .sourceIdentity) = rs := identityTable.written_map (fun _ => rfl) rs
  have hview : l'.view d = { l.view d with sourceIdentities := (l.view d).sourceIdentities.putAll rs } := by
    rw [view_append hw, writeAll_sourceIdentity]
  have howns : ∀ o k, (l.view d).Owns o k → (l'.view d).Owns o k := by
    intro o k ho
    rw [hview]
    exact ho
  refine h.extend hi hw hh (assetTable.unwritten fun _ => rfl) ?_
    (strongTable.unwritten fun _ => rfl) (claimTable.unwritten fun _ => rfl) howns ?_
  · intro i hmem
    rw [hwi] at hmem
    obtain ⟨ho, hc, hown⟩ := hrs i hmem
    exact ⟨ho, hc, howns _ _ hown⟩
  · intro k hk
    refine ⟨by rw [hview], hbinds k hk, fun c _ => by rw [hview]⟩

theorem Working.putClaims {rs : List ClaimRow} (hw : l'.writes = l.writes ++ rs.map .claim) (hh : l.held ⊆ l'.held)
    (ha : a ∈ p) (hrs : ∀ c ∈ rs, Lock.entry .claims [c.id] ∈ l'.held ∧ c.assetID = a ∧
      (l.view d).Owns c.organizationID a ∧ ∀ c₀, (l.view d).claims.get c.id = some c₀ → c₀.assetID = a) :
    Working F org connector p d l' := by
  have hwc : claimTable.written (rs.map .claim) = rs := claimTable.written_map (fun _ => rfl) rs
  have hview : l'.view d = { l.view d with claims := (l.view d).claims.putAll rs } := by
    rw [view_append hw, writeAll_claim]
  have howns : ∀ o k, (l.view d).Owns o k → (l'.view d).Owns o k := by
    intro o k ho
    rw [hview]
    exact ho
  refine h.extend hi hw hh (assetTable.unwritten fun _ => rfl)
    (identityTable.unwritten fun _ => rfl) (strongTable.unwritten fun _ => rfl) ?_ howns ?_
  · intro c hmem
    rw [hwc] at hmem
    obtain ⟨hlock, rfl, hown, hkeep⟩ := hrs c hmem
    exact ⟨hlock, ha, howns _ _ hown, hkeep⟩
  · intro k hk
    refine ⟨by rw [hview], fun _ => by rw [hview]; exact binds_congr rfl, fun c hck => ?_⟩
    rw [Table.mem_iff_get, Table.mem_iff_get, view_append hw]
    rcases claimTable.get_cases (rs.map .claim) c.id with ⟨x, hx, hid, hget⟩ | ⟨-, hget⟩
    · rw [hwc] at hx
      obtain ⟨-, hxa, -, hkeep⟩ := hrs x hx
      have hne : c.assetID ≠ a := fun he => hk (by rw [← hck, he]; exact ha)
      constructor
      · intro hv
        have : x = c := Option.some.inj ((hget _).symm.trans hv)
        exact absurd (this ▸ hxa) hne
      · intro hv
        exact absurd (hkeep c (by rw [hid]; exact hv)) hne
    · exact Iff.of_eq (congrArg (· = some c) (hget _))

end

end

end Infragraph
