import Infragraph.Lib.View
import Infragraph.Sanity.Tenants

/-! The statements of ingest read the rows of one organization, provided the rows
of the others refer to one another only and carry none of the IDs the statements
insert. -/

namespace Infragraph

open Relational ReadCommitted Prog

/-- The assets that identities of the organization are bound to. -/
structure Db.Named (db : Db) (org : String) (N : String → Prop) : Prop where
  source : ∀ i ∈ db.sourceIdentities, i.organizationID = org → N i.assetID
  strong : ∀ i ∈ db.strongIdentities, i.organizationID = org → N i.assetID

/-- What a request of an organization leaves as it is: the rows of the others and the
credentials and collectors of all; and it binds identities to these assets only. -/
structure Spared (org : String) (N : String → Prop) (F d : Db) : Prop where
  others : d.others org = F.others org
  credentials : d.credentials = F.credentials
  collectors : d.collectors = F.collectors
  named : d.Named org N

variable {org : String} {N : String → Prop} {d F : Db} {β : Type}

/-- A row that binds an identity binds it to one of the assets. -/
def Write.Named (N : String → Prop) : Write → Prop
  | .sourceIdentity r => N r.assetID
  | .strongIdentity r => N r.assetID
  | _ => True

theorem Db.Named.writeAll {ws : List Write} (h : d.Named org N) (hws : ∀ w ∈ ws, w.Named N) :
    (writeAll d ws).Named org N := by
  induction ws generalizing d with
  | nil => exact h
  | cons w ws ih =>
    refine ih ?_ fun x hx => hws x (List.mem_cons_of_mem w hx)
    have hw := hws w (.head _)
    cases w with
    | sourceIdentity r =>
      refine ⟨fun i hi horg => ?_, h.strong⟩
      rcases Table.mem_put.mp hi with rfl | ⟨hi, -⟩
      · exact hw
      · exact h.source i hi horg
    | strongIdentity r =>
      refine ⟨h.source, fun i hi horg => ?_⟩
      rcases Table.mem_put.mp hi with rfl | ⟨hi, -⟩
      · exact hw
      · exact h.strong i hi horg
    | _ => exact ⟨h.source, h.strong⟩

variable {s : SnapshotEnvelope} {names : List String} {auditID : String}

theorem and_left_true {a b c : Bool} (h : (a && b && c) = true) : a = true := by
  rw [Bool.and_eq_true, Bool.and_eq_true] at h
  exact h.1.1

variable [Hashes]

theorem Separated.congr (h : Separated s names auditID d) (ho : F.others s.organizationID = d.others s.organizationID) :
    Separated s names auditID F := by
  obtain ⟨h1, h2, h3, h4, h5, h6, h7, h8, h9, h10, h11, h12⟩ := h
  constructor <;> (try unfold Db.TakenBeside) <;> rw [ho] <;> assumption

/-- Identities that are bound to an asset of the organization are its own. -/
theorem Separated.anyActive (h : Separated s names auditID d) {r : AssetRow} (hr : r ∈ d.assets)
    (horg : r.organizationID = s.organizationID) : (d.own s.organizationID).anyActive r.id = d.anyActive r.id := by
  apply Table.any_restrict_unless
  intro i hi hid
  obtain ⟨a, ha, haid⟩ := h.identityAsset i hi
  obtain ⟨hmem, hother⟩ := Table.mem_restrict.mp ha
  rw [Table.eq_of_key hmem hr (haid.trans (of_decide_eq_true hid).1), horg] at hother
  simp at hother

theorem Separated.relationshipActive (h : Separated s names auditID d) {r : RelationshipRow} (hr : r ∈ d.relationships)
    (horg : r.organizationID = s.organizationID) :
    (d.own s.organizationID).relationshipActive r.id = d.relationshipActive r.id := by
  apply Table.any_restrict_unless
  intro i hi hid
  obtain ⟨x, hx, hxid⟩ := h.sourceRelationship i hi
  obtain ⟨hmem, hother⟩ := Table.mem_restrict.mp hx
  rw [Table.eq_of_key hmem hr (hxid.trans (of_decide_eq_true hid).1), horg] at hother
  simp at hother

section Free

variable (h : Separated s names auditID d) (hfree : ¬ d.TakenBeside s.organizationID s.snapshotID)

include h hfree

theorem Separated.observed (external : String) :
    (d.own s.organizationID).observed s.snapshotID external = d.observed s.snapshotID external := by
  apply Table.any_restrict_unless
  exact fun r hr hid => hfree (h.observations r hr (.inl (of_decide_eq_true hid).1))

end Free

theorem Issued.binds {st : Sql β} (h : Issued s N st) :
    st.Puts fun d w => d.Named s.organizationID N → w.Named N := by
  cases h with
  | sourceIdentity | strongIdentity | authority | effectiveValue | conflict | relationshipExists =>
    exact Puts.select
  | assetStatus => exact Puts.selectForUpdate
  | newAsset | claim | observation | relationshipObservation | run => exact Puts.insert fun _ _ _ => trivial
  | relationship | relationshipSource => exact Puts.upsert (fun _ _ _ _ => trivial) fun _ _ _ _ => trivial
  | touch | supersede | effective | lapse | assetMissing | relationshipAbsences | sourcesRemoved
  | relationshipRemoved => exact Puts.update fun _ _ _ _ _ => trivial
  | change r =>
    intro d u ws he w hw _
    simp only [insertChangeRow] at he
    split_ifs at he
    · cases he
      cases hw
    · cases he
      rw [List.mem_singleton.mp hw]
      trivial
  | identity o a t ho ha =>
    exact Puts.upsert (fun d i hi hd => hd.source i (Table.mem_of_get hi) (congrArg Prod.fst (Table.key_of_get hi)))
      fun _ _ _ _ => ha
  | strong r horg ha =>
    refine Puts.upsert (fun d i hi hd => hd.strong i (Table.mem_of_get hi) ?_) fun _ _ _ _ => ha
    exact (congrArg Prod.fst (Table.key_of_get hi)).trans horg
  | absences | identitiesMissing =>
    exact Puts.update fun d i hi hp hd => hd.source i hi (of_decide_eq_true (and_left_true hp))

section Inserts

variable (h : Separated s names auditID d)
include h

variable (hfree : ¬ d.TakenBeside s.organizationID s.snapshotID)
include hfree

end Inserts

end Infragraph
