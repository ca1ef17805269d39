import Infragraph.Sanity.Issued
import Infragraph.Sanity.Statements
import Infragraph.Spec.Tenants

/-! Writes that stay within an organization. Such a write happens in the rows of
that organization alone, and every statement of a reconciliation writes only such
rows. -/

namespace Infragraph

open Relational ReadCommitted Prog

/-- The row is of the organization, and so is the row it replaces. -/
def Write.Within (org : String) (d : Db) : Write → Prop
  | .asset r => Table.Owned (fun r => r.organizationID = org) d.assets r
  | .sourceIdentity r => Table.Owned (fun r => r.organizationID = org) d.sourceIdentities r
  | .strongIdentity r => Table.Owned (fun r => r.organizationID = org) d.strongIdentities r
  | .observation r => Table.Owned (fun r => r.organizationID = org) d.observations r
  | .claim r => Table.Owned (fun r => r.organizationID = org) d.claims r
  | .relationship r => Table.Owned (fun r => r.organizationID = org) d.relationships r
  | .relationshipSource r => Table.Owned (fun r => r.organizationID = org) d.relationshipSources r
  | .relationshipObservation r => Table.Owned (fun r => r.organizationID = org) d.relationshipObservations r
  | .change r => Table.Owned (fun r => r.organizationID = org) d.changes r
  | .run r => Table.Owned (fun r => r.organizationID = org) d.runs r
  | .snapshot r => Table.Owned (fun r => r.organizationID = org) d.snapshots r
  | .auditEvent r => Table.Owned (fun r => r.organizationID = org) d.auditEvents r

variable {org : String} {d : Db} {w w' : Write}

theorem Write.Within.write (h : w.Within org d) (h' : w'.Within org d) : w'.Within org (d.write w) := by
  -- only a write to the same table moves the row that is replaced
  cases w <;> cases w' <;> first | exact h' | (simp only [Write.Within] at h h'; exact h.put h')

theorem others_write (h : w.Within org d) : (d.write w).others org = d.others org := by
  cases w <;> simp only [Db.others, Db.only, Db.write] <;> simp only [Write.Within] at h <;>
    rw [Table.restrict_put_other h]

theorem others_writeAll {ws : List Write} (h : ∀ w ∈ ws, w.Within org d) :
    (writeAll d ws).others org = d.others org := by
  induction ws generalizing d with
  | nil => rfl
  | cons w ws ih =>
    have hw := h w (.head _)
    have hws := ih fun x hx => hw.write (h x (List.mem_cons_of_mem w hx))
    exact hws.trans (others_write hw)

variable [Hashes]

theorem Issued.within {s : SnapshotEnvelope} {N : String → Prop} {β : Type} {st : Sql β} (h : Issued s N st) :
    st.Puts (Write.Within s.organizationID) := by
  cases h with
  | sourceIdentity | strongIdentity | authority | effectiveValue | conflict | relationshipExists =>
    exact Puts.select
  | assetStatus => exact Puts.selectForUpdate
  | touch | effective | assetMissing =>
    refine Puts.update_owned (fun _ _ h => h) (fun _ => ⟨rfl, rfl⟩) fun d r hp => ?_
    rw [Bool.and_eq_true, Bool.and_eq_true] at hp
    exact hp.1.2
  | supersede =>
    exact Puts.update_owned (fun _ _ h => h) (fun _ => ⟨rfl, rfl⟩) fun d c hp => decide_eq_true (of_decide_eq_true hp).1
  | lapse =>
    refine Puts.update_owned (fun _ _ h => h) (fun _ => ⟨rfl, rfl⟩) fun d c hp => ?_
    rw [Bool.and_eq_true] at hp
    exact decide_eq_true (of_decide_eq_true hp.1).1
  | absences | identitiesMissing | relationshipAbsences | sourcesRemoved =>
    refine Puts.update_owned (fun _ _ h => h) (fun _ => ⟨rfl, rfl⟩) fun d i hp => ?_
    rw [Bool.and_eq_true, Bool.and_eq_true] at hp
    exact hp.1.1
  | relationshipRemoved =>
    refine Puts.update_owned (fun _ _ h => h) (fun _ => ⟨rfl, rfl⟩) fun d r hp => ?_
    rw [Bool.and_eq_true] at hp
    exact decide_eq_true (of_decide_eq_true hp.1).2.1
  | change r _ horg =>
    intro d u ws he w hw
    simp only [insertChangeRow] at he
    split_ifs at he with h1 h2
    · cases he
      cases hw
    · cases he
      rw [List.mem_singleton.mp hw]
      have hfresh : d.changes.get r.id = none := by simpa using h2
      exact Table.owned_of_fresh (q := (·.organizationID = s.organizationID)) (by simpa using horg) hfresh
  | newAsset _ horg =>
    refine Puts.insert_owned (q := (·.organizationID = s.organizationID)) Db.assets (fun _ h => h) (by simpa) ?_
    exact fun d hr => by simpa using ite_some_eq_none.mp hr
  | claim =>
    refine Puts.insert_owned (q := (·.organizationID = s.organizationID)) Db.claims (fun _ h => h)
      (decide_eq_true rfl) ?_
    exact fun d hr => by simpa using ite_some_eq_none.mp hr
  | run _ horg =>
    refine Puts.insert_owned (q := (·.organizationID = s.organizationID)) Db.runs (fun _ h => h) (by simpa)
      fun d hr => ?_
    split_ifs at hr with h1 h2
    simpa using h1
  | observation =>
    refine Puts.insert_owned (q := (·.organizationID = s.organizationID)) Db.observations (fun _ h => h)
      (decide_eq_true rfl) fun d hr => ?_
    split_ifs at hr with h1 h2
    simpa using h1
  | relationshipObservation =>
    refine Puts.insert_owned (q := (·.organizationID = s.organizationID)) Db.relationshipObservations (fun _ h => h)
      (decide_eq_true rfl) fun d hr => ?_
    split_ifs at hr with h1 h2
    simpa using h1
  | strong _ horg =>
    refine Puts.upsert_owned (fun _ _ h => h) (decide_eq_true horg) (fun _ => ⟨rfl, rfl⟩) ?_ fun _ hnone _ => hnone
    intro d old hold
    exact ⟨Table.mem_of_get hold, decide_eq_true ((congrArg Prod.fst (Table.key_of_get hold)).trans horg)⟩
  | identity | relationshipSource =>
    refine Puts.upsert_owned (fun _ _ h => h) (decide_eq_true rfl) (fun _ => ⟨rfl, rfl⟩) ?_ fun _ hnone _ => hnone
    intro d old hold
    exact ⟨Table.mem_of_get hold, decide_eq_true (congrArg Prod.fst (Table.key_of_get hold))⟩
  | relationship f g r t =>
    refine Puts.upsert_owned (fun _ _ h => h) (decide_eq_true rfl) (fun _ => ⟨rfl, rfl⟩) ?_ ?_
    · intro d old hold
      have hkey : old.key = (relationshipRow s f g r.type t).key := by simpa using List.find?_some hold
      exact ⟨List.mem_of_find?_eq_some hold, decide_eq_true (congrArg Prod.fst hkey)⟩
    · exact fun d _ hr => by simpa using ite_some_eq_none.mp hr

end Infragraph
