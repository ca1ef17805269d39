import Infragraph.Spec.Scheduler

/-! A lease excludes its other owners. While a granted interval lasts and is not
renewed, the row still names its owner and an end that is not before `now()`, so
the conflict clause refuses everyone else. -/

namespace Infragraph

open Relational ReadCommitted Prog

/-- The row can be taken at `now`: there is none, it is expired, or it is the owner's own. -/
def Leases.Free (t : Leases) (name owner : String) (now : Time) : Prop :=
  ∀ old, t.get name = some old → old.leasedUntil < now ∨ old.ownerID = owner

variable {t t₀ : Leases}

theorem run_upsertLease_free {now : Time} {r : LeaseRow} (h : t.Free r.name r.ownerID now) :
    (exec (upsertLease now r)).run t = .ok (some true, t.put r) := by
  unfold upsertLease
  rw [run_upsertWhere]
  cases hget : t.get r.name with
  | none => rfl
  | some old =>
    have hname := Table.key_of_get hget
    have hmerge : { old with ownerID := r.ownerID, leasedUntil := r.leasedUntil } = r := by
      cases old
      cases r
      cases hname
      rfl
    simp only [h old hget, decide_true, if_true, hmerge]
    rfl

theorem run_upsertLease_taken {now : Time} {r : LeaseRow} (h : ¬ t.Free r.name r.ownerID now) :
    (exec (upsertLease now r)).run t = .ok (none, t) := by
  unfold Leases.Free at h
  push Not at h
  obtain ⟨old, hget, hlate, howner⟩ := h
  unfold upsertLease
  rw [run_upsertWhere]
  have hkeep : ¬ (old.leasedUntil < now ∨ old.ownerID = r.ownerID) := by
    intro hor
    cases hor with
    | inl hlt => exact absurd hlt (not_lt.mpr hlate)
    | inr heq => exact howner heq
  simp [hget, hkeep]

section

variable [Intervals] {calls : List AcquireCall} {c a b : AcquireCall} {i j k : ℕ}

/-- What a call can do: take a free lease for the interval, or fail and change nothing. -/
theorem acquire_cases (c : AcquireCall) (t : Leases) :
    (∃ interval, Intervals.read c.lease.duration = some interval ∧ t.Free c.name c.lease.owner c.now ∧
        c.Succeeds t ∧ c.after t = t.put ⟨c.name, c.lease.owner, c.now + interval⟩) ∨
      (¬ c.Succeeds t ∧ c.after t = t ∧
        (Intervals.read c.lease.duration = none ∨ ¬ t.Free c.name c.lease.owner c.now)) := by
  unfold AcquireCall.Succeeds AcquireCall.after AcquireCall.run Lease.acquire
  cases hread : Intervals.read c.lease.duration with
  | none =>
    simp
  | some interval =>
    by_cases hfree : t.Free c.name c.lease.owner c.now
    · left
      refine ⟨interval, rfl, hfree, ?_⟩
      rw [run_bind_of_ok (run_upsertLease_free hfree)]
      exact ⟨⟨_, rfl⟩, rfl⟩
    · rw [run_bind_of_ok (run_upsertLease_taken hfree)]
      simp [hfree]

theorem AcquireCall.succeeds_empty {interval : ℤ} (hread : Intervals.read c.lease.duration = some interval) :
    c.Succeeds .empty := by
  obtain ⟨_, -, -, hs, -⟩ | ⟨-, -, hnone | htaken⟩ := acquire_cases c .empty
  · exact hs
  · cases hread.symm.trans hnone
  · refine absurd ?_ htaken
    intro old hold
    cases hold

theorem leasesAfter_succ (h : calls[i]? = some c) :
    leasesAfter t₀ (calls.take (i + 1)) = c.after (leasesAfter t₀ (calls.take i)) := by
  unfold leasesAfter
  rw [List.take_add_one, h, List.foldl_append]
  rfl

theorem after_of_not_granted (h : calls[i]? = some c) (hno : ¬ GrantedAt t₀ calls i c) :
    leasesAfter t₀ (calls.take (i + 1)) = leasesAfter t₀ (calls.take i) := by
  rw [leasesAfter_succ h]
  obtain ⟨_, -, -, hs, -⟩ | ⟨-, hkeep, -⟩ := acquire_cases c (leasesAfter t₀ (calls.take i))
  · exact absurd ⟨h, hs⟩ hno
  · exact hkeep

def Stands (t : Leases) (a : AcquireCall) : Prop :=
  ∃ interval, Intervals.read a.lease.duration = some interval ∧
    t.get a.name = some ⟨a.name, a.lease.owner, a.now + interval⟩

theorem GrantedAt.stands (h : GrantedAt t₀ calls i a) : Stands (leasesAfter t₀ (calls.take (i + 1))) a := by
  rw [leasesAfter_succ h.1]
  obtain ⟨interval, hread, -, -, hafter⟩ | ⟨hno, -⟩ := acquire_cases a (leasesAfter t₀ (calls.take i))
  · refine ⟨interval, hread, ?_⟩
    rw [hafter, Table.get_put, if_pos rfl]
  · exact absurd h.2 hno

/-- `now()` and the interval are whole microseconds, so an instant within the
duration is within the interval PostgreSQL stored. -/
theorem within_interval {interval : ℤ} (hread : Intervals.read a.lease.duration = some interval)
    (h : b.now ≤ a.now + a.lease.duration) : b.now ≤ a.now + interval := by
  have hwhole := Intervals.whole hread
  have hnear := Intervals.near hread
  have ha := a.now_whole
  have hb := b.now_whole
  unfold Time at *
  omega

/-- While the row stands and the granted time lasts, another owner is refused. -/
theorem Stands.refuses (h : Stands t a) (hname : b.name = a.name) (howner : b.lease.owner ≠ a.lease.owner)
    (hnow : b.now ≤ a.now + a.lease.duration) : ¬ b.Succeeds t := by
  obtain ⟨interval, hread, hget⟩ := h
  obtain ⟨_, -, hfree, -, -⟩ | ⟨hno, -⟩ := acquire_cases b t
  · rw [hname] at hfree
    have hold := hfree _ hget
    cases hold with
    | inl hexpired => exact absurd (within_interval hread hnow) (not_le.mpr hexpired)
    | inr heq => exact absurd heq.symm howner
  · exact hno

theorem Stands.other (h : Stands t a) (hname : b.name ≠ a.name) : Stands (b.after t) a := by
  obtain ⟨interval, hread, hget⟩ := h
  refine ⟨interval, hread, ?_⟩
  obtain ⟨_, -, -, -, hafter⟩ | ⟨-, hafter, -⟩ := acquire_cases b t
  · rw [hafter]
    exact (Table.get_put_of_ne t hname).trans hget
  · rw [hafter, hget]

/-- The row stands until the owner renews it, as long as the calls on the name
are within the granted time. -/
theorem GrantedAt.stands_until (h : GrantedAt t₀ calls i a) (hno : NoRenewal t₀ calls a.name a.lease.owner i j)
    (hnow : ∀ k c, i < k → k < j → calls[k]? = some c → c.name = a.name → c.now ≤ a.now + a.lease.duration)
    (hj : j ≤ calls.length) (hij : i < j) : Stands (leasesAfter t₀ (calls.take j)) a := by
  induction j, hij using Nat.le_induction with
  | base => exact h.stands
  | succ j hij ih =>
    have hstands := ih (fun k c hk hkj => hno k c hk (by omega)) (fun k c hk hkj => hnow k c hk (by omega))
      (by omega)
    obtain ⟨c, hc⟩ : ∃ c, calls[j]? = some c := ⟨calls[j], List.getElem?_eq_getElem (by omega)⟩
    rw [leasesAfter_succ hc]
    by_cases hname : c.name = a.name
    · -- a call on the name: of the owner it cannot succeed, of another it is refused
      have hfails : ¬ GrantedAt t₀ calls j c := by
        intro hg
        exact hstands.refuses hname (hno j c (by omega) (by omega) hg hname)
          (hnow j c (by omega) (by omega) hc hname) hg.2
      rw [← leasesAfter_succ hc, after_of_not_granted hc hfails]
      exact hstands
    · exact hstands.other hname

omit [Intervals] in
theorem TimeOrdered.le (h : TimeOrdered calls) (hij : i < j) (ha : calls[i]? = some a) (hb : calls[j]? = some b)
    (hname : a.name = b.name) : a.now ≤ b.now := by
  obtain ⟨hi, rfl⟩ := List.getElem?_eq_some_iff.mp ha
  obtain ⟨hj, rfl⟩ := List.getElem?_eq_some_iff.mp hb
  exact List.pairwise_iff_getElem.mp h i j hi hj hij hname

/-- Until the owner renews, nobody else succeeds within the granted time. -/
theorem GrantedAt.excludes (hord : TimeOrdered calls) (ha : GrantedAt t₀ calls i a) (hij : i < j)
    (hno : NoRenewal t₀ calls a.name a.lease.owner i j) (hname : b.name = a.name)
    (howner : b.lease.owner ≠ a.lease.owner) (hnow : b.now ≤ a.now + a.lease.duration) :
    ¬ GrantedAt t₀ calls j b := by
  intro hb
  have hj : j ≤ calls.length := (List.getElem?_eq_some_iff.mp hb.1).1.le
  have hstands : Stands (leasesAfter t₀ (calls.take j)) a := by
    apply ha.stands_until hno _ hj hij
    intro k c hik hkj hc hcname
    exact (hord.le hkj hc hb.1 (hcname.trans hname.symm)).trans hnow
  exact hstands.refuses hname howner hnow hb.2

theorem exists_last_grant (ha : GrantedAt t₀ calls i a) (hij : i < j) :
    ∃ k c, i ≤ k ∧ k < j ∧ GrantedAt t₀ calls k c ∧ c.name = a.name ∧ c.lease.owner = a.lease.owner ∧
      NoRenewal t₀ calls a.name a.lease.owner k j := by
  induction j, hij using Nat.le_induction with
  | base => exact ⟨i, a, le_rfl, by omega, ha, rfl, rfl, fun k c hk hkj => by omega⟩
  | succ j hij ih =>
    by_cases hlast : ∃ c, GrantedAt t₀ calls j c ∧ c.name = a.name ∧ c.lease.owner = a.lease.owner
    · obtain ⟨c, hc, hname, howner⟩ := hlast
      exact ⟨j, c, by omega, by omega, hc, hname, howner, fun k c hk hkj => by omega⟩
    · push Not at hlast
      obtain ⟨k, c, hik, hkj, hc, hname, howner, hno⟩ := ih
      refine ⟨k, c, hik, by omega, hc, hname, howner, ?_⟩
      intro k' c' hk hkj' hc' hname'
      by_cases hk'j : k' < j
      · exact hno k' c' hk hk'j hc' hname'
      · obtain rfl : k' = j := by omega
        exact hlast c' hc' hname'

/-- Two grants of different owners, the second executed later, have no instant in common. -/
theorem GrantedAt.disjoint (hord : TimeOrdered calls) (hdur : ∀ c ∈ calls, 0 ≤ c.lease.duration) {x : Time}
    (ha : GrantedAt t₀ calls i a) (hb : GrantedAt t₀ calls j b) (hij : i < j) (hname : b.name = a.name)
    (howner : b.lease.owner ≠ a.lease.owner) (hx : b.now ≤ x) (hend : x ≤ a.now + a.lease.duration)
    (hcut : ∀ k c, i < k → GrantedAt t₀ calls k c → c.name = a.name → c.lease.owner = a.lease.owner →
      x ≤ c.now) : False := by
  obtain ⟨k, c, hik, hkj, hc, hcname, hcowner, hno⟩ := exists_last_grant ha hij
  have hlate : c.now + c.lease.duration < b.now := by
    by_contra hnow
    rw [← hcname, ← hcowner] at hno
    exact hc.excludes hord hkj hno (hname.trans hcname.symm) (hcowner ▸ howner) (not_lt.mp hnow) hb
  have hpos := hdur c (List.mem_of_getElem? hc.1)
  have hwithin : x ≤ c.now + c.lease.duration := by
    obtain rfl | hlt := hik.eq_or_lt
    · cases hc.1.symm.trans ha.1
      exact hend
    · have := hcut k c hlt hc hcname hcowner
      unfold Time at *
      omega
  exact absurd (hwithin.trans_lt hlate) (not_lt.mpr hx)

/-- Until its next renewal a lease is exclusive for its whole duration, and the
granted intervals of different owners never overlap. -/
theorem lease_exclusion (t₀ : Leases) (calls : List AcquireCall) (hord : TimeOrdered calls)
    (hdur : ∀ c ∈ calls, 0 ≤ c.lease.duration) :
    (∀ i j a b, GrantedAt t₀ calls i a → i < j → NoRenewal t₀ calls a.name a.lease.owner i j →
        b.name = a.name → b.lease.owner ≠ a.lease.owner → b.now ≤ a.now + a.lease.duration →
        ¬ GrantedAt t₀ calls j b) ∧
      ∀ name owner owner' x, Holds t₀ calls name owner x → Holds t₀ calls name owner' x →
        owner = owner' := by
  constructor
  · intro i j a b ha hij hno hname howner hnow
    exact ha.excludes hord hij hno hname howner hnow
  · intro name owner owner' x hx hx'
    obtain ⟨i, a, ha, rfl, rfl, hstart, hend, hcut⟩ := hx
    obtain ⟨j, b, hb, hname, rfl, hstart', hend', hcut'⟩ := hx'
    by_contra hne
    obtain hij | rfl | hji := lt_trichotomy i j
    · exact ha.disjoint hord hdur hb hij hname (Ne.symm hne) hstart' hend hcut
    · cases ha.1.symm.trans hb.1
      exact hne rfl
    · rw [← hname] at hcut'
      exact hb.disjoint hord hdur ha hji hname.symm hne hstart hend' hcut'

end

section

/-- Intervals that drop what is below a microsecond. -/
@[reducible]
def wholeMicroseconds : Intervals where
  read d := some (d - d % 1000)
  whole := by
    intro d i h
    cases h
    omega
  near := by
    intro d i h
    cases h
    omega

attribute [local instance] wholeMicroseconds

def firstTaker : AcquireCall := ⟨⟨"replica-1", 10000⟩, "discovery", 0, rfl⟩

def secondTaker : AcquireCall := ⟨⟨"replica-2", 10000⟩, "discovery", 10000, rfl⟩

/-- At the instant the lease ends, its second taker is still refused. -/
theorem lease_exclusion_at_end : ¬ GrantedAt .empty [firstTaker, secondTaker] 1 secondTaker :=
  (lease_exclusion .empty [firstTaker, secondTaker] (by simp [TimeOrdered, firstTaker, secondTaker])
    (by simp [firstTaker, secondTaker])).1 0 1 firstTaker secondTaker
    ⟨rfl, firstTaker.succeeds_empty rfl⟩ (by decide)
    (fun k c hk hk' => by omega) rfl (by decide) (by decide)

end

end Infragraph
