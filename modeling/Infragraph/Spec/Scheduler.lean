import Infragraph.Lib.Sql
import Infragraph.Spec.Domain

/-! The leases of `internal/scheduler/scheduler.go`. A lease is one row of
`scheduler_leases`; `Acquire` takes or renews it by a single upsert, evaluated at
the database's `now()`. -/

namespace Infragraph

open Relational ReadCommitted Prog

/-- A row of `scheduler_leases`. -/
structure LeaseRow where
  name : String
  ownerID : String
  leasedUntil : Time

abbrev Leases := Table LeaseRow.name

instance : Store Leases LeaseRow := ⟨Table.put⟩

/-- How PostgreSQL reads the text of a Go duration as an interval: it may refuse
the text, and it rounds to microseconds. -/
class Intervals where
  read : ℤ → Option ℤ
  whole : ∀ {d i}, read d = some i → i % 1000 = 0
  near : ∀ {d i}, read d = some i → d < i + 1000

inductive AcquireError where
  | invalidInterval
  | noRows
deriving DecidableEq

/-- `Lease`; the duration is in nanoseconds. -/
structure Lease where
  owner : String
  duration : ℤ

def upsertLease (now : Time) (r : LeaseRow) : Stmt Leases LeaseRow String AcquireError (Option Bool) :=
  .upsertWhere ⟨"INSERT INTO scheduler_leases", [r.name, r.ownerID]⟩ id [r.name] (fun t => t.get r.name)
    (fun old => old.leasedUntil < now ∨ old.ownerID = r.ownerID) r
    (fun old => { old with ownerID := r.ownerID, leasedUntil := r.leasedUntil }) fun _ => true

/-- `Lease.Acquire`: true, or an error when the upsert returns no row. -/
def Lease.acquire [Intervals] (l : Lease) (name : String) (now : Time) :
    Prog Leases LeaseRow String AcquireError Bool :=
  match Intervals.read l.duration with
  | none => throw .invalidInterval
  | some interval => do
    match ← exec (upsertLease now { name := name, ownerID := l.owner, leasedUntil := now + interval }) with
    | some ok => return ok
    | none => throw .noRows

/-- One call; `now()` is a whole number of microseconds. -/
structure AcquireCall where
  lease : Lease
  name : String
  now : Time
  now_whole : now % 1000 = 0

variable [Intervals]

def AcquireCall.run (c : AcquireCall) (t : Leases) : Except AcquireError (Bool × Leases) :=
  (c.lease.acquire c.name c.now).run t

def AcquireCall.Succeeds (c : AcquireCall) (t : Leases) : Prop := ∃ t', c.run t = .ok (true, t')

/-- The leases after the call; a call that returns an error is rolled back. -/
def AcquireCall.after (c : AcquireCall) (t : Leases) : Leases :=
  match c.run t with
  | .ok (_, t') => t'
  | .error _ => t

def leasesAfter (t : Leases) (calls : List AcquireCall) : Leases := calls.foldl (fun t c => c.after t) t

/-- The call at position `i` is `c`, and it succeeds. -/
def GrantedAt (t₀ : Leases) (calls : List AcquireCall) (i : ℕ) (c : AcquireCall) : Prop :=
  calls[i]? = some c ∧ c.Succeeds (leasesAfter t₀ (calls.take i))

/-- No call of the owner on the name succeeds between the positions. -/
def NoRenewal (t₀ : Leases) (calls : List AcquireCall) (name owner : String) (i j : ℕ) : Prop :=
  ∀ k c, i < k → k < j → GrantedAt t₀ calls k c → c.name = name → c.lease.owner ≠ owner

/-- The owner was granted the instant `x`: by a call whose interval contains it
and that the owner did not renew before `x`. -/
def Holds (t₀ : Leases) (calls : List AcquireCall) (name owner : String) (x : Time) : Prop :=
  ∃ i c, GrantedAt t₀ calls i c ∧ c.name = name ∧ c.lease.owner = owner ∧
    c.now ≤ x ∧ x ≤ c.now + c.lease.duration ∧
    ∀ k c', i < k → GrantedAt t₀ calls k c' → c'.name = name → c'.lease.owner = owner → x ≤ c'.now

/-- On each name `now()` does not decrease in execution order. -/
def TimeOrdered (calls : List AcquireCall) : Prop :=
  calls.Pairwise fun a b => a.name = b.name → a.now ≤ b.now

end Infragraph
