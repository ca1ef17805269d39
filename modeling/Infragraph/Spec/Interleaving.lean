import Infragraph.Lib.ReadCommitted
import Infragraph.Spec.Audit
import Infragraph.Spec.Reconcile

/-! Transactions that run side by side. Each call of `ApplyPostgres` is the body
of a transaction that first takes the lock of its connector, as the ingest
handler does; each call of `Append` is a transaction of its own. -/

namespace Infragraph

open ReadCommitted Prog

variable [Hashes]

def reconcileLocked (c : ApplyCall) : Tx Summary := do
  exec (advisoryLock (c.snapshot.organizationID ++ "|" ++ c.snapshot.connectorID))
  applyPostgres c.order c.clock c.snapshot c.missingThreshold

def reconcileSystem : System Db Write Lock Error Summary ApplyCall where
  code := reconcileLocked

/-- Between the `SELECT` of the conflict flag of an asset and the `UPDATE` that
writes it, no commit changes the claims on the asset. -/
def claimsKept : Schedule Db := fun call reads _ cur =>
  ∀ org asset d, call = ⟨effectiveSql, [asset, org]⟩ → reads.getLast? = some (conflictCall org asset, d) →
    ∀ c : ClaimRow, c.assetID = asset → (c ∈ cur.claims ↔ c ∈ d.claims)

/-- The same transactions, scheduled so that every flag is still right when it
is written. -/
def keptSystem : System Db Write Lock Error Summary ApplyCall where
  code := reconcileLocked
  schedule _ := claimsKept

/-- An event to append; `clock` is the time `Append` reads when it starts. -/
structure AppendCall where
  clock : Time
  event : AuditEvent

def AppendCall.stamped (c : AppendCall) : AuditEvent :=
  { c.event with occurredAt := orNow c.event.occurredAt c.clock }

/-- Events that bring no time of their own; the clock moves on from one call to
the next. -/
def appendSystem : System Db Write Lock Error Unit AppendCall where
  code c := append c.clock c.event
  admits begun c := c.event.occurredAt = 0 ∧ ∀ c' ∈ begun, c'.clock < c.clock

/-- Where the predecessor is looked up, every event of the organization is
before the one to append. -/
def stampedLast (c : AppendCall) : Schedule Db := fun call _ snap _ =>
  call = (selectPreviousHash c.event.organizationID).call →
    ∀ r ∈ snap.auditTrail c.event.organizationID, c.stamped.row.after r

/-- The same transactions, where the lock is granted in the order of the times. -/
def orderedSystem : System Db Write Lock Error Unit AppendCall :=
  { appendSystem with schedule := stampedLast }

end Infragraph
