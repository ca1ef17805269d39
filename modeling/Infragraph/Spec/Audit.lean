import Infragraph.Lib.Sql
import Infragraph.Spec.Database

/-! `internal/audit/audit.go`: events are appended to a hash chain per
organization, and a list of events is verified by hashing it again. -/

namespace Infragraph

open ReadCommitted Prog

/-- `audit.Event`; the nil payload marshals as null. -/
structure AuditEvent where
  id : String
  organizationID : String
  actorID : String
  action : String
  resourceType : String
  resourceID : String
  requestID : String
  payload : GoMap GoValue
  occurredAt : Time
  previousHash : String := ""
  eventHash : String := ""

/-- The map both `Append` and `Verify` marshal. -/
def AuditEvent.content (e : AuditEvent) : GoValue :=
  .map [("id", .str e.id), ("organizationId", .str e.organizationID), ("actorId", .str e.actorID),
    ("action", .str e.action), ("resourceType", .str e.resourceType), ("resourceId", .str e.resourceID),
    ("requestId", .str e.requestID), ("payload", .ofMap e.payload),
    ("occurredAt", .str (String.ofList (rfc3339Nano e.occurredAt)))]

def AuditEvent.canonical (e : AuditEvent) : List Char := e.content.marshal

/-- A NULL column is scanned as the empty string. -/
def orEmpty (column : Option String) : String := column.getD ""

/-- `nullif($,'')`. -/
def nullIf (value : String) : Option String := if value = "" then none else some value

/-- A jsonb payload decoded into a Go map; null gives the nil map. -/
def GoValue.toMap : GoValue → GoMap GoValue
  | .map entries =>
    if h : (entries.map Prod.fst).Nodup then ⟨entries, h, false, by simp⟩ else GoMap.nil
  | _ => GoMap.nil

/-- The row `Append` inserts for an event whose hashes are filled in. -/
def AuditEvent.row (e : AuditEvent) : AuditRow where
  id := e.id
  organizationID := e.organizationID
  actorID := nullIf e.actorID
  action := e.action
  resourceType := nullIf e.resourceType
  resourceID := nullIf e.resourceID
  requestID := e.requestID
  payload := (GoValue.ofMap e.payload).reloaded
  previousHash := e.previousHash
  eventHash := e.eventHash
  occurredAt := timestamptz e.occurredAt

def AuditRow.event (r : AuditRow) : AuditEvent where
  id := r.id
  organizationID := r.organizationID
  actorID := orEmpty r.actorID
  action := r.action
  resourceType := orEmpty r.resourceType
  resourceID := orEmpty r.resourceID
  requestID := r.requestID
  payload := r.payload.toMap
  occurredAt := r.occurredAt
  previousHash := r.previousHash
  eventHash := r.eventHash

/-- `ORDER BY occurred_at DESC,id DESC`. -/
def AuditRow.after (a b : AuditRow) : Bool :=
  b.occurredAt < a.occurredAt ∨ b.occurredAt = a.occurredAt ∧ b.id < a.id

def Db.auditTrail (db : Db) (org : String) : List AuditRow :=
  db.auditEvents.rows.filter (·.organizationID = org)

def AuditRow.upTo (a b : AuditRow) : Prop := a.after b = false

instance : DecidableRel AuditRow.upTo := fun a b => inferInstanceAs (Decidable (a.after b = false))

def Db.auditLog (db : Db) (org : String) : List AuditRow := (db.auditTrail org).insertionSort AuditRow.upTo

def Db.lastAudit (db : Db) (org : String) : Option AuditRow := firstBy AuditRow.after (db.auditTrail org)

/-- `SELECT pg_advisory_xact_lock(hashtextextended($1,0))`. -/
def advisoryLock [Hashes] (name : String) : Sql Unit where
  call := ⟨"SELECT pg_advisory_xact_lock", [name]⟩
  locks _ _ := [.advisory (hashtextextended name)]
  eval _ _ := .ok ((), [])

/-- `... LIMIT 1 FOR UPDATE`: the row is chosen in the snapshot, and the empty
string is scanned when there is none. -/
def selectPreviousHash (org : String) : Sql String where
  call := ⟨"SELECT event_hash FROM audit_events FOR UPDATE", [org]⟩
  locks snap _ := (snap.lastAudit org).toList.map fun r => .entry .auditEvents [r.id]
  eval snap _ := .ok (((snap.lastAudit org).map (·.eventHash)).getD "", [])

def insertAuditEvent (r : AuditRow) : Sql Unit :=
  Stmt.insert ⟨"INSERT INTO audit_events", [r.id]⟩ Write.auditEvent [.entry .auditEvents [r.id]]
    (fun db => if (db.auditEvents.get r.id).isSome then some (.unique .auditEvents) else none) r

variable [Hashes]

/-- `security.AuditHash`. -/
def auditHash (previous : String) (payload : List Char) : String :=
  hexSum (bytes previous ++ 0 :: utf8 payload)

def AuditEvent.linked (e : AuditEvent) (previous : String) : AuditEvent :=
  { e with previousHash := previous, eventHash := auditHash previous e.canonical }

/-- `audit.Append`; `clock` is the time read when no time is given. -/
def append (clock : Time) (e : AuditEvent) : Tx Unit := do
  failIf (e.organizationID = "" ∨ e.action = "") (.errorf "organization and action required" [])
  let e := { e with occurredAt := orNow e.occurredAt clock }
  exec (advisoryLock ("audit|" ++ e.organizationID))
  let previous ← exec (selectPreviousHash e.organizationID)
  exec (insertAuditEvent (e.linked previous).row)

/-- The loop of `Verify`, from a previous hash. -/
def verifyFrom (previous : String) : List AuditEvent → Bool
  | [] => true
  | e :: es =>
    if e.previousHash ≠ previous ∨ e.eventHash ≠ auditHash previous e.canonical then false
    else verifyFrom e.eventHash es

/-- `audit.Verify`. -/
def verify (events : List AuditEvent) : Bool := verifyFrom "" events

end Infragraph
