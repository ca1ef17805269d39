import Infragraph.Spec.Ingest

/-! The collector of `cmd/infragraph-collector/main.go`, file operation by file
operation, with the network and the control plane it posts to. -/

namespace Infragraph

open Relational ReadCommitted

/-- `identity.json`; the private key is kept decoded. -/
structure Identity where
  collectorID : String
  connectorID : String
  organizationID : String
  credential : String
  privateKey : List UInt8
  connectorType : String

def int64 (n : ℤ) : ℤ := (n + 2 ^ 63) % 2 ^ 64 - 2 ^ 63

def parseDigits (ds : List Char) : Option ℕ :=
  if ds ≠ [] ∧ ds.all Char.isDigit then some (Nat.ofDigitChars 10 ds 0) else none

/-- `strconv.ParseUint(s, 10, 64)`. Digits worth 2^64 or more end it with the largest
number, whatever follows them; none is a malformed text. -/
def parseUint (ds : List Char) : Option ℕ :=
  if 2 ^ 64 ≤ Nat.ofDigitChars 10 (ds.takeWhile Char.isDigit) 0 then some (2 ^ 64 - 1) else parseDigits ds

def signed (read : List Char → Option ℕ) (s : String) : Option ℤ :=
  match s.toList with
  | '-' :: ds => (read ds).map fun n : ℕ => -(n : ℤ)
  | '+' :: ds => (read ds).map fun n : ℕ => (n : ℤ)
  | ds => (read ds).map fun n : ℕ => (n : ℤ)

/-- What `strconv.ParseInt(s, 10, 64)` returns beside its error: zero for a
malformed text, the nearest int64 for one out of range. -/
def parseInt (s : String) : ℤ :=
  match signed parseUint s with
  | none => 0
  | some n => max (-2 ^ 63) (min n (2 ^ 63 - 1))

def decimal (s : String) : Option ℤ := signed parseDigits s

/-- `strconv.Atoi`, and `strconv.ParseInt(s, 10, 64)` where it returns no error. -/
def atoi (s : String) : Option ℤ := (decimal s).filter fun n => -2 ^ 63 ≤ n ∧ n < 2 ^ 63

/-- `previous` of `nextSequence`; the file may be missing. -/
def previousSequence (file : Option String) : ℤ :=
  match file with
  | some raw => parseInt (trimSpace raw)
  | none => 0

/-- The number `nextSequence` takes, at a clock reading in nanoseconds. -/
def sequenceAfter (file : Option String) (now : ℤ) : ℤ :=
  let previous := previousSequence file
  if now ≤ previous then int64 (previous + 1) else now

/-- How the file operations of `nextSequence` end. -/
inductive SequenceWrite where
  | done
  /-- with what the write left of the pending file -/
  | writeFailed (left : Option String)
  | renameFailed

/-- A file of the spool. Its body is the envelope it decodes to, unless the
process ended while it was being written. -/
structure SpoolFile where
  name : String
  body : Option SnapshotEnvelope
  size : ℕ
  modTime : Time

structure Disk where
  sequence : Option String
  sequencePending : Option String
  spool : Table SpoolFile.name

/-- `nextSequence`, at a clock reading in nanoseconds; nothing is returned on an error. -/
def nextSequence (disk : Disk) (now : ℤ) : SequenceWrite → Option ℤ × Disk
  | .done =>
    (some (sequenceAfter disk.sequence now),
      { disk with sequence := some (toString (sequenceAfter disk.sequence now)), sequencePending := none })
  | .writeFailed left => (none, { disk with sequencePending := left })
  | .renameFailed => (none, { disk with sequencePending := none })

/-- `%020d`. -/
def zeroPadded (n : ℤ) : List Char :=
  if n < 0 then '-' :: Decimal.digits 19 n.natAbs else Decimal.digits 20 n.natAbs

/-- `fmt.Sprintf("%020d-%s.json", snapshot.Sequence, snapshot.SnapshotID)`. -/
def spoolName (s : SnapshotEnvelope) : String :=
  String.ofList (zeroPadded s.sequence ++ '-' :: s.snapshotID.toList ++ ".json".toList)

def pendingName (s : SnapshotEnvelope) : String := spoolName s ++ ".pending"

/-- `strings.HasSuffix(name, ".json")`. -/
def isJson (name : String) : Bool := ".json".toList.isSuffixOf name.toList

/-- The entries `flushSpool` posts: `os.ReadDir` sorts by name. -/
def Disk.listed (disk : Disk) : List String :=
  ((disk.spool.rows.map (·.name)).insertionSort (· ≤ ·)).filter isJson

def Disk.used (disk : Disk) : ℕ := (disk.spool.rows.map (·.size)).sum

/-- `json.Marshal(snapshot)`, as long as it is. -/
def envelopeSize (s : SnapshotEnvelope) : ℕ := (utf8 s.toGo.marshal).length

def spoolFile (name : String) (s : SnapshotEnvelope) (now : Time) : SpoolFile :=
  ⟨name, some s, envelopeSize s, now⟩

/-- `envDuration`, of the variable as `time.ParseDuration` reads it. -/
def envDuration (value : Option ℤ) (fallback : ℤ) : ℤ :=
  match value with
  | none => fallback
  | some value => if value ≤ 0 then fallback else value

/-- `INFRAGRAPH_COLLECTOR_MAX_SPOOL_AGE`, seven days unless it is set. -/
def maxSpoolAge (configured : Option ℤ) : Time := envDuration configured (7 * 24 * hour)

/-- Where the process is; `again` tells the flush after a snapshot is queued from
the one before discovery. A process that stops starts over. -/
inductive Phase where
  | flush (again : Bool)
  | posting (again : Bool) (entries : List String)
  | waiting (again : Bool) (s : SnapshotEnvelope) (name : String) (entries : List String)
  | removing (again : Bool) (s : SnapshotEnvelope) (name : String) (entries : List String)
  | discovering
  | numbering (sequence : ℤ)
  | building (sequence : ℤ)
  | queueing (s : SnapshotEnvelope)

/-- The collector, the requests it has put on the network and the answers to
them, and the control plane. `queued` lists what was ever queued. -/
structure World where
  disk : Disk
  phase : Phase
  queued : List SnapshotEnvelope
  sent : List SnapshotEnvelope
  answers : List (SnapshotEnvelope × ℕ)
  server : State Db Write Lock Reply Accepted SnapshotRequest

def World.init (db : Db) : World :=
  ⟨⟨none, none, .empty⟩, .flush false, [], [], [], State.init db⟩

def SnapshotRequest.isFrom (r : SnapshotRequest) (id : Identity) : Prop :=
  r.authorization = "Bearer " ++ id.credential

inductive Label where
  | collector
  | server (e : Event Reply Accepted SnapshotRequest)

/-- What `discover` returns; either slice may be nil. -/
structure Discovery where
  assets : List Observation
  relationships : List RelationshipObservation
  nilAssets : Bool
  nilRelationships : Bool

def GoMap.made {α : Type} (m : GoMap α) : GoMap α := ⟨m.entries, m.nodup, false, by simp⟩

variable [Hashes] [Signatures]

/-- An observation as `runOnce` completes it. -/
def completed (o : Observation) : Observation :=
  let o := { o with attributes := o.attributes.made, identityHints := o.identityHints.made, status := "OBSERVED" }
  let content := GoValue.map [("externalId", .str o.externalID), ("assetType", .str o.assetType),
    ("attributes", o.attributes.toGo), ("identityHints", o.identityHints.toGo)]
  { o with fingerprint := hexSum (utf8 content.marshal) }

/-- The envelope `runOnce` builds and signs. -/
def newSnapshot (id : Identity) (sequence : ℤ) (startedAt completedAt : Time) (found : Discovery) :
    SnapshotEnvelope :=
  signSnapshot
    { protocolVersion := "1.0", snapshotID := "snapshot-" ++ toString sequence
      organizationID := id.organizationID, collectorID := id.collectorID, connectorID := id.connectorID
      connectorType := id.connectorType, connectorVersion := "1.0.0-rc.1", startedAt := startedAt
      completedAt := completedAt, sequence := sequence, assets := found.assets.map completed
      relationships := found.relationships.map fun r => { r with attributes := r.attributes.made }
      warnings := []
      statistics := ⟨[("assets", found.assets.length), ("relationships", found.relationships.length)],
        by simp, false, by simp⟩
      contentHash := "", signatureAlgorithm := "", signature := ""
      nilAssets := found.nilAssets, nilRelationships := found.nilRelationships }
    id.privateKey

variable (id : Identity) (maxAge : Time) (maxBytes : ℕ)

def sequenceBound : ℤ := 2 ^ 63 - 1

/-- One step. Requests may be lost, delayed or handled more than once, answers
may be lost; the process may stop anywhere, by an error it returns or by a crash,
and then starts over with what is on disk. -/
inductive CollectorStep : World → Label → World → Prop
  | list {w again} : w.phase = .flush again →
      CollectorStep w .collector { w with phase := .posting again w.disk.listed }
  | post {w again name rest f s now} : w.phase = .posting again (name :: rest) →
      w.disk.spool.get name = some f → f.body = some s → now - f.modTime ≤ maxAge →
      CollectorStep w .collector { w with phase := .waiting again s name rest, sent := s :: w.sent }
  | accepted {w again s name rest status} : w.phase = .waiting again s name rest →
      (s, status) ∈ w.answers → 200 ≤ status → status < 300 →
      CollectorStep w .collector { w with phase := .removing again s name rest }
  | remove {w again s name rest} : w.phase = .removing again s name rest →
      CollectorStep w .collector
        { w with phase := .posting again rest, disk := { w.disk with spool := w.disk.spool.erase name } }
  | flushed {w} : w.phase = .posting false [] → CollectorStep w .collector { w with phase := .discovering }
  | flushedAgain {w} : w.phase = .posting true [] → CollectorStep w .collector { w with phase := .flush false }
  | number {w now} : w.phase = .discovering → sequenceAfter w.disk.sequence now < sequenceBound →
      CollectorStep w .collector
        { w with phase := .numbering (sequenceAfter w.disk.sequence now)
                 disk := { w.disk with sequencePending := some (toString (sequenceAfter w.disk.sequence now)) } }
  | numberCut {w text} : w.phase = .discovering →
      CollectorStep w .collector
        { w with phase := .flush false, disk := { w.disk with sequencePending := some text } }
  | renameNumber {w n} : w.phase = .numbering n →
      CollectorStep w .collector
        { w with phase := .building n
                 disk := { w.disk with sequence := w.disk.sequencePending, sequencePending := none } }
  | dropNumber {w n} : w.phase = .numbering n →
      CollectorStep w .collector
        { w with phase := .flush false, disk := { w.disk with sequencePending := none } }
  | write {w n startedAt completedAt found now s} : w.phase = .building n →
      s = newSnapshot id n startedAt completedAt found →
      w.disk.used + envelopeSize s ≤ maxBytes →
      CollectorStep w .collector
        { w with phase := .queueing s
                 disk := { w.disk with spool := w.disk.spool.put (spoolFile (pendingName s) s now) } }
  | writeCut {w n startedAt completedAt found now size s} : w.phase = .building n →
      s = newSnapshot id n startedAt completedAt found →
      CollectorStep w .collector
        { w with phase := .flush false
                 disk := { w.disk with spool := w.disk.spool.put ⟨pendingName s, none, size, now⟩ } }
  | rename {w s now} : w.phase = .queueing s →
      CollectorStep w .collector
        { w with phase := .flush true
                 queued := w.queued ++ [s]
                 disk := { w.disk with
                           spool := (w.disk.spool.erase (pendingName s)).put (spoolFile (spoolName s) s now) } }
  | dropWrite {w s} : w.phase = .queueing s →
      CollectorStep w .collector
        { w with phase := .flush false
                 disk := { w.disk with spool := w.disk.spool.erase (pendingName s) } }
  | stop {w} : CollectorStep w .collector { w with phase := .flush false }
  | handle {w e server'} : Step ingestSystem w.server e server' →
      (∀ t r, e = .begin t r → r.isFrom id → ∃ s ∈ w.sent, r.body = .envelope s) →
      (∀ t r c, e = .begin t r → ¬ r.isFrom id → r.principal w.server.db = some c → c.id ≠ id.collectorID) →
      CollectorStep w (.server e) { w with server := server' }
  | reply {w e server' t x s status} : Step ingestSystem w.server e server' → answer e = some (t, status) →
      w.server.sessions t = some x → x.req.isFrom id → x.req.body = .envelope s →
      CollectorStep w (.server e) { w with server := server', answers := (s, status) :: w.answers }

inductive Delivers (db : Db) : World → Prop
  | init : Delivers db (World.init db)
  | step {w label w'} : Delivers db w → CollectorStep id maxAge maxBytes w label w' → Delivers db w'

end Infragraph
