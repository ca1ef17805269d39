import Infragraph.Lib.Locked

/-! `DB.Migrate`: the scripts of the embedded directory are run in the order of
their names, each in a transaction of its own that also records its version. A
session advisory lock keeps other processes out. -/

namespace Infragraph.Migrate

open ReadCommitted SessionLock

/-- A file of the directory `migrations`. Running the script changes the schema, or fails. -/
structure File (σ : Type) where
  name : String
  sql : σ → Option σ

/-- `schema_migrations`, once created, in the order of the inserts, and everything
that the scripts define. -/
structure Catalog (σ : Type) where
  versions : Option (List String)
  schema : σ
deriving DecidableEq

def Catalog.recorded {σ : Type} (d : Catalog σ) : List String := d.versions.getD []

inductive Write (σ : Type) where
  | table
  | version (v : String)
  | schema (s : σ)

instance {σ : Type} : Store (Catalog σ) (Write σ) where
  write
    | d, .table => { d with versions := some d.recorded }
    | d, .version v => { d with versions := some (d.recorded ++ [v]) }
    | d, .schema s => { d with schema := s }

inductive SqlError where
  | undefinedTable
  | uniqueViolation
  | script
  | canceled
deriving DecidableEq

inductive Error where
  | command (e : SqlError)
  /-- `migration %s: %w` -/
  | migration (name : String) (e : SqlError)
deriving DecidableEq

variable {σ : Type}

/-- `CREATE TABLE IF NOT EXISTS schema_migrations` -/
def createTable : Command (Catalog σ) (Write σ) SqlError Unit := .query fun _ => .ok ((), [.table])

def existsVersion (v : String) : Command (Catalog σ) (Write σ) SqlError Bool :=
  .query fun d => match d.versions with
    | none => .error .undefinedTable
    | some versions => .ok (decide (v ∈ versions), [])

def runScript (f : File σ) : Command (Catalog σ) (Write σ) SqlError Unit :=
  .query fun d => match f.sql d.schema with
    | none => .error .script
    | some s => .ok ((), [.schema s])

def insertVersion (v : String) : Command (Catalog σ) (Write σ) SqlError Unit :=
  .query fun d => match d.versions with
    | none => .error .undefinedTable
    | some versions => if v ∈ versions then .error .uniqueViolation else .ok ((), [.version v])

/-- `strings.Split(name, "_")[0]` -/
def version (name : String) : String := String.ofList (name.toList.takeWhile (· ≠ '_'))

/-- The files whose name ends in `.up.sql`, sorted by name. -/
def names (files : List (File σ)) : List (File σ) :=
  (files.filter fun f => ".up.sql".toList.isSuffixOf f.name.toList).insertionSort fun a b => a.name ≤ b.name

/-- The script and the record of its version, up to the first that fails. -/
def scriptAndRecord (f : File σ) : Client (Catalog σ) (Write σ) SqlError (Except SqlError Unit) := do
  match ← Client.send (runScript f) with
  | .error e => return .error e
  | .ok _ => Client.send (insertVersion (version f.name))

/-- One migration in its own transaction, from `Begin` to `Commit` or `Rollback`. -/
def transact (f : File σ) : Client (Catalog σ) (Write σ) SqlError (Except Error Unit) := do
  match ← Client.send .begin with
  | .error e => return .error (.command e)
  | .ok _ =>
    match ← scriptAndRecord f with
    | .error e =>
      let _ ← Client.send .rollback
      return .error (.migration f.name e)
    | .ok _ =>
      match ← Client.send .commit with
      | .error e => return .error (.command e)
      | .ok _ => return .ok ()

/-- The loop over the names. -/
def apply : List (File σ) → Client (Catalog σ) (Write σ) SqlError (Except Error Unit)
  | [] => return .ok ()
  | f :: rest => do
    match ← Client.send (existsVersion (version f.name)) with
    | .error e => return .error (.command e)
    | .ok true => apply rest
    | .ok false =>
      match ← transact f with
      | .error e => return .error e
      | .ok _ => apply rest

def locked (files : List (File σ)) : Client (Catalog σ) (Write σ) SqlError (Except Error Unit) := do
  match ← Client.send createTable with
  | .error e => return .error (.command e)
  | .ok _ => apply (names files)

/-- `Migrate`, from the connection that the pool gave to its release. The deferred
unlock runs whatever the result, and its own result is ignored. -/
def migrate (files : List (File σ)) : Client (Catalog σ) (Write σ) SqlError (Except Error Unit) := do
  match ← Client.send .lock with
  | .error e => return .error (.command e)
  | .ok _ =>
    let result ← locked files
    let _ ← Client.send .unlock
    return result

def fresh (schema : σ) : Catalog σ := ⟨none, schema⟩

end Infragraph.Migrate
