import Infragraph.Lib.Path
import Infragraph.Spec.Config

/-! The object storage in a local directory: `Local.file` turns a key into a path, and
`Put`, `Get` and `Delete` work on that path. What they do to the file system is
returned beside their result. -/

namespace Infragraph

structure Object where
  key : String
  contentHash : String
  size : ℤ
  mediaType : String
deriving DecidableEq

/-- `NewLocal` keeps the cleaned absolute path of its directory. -/
structure Local where
  root : Path.Text
  absolute : Path.isAbs root = true
  cleaned : Path.clean root = root

def Local.file (l : Local) (key : String) : Except String Path.Text :=
  if key = "" || contains key ".." || Path.isAbs key.toList then .error "invalid object key"
  else
    let p := Path.join [l.root, key.toList]
    match Path.rel l.root p with
    | none => .error "object key escapes storage root"
    | some rel => if ['.', '.'].isPrefixOf rel then .error "object key escapes storage root" else .ok p

inductive FileOp where
  | mkdirAll (path : Path.Text)
  /-- `O_CREATE|O_EXCL|O_WRONLY` -/
  | create (path : Path.Text)
  | rename (source target : Path.Text)
  | remove (path : Path.Text)
  | openRead (path : Path.Text)
deriving DecidableEq

structure PutErrors where
  mkdirAll : Option String
  create : Option String
  copy : Option String
  close : Option String
  rename : Option String

/-- `Put` of an object whose reader has `content` left. -/
def Local.put [Hashes] (l : Local) (key : String) (content : List UInt8) (size : ℤ) (media : String)
    (errors : PutErrors) : Except String Object × List FileOp :=
  match l.file key with
  | .error e => (.error e, [])
  | .ok p =>
    match errors.mkdirAll with
    | some e => (.error e, [.mkdirAll (Path.dir p)])
    | none =>
      let tmp := p ++ ".pending".toList
      match errors.create with
      | some e => (.error e, [.mkdirAll (Path.dir p), .create tmp])
      | none =>
        let copied := content.take (int64 (size + 1)).toNat
        let mismatch := if (copied.length : ℤ) = size then none
          else some ("object size mismatch: expected " ++ toString size ++ " got " ++ toString copied.length)
        match errors.copy <|> errors.close <|> mismatch with
        | some e => (.error e, [.mkdirAll (Path.dir p), .create tmp, .remove tmp])
        | none =>
          match errors.rename with
          | some e => (.error e, [.mkdirAll (Path.dir p), .create tmp, .rename tmp p, .remove tmp])
          | none => (.ok ⟨key, hexSum copied, copied.length, media⟩,
              [.mkdirAll (Path.dir p), .create tmp, .rename tmp p])

def Local.get (l : Local) (key : String) (error : Option String) : Except String Path.Text × List FileOp :=
  match l.file key with
  | .error e => (.error e, [])
  | .ok p => (match error with
    | some e => .error e
    | none => .ok p, [.openRead p])

/-- How `os.Remove` can fail. -/
inductive RemoveError where
  | notExist
  | other (text : String)

def Local.delete (l : Local) (key : String) (error : Option RemoveError) : Except String Unit × List FileOp :=
  match l.file key with
  | .error e => (.error e, [])
  | .ok p => (match error with
    | some (.other e) => .error e
    | _ => .ok (), [.remove p])

/-- The places in the tree that an operation creates, opens, renames or removes, where
these directories exist. `MkdirAll` creates the ones on its way that do not. -/
def FileOp.places (dirs : List Path.Text → Bool) : FileOp → List (List Path.Text)
  | mkdirAll p => (Path.resolve p).inits.filter fun d => !dirs d
  | create p | remove p | openRead p => [Path.resolve p]
  | rename p q => [Path.resolve p, Path.resolve q]

/-- The operation stays below the root, or fails before it touches anything. -/
def Local.Stays {α : Type} (l : Local) (dirs : List Path.Text → Bool) (out : Except String α × List FileOp) : Prop :=
  (∃ e, out = (.error e, [])) ∨
    ∀ op ∈ out.2, ∀ place ∈ op.places dirs, Path.Below (Path.resolve l.root) place

/-- So do all operations on a key, while the root and the directories above it exist. -/
def Local.Confines [Hashes] (l : Local) (key : String) : Prop :=
  ∀ dirs : List Path.Text → Bool, (∀ d ∈ (Path.resolve l.root).inits, dirs d = true) →
    (∀ content size media errors, l.Stays dirs (l.put key content size media errors)) ∧
    (∀ error, l.Stays dirs (l.get key error)) ∧ ∀ error, l.Stays dirs (l.delete key error)

end Infragraph
