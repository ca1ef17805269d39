import Infragraph.Spec.Ingest

/-! The users of the control plane: `login`, `verifySecondFactor`, `session` and the logout
of `internal/app/app.go`. Their statements commit one by one, so a handler is a function of
the databases that its statements find; none is a statement that failed. -/

namespace Infragraph

open Relational

structure UserRow where
  (id organizationID email passwordHash : String)
  (active mfaRequired : Bool)

structure SessionRow where
  (idHash userID organizationID csrfHash : String)
  expiresAt : Time
  revokedAt : Option Time

structure RecoveryCode where
  (userID codeHash : String)
  usedAt : Option Time

/-- `UNIQUE(user_id,code_hash)`. -/
def RecoveryCode.key (c : RecoveryCode) : String × String := (c.userID, c.codeHash)

structure MfaSecret where
  (userID ciphertext nonce : String)
  keyVersion : ℤ
  enabledAt : Option Time

/-- The tables and the database's `now()`; `grants` joins the roles of users with the names
of their permissions. -/
structure Accounts where
  now : Time
  users : Table UserRow.id
  sessions : Table SessionRow.idHash
  recoveryCodes : Table RecoveryCode.key
  mfaSecrets : Table MfaSecret.userID
  grants : List (String × String)

/-- What the handlers compute with the keys of the configuration. -/
class Credentials where
  /-- `KeyedTokenHash` with the session secret -/
  keyedTokenHash : String → String
  verifyPassword : String → String → Bool
  /-- `Decrypt` with the master key and `VerifyTOTP`; none is a panic -/
  verifyTOTP : MfaSecret → String → Time → Option Bool
  /-- PostgreSQL's `lower` -/
  lower : String → String

export Credentials (keyedTokenHash verifyPassword verifyTOTP)

/-- Whether the code was there and unused. -/
def useRecoveryCode (key : String × String) (d : Accounts) : Bool × Accounts :=
  match (d.recoveryCodes.get key).filter (·.usedAt = none) with
  | some c => (true, { d with recoveryCodes := d.recoveryCodes.put { c with usedAt := some d.now } })
  | none => (false, d)

def insertSession (row : SessionRow) (d : Accounts) : Bool × Accounts :=
  if (d.sessions.get row.idHash).isSome then (false, d) else (true, { d with sessions := d.sessions.put row })

def revokeSession (hash org : String) (d : Accounts) : Accounts :=
  match (d.sessions.get hash).filter (·.organizationID = org) with
  | some r => { d with sessions := d.sessions.put { r with revokedAt := some d.now } }
  | none => d

def liveSession (hash : String) (d : Accounts) : Option SessionRow :=
  (d.sessions.get hash).filter fun s =>
    s.revokedAt = none ∧ d.now < s.expiresAt ∧ (d.users.get s.userID).any (·.active)

def enabledSecret (user : String) (d : Accounts) : Option MfaSecret :=
  (d.mfaSecrets.get user).filter (·.enabledAt.isSome)

def permissionsOf (user : String) (d : Accounts) : List String := (d.grants.filter (·.1 = user)).map (·.2)

structure LoginInput where
  (email password totp recoveryCode : String)

/-- A login and what it reads elsewhere: the rate limiter, the body as decoded, which of
several rows comes first, the clocks and the tokens. -/
structure LoginRequest where
  allowed : Bool
  input : Except Reply LoginInput
  pick : ℕ
  (verifiedAt now : Time)
  (token csrf : String)

/-- A request below `/api/v1/`, and how many rows of its permissions are read before an
error ends the loop. -/
structure ApiRequest where
  method : String
  cookie : Option String
  csrf : String
  rowsRead : ℕ

structure Principal where
  (userID organizationID : String)
  permissions : List String

inductive UserAnswer where
  | refused (reply : Reply)
  | panicked
  | loggedIn (userID : String) (expires : Time) (token csrf : String)

variable [Hashes] [Credentials]

def selectUser (email : String) (pick : ℕ) (d : Accounts) : Option UserRow :=
  let found := d.users.rows.filter fun u => Credentials.lower u.email = Credentials.lower email
  found[pick % found.length]?

/-- None is a panic. -/
def verifySecondFactor (user : String) (i : LoginInput) (now : Time) (d₁ d₂ : Option Accounts) : Option Bool :=
  if i.recoveryCode ≠ "" ∧ d₁.any fun d => (useRecoveryCode (user, tokenHash i.recoveryCode) d).1 then some true
  else match d₂.bind (enabledSecret user) with
    | some row => verifyTOTP row i.totp now
    | none => some false

/-- `login` up to the `INSERT`. -/
def LoginRequest.check (l : LoginRequest) (d₁ d₂ d₃ : Option Accounts) : Except UserAnswer UserRow :=
  if !l.allowed then .error (.refused ⟨429, "rate_limited", "too many authentication attempts"⟩)
  else match l.input with
    | .error reply => .error (.refused reply)
    | .ok i =>
      match (d₁.bind (selectUser i.email l.pick)).filter fun u =>
        u.active && verifyPassword u.passwordHash i.password with
      | none => .error (.refused ⟨401, "invalid_credentials", "invalid credentials"⟩)
      | some u =>
        if !u.mfaRequired then .ok u
        else match verifySecondFactor u.id i l.verifiedAt d₂ d₃ with
          | none => .error .panicked
          | some false => .error (.refused ⟨401, "mfa_required", "a valid second factor is required"⟩)
          | some true => .ok u

def LoginRequest.expires (l : LoginRequest) : Time := l.now + 12 * 3600 * 10 ^ 9

def LoginRequest.session (l : LoginRequest) (u : UserRow) : SessionRow where
  idHash := keyedTokenHash l.token
  userID := u.id
  organizationID := u.organizationID
  csrfHash := keyedTokenHash l.csrf
  expiresAt := timestamptz l.expires
  revokedAt := none

def login (l : LoginRequest) (d₁ d₂ d₃ d₄ : Option Accounts) : UserAnswer :=
  match l.check d₁ d₂ d₃ with
  | .error a => a
  | .ok u =>
    if d₄.any fun d => (insertSession (l.session u) d).1 then .loggedIn u.id l.expires l.token l.csrf
    else .refused ⟨500, "internal_error", "could not create session"⟩

/-- What `session` passes on to `api`. -/
def session (q : ApiRequest) (d₁ d₂ : Option Accounts) : Except Reply Principal :=
  match q.cookie with
  | none => .error ⟨401, "unauthenticated", "authentication required"⟩
  | some cookie =>
    match d₁.bind (liveSession (keyedTokenHash cookie)) with
    | none => .error ⟨401, "unauthenticated", "session invalid or expired"⟩
    | some row =>
      if q.method ∉ ["GET", "HEAD", "OPTIONS"] ∧ keyedTokenHash q.csrf ≠ row.csrfHash then
        .error ⟨403, "csrf_invalid", "CSRF token is missing or invalid"⟩
      else .ok ⟨row.userID, row.organizationID, ((d₂.map (permissionsOf row.userID)).getD []).take q.rowsRead⟩

/-- `POST auth/logout` of `api`. -/
def logout (q : ApiRequest) (p : Principal) : Accounts → Accounts :=
  revokeSession (keyedTokenHash (q.cookie.getD "")) p.organizationID

end Infragraph
