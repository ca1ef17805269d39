import Infragraph.Spec.Login

/-! Whoever `session` lets through has logged in, however the statements of logins, requests
and logouts interleave and whatever else others do to the tables than open sessions; and a
recovery code lets nobody in twice, if nobody makes a used one usable again. -/

namespace Infragraph

open Relational

def Accounts.Spent (d : Accounts) (key : String × String) : Prop :=
  ∃ c ∈ d.recoveryCodes, c.key = key ∧ c.usedAt ≠ none

def Accounts.Unusable (d : Accounts) (key : String × String) : Prop :=
  ∀ c ∈ d.recoveryCodes, c.key = key → c.usedAt ≠ none

/-- What others may do: revoke, delete and change what they like, but open no session and
make no code usable that was used. -/
structure Accounts.Moves (d : Accounts) (past : List Accounts) (x : Accounts) : Prop where
  opens : ∀ r ∈ x.sessions, r.revokedAt = none → r ∈ d.sessions
  reuses : ∀ c ∈ x.recoveryCodes, c.usedAt = none → ∀ y ∈ d :: past, ¬ y.Spent c.key

section

variable {d d' db : Accounts} {past : List Accounts} {d₂ : Option Accounts} {key : String × String}

theorem Accounts.Spent.unusable (h : d.Spent key) : d.Unusable key := by
  obtain ⟨c, hc, rfl, hused⟩ := h
  intro c' hc' hkey
  rwa [d.recoveryCodes.eq_of_key hc' hc hkey]

theorem Accounts.Unusable.refused (h : d.Unusable key) : (useRecoveryCode key d).1 = false := by
  unfold useRecoveryCode
  split
  · rename_i c hc
    obtain ⟨hget, hfree⟩ := Option.filter_eq_some_iff.mp hc
    exact absurd (of_decide_eq_true hfree) (h c (Table.mem_of_get hget) (Table.key_of_get hget))
  · rfl

theorem useRecoveryCode_spends (h : (useRecoveryCode key d).1 = true) : (useRecoveryCode key d).2.Spent key := by
  unfold useRecoveryCode at *
  split at h
  · rename_i c hc
    have hkey : c.key = key := Table.key_of_get (Option.filter_eq_some_iff.mp hc).1
    exact ⟨_, Table.mem_put.mpr (.inl rfl), hkey, by simp⟩
  · cases h

/-- Using a code makes none usable, and opens no session. -/
theorem useRecoveryCode_unusable (key : String × String) (d : Accounts) :
    (useRecoveryCode key d).2.sessions = d.sessions ∧ ∀ k, d.Unusable k → (useRecoveryCode key d).2.Unusable k := by
  unfold useRecoveryCode
  split
  · refine ⟨rfl, fun k hk c hc hkey => ?_⟩
    rcases Table.mem_put.mp hc with rfl | ⟨hc, -⟩
    · simp
    · exact hk c hc hkey
  · exact ⟨rfl, fun _ => id⟩

theorem revokeSession_sessions (hash org : String) (d : Accounts) :
    (revokeSession hash org d).recoveryCodes = d.recoveryCodes ∧
      ∀ r ∈ (revokeSession hash org d).sessions, r.revokedAt = none → r ∈ d.sessions := by
  unfold revokeSession
  split
  · refine ⟨rfl, fun r hr hlive => ?_⟩
    rcases Table.mem_put.mp hr with rfl | ⟨hr, -⟩
    · cases hlive
    · exact hr
  · exact ⟨rfl, fun _ hr _ => hr⟩

theorem insertSession_sessions (row : SessionRow) (d : Accounts) :
    (insertSession row d).2.recoveryCodes = d.recoveryCodes ∧
      ∀ r ∈ (insertSession row d).2.sessions, r = row ∧ (insertSession row d).1 = true ∨ r ∈ d.sessions := by
  unfold insertSession
  split_ifs with htaken
  · exact ⟨rfl, fun r hr => .inr hr⟩
  · refine ⟨rfl, fun r hr => ?_⟩
    rcases Table.mem_put.mp hr with rfl | ⟨hr, -⟩
    · exact .inl ⟨rfl, rfl⟩
    · exact .inr hr

variable [Hashes] [Credentials]

/-- The databases so far, the latest first. The statements are those of logins, the session
being inserted after the checks on earlier databases, of logouts, and of others. -/
inductive UserRun (db : Accounts) : List Accounts → Prop
  | start : UserRun db [db]
  | used {k x h} : UserRun db (x :: h) → UserRun db ((useRecoveryCode k x).2 :: x :: h)
  | opened {l u x h e₁ e₂ e₃} : UserRun db (x :: h) → (∀ e ∈ [e₁, e₂, e₃], ∀ y ∈ e, y ∈ x :: h) →
      LoginRequest.check l e₁ e₂ e₃ = .ok u → UserRun db ((insertSession (l.session u) x).2 :: x :: h)
  | revoked {q p x h} : UserRun db (x :: h) → UserRun db (logout q p x :: x :: h)
  | moved {x y h} : UserRun db (x :: h) → x.Moves h y → UserRun db (y :: x :: h)

/-- A login that passed its checks on databases among these opened the session, which stood
in every database since. -/
def SessionRow.OpenedIn (r : SessionRow) (past : List Accounts) : Prop :=
  ∃ l u d₁ d₂ d₃ since y before, past = since ++ y :: before ∧ (∀ x ∈ [d₁, d₂, d₃], ∀ z ∈ x, z ∈ y :: before) ∧
    LoginRequest.check l d₁ d₂ d₃ = .ok u ∧ login l d₁ d₂ d₃ (some y) = .loggedIn u.id l.expires l.token l.csrf ∧
    r = l.session u ∧ ∀ z ∈ since, r ∈ z.sessions

theorem SessionRow.OpenedIn.cons {r : SessionRow} (h : r.OpenedIn past) (hr : r ∈ d.sessions) :
    r.OpenedIn (d :: past) := by
  obtain ⟨l, u, d₁, d₂, d₃, since, y, before, rfl, hrest⟩ := h
  exact ⟨l, u, d₁, d₂, d₃, d :: since, y, before, rfl, hrest.1, hrest.2.1, hrest.2.2.1, hrest.2.2.2.1,
    List.forall_mem_cons.mpr ⟨hr, hrest.2.2.2.2⟩⟩

structure Accounts.Lawful (db d : Accounts) (past : List Accounts) : Prop where
  spent : ∀ y ∈ past, ∀ key, y.Spent key → d.Unusable key
  opened : ∀ r ∈ d.sessions, r.revokedAt = none → r ∈ db.sessions ∨ r.OpenedIn past

theorem Accounts.Lawful.next (h : db.Lawful d past) (hcodes : ∀ y ∈ d :: past, ∀ key, y.Spent key → d'.Unusable key)
    (hsessions : ∀ r ∈ d'.sessions, r.revokedAt = none → r ∈ d.sessions) : db.Lawful d' (d :: past) := by
  refine ⟨hcodes, fun r hr hlive => ?_⟩
  have hold := hsessions r hr hlive
  exact (h.opened r hold hlive).imp_right fun hopened => hopened.cons hold

theorem Accounts.Lawful.spent_cons (h : db.Lawful d past) : ∀ y ∈ d :: past, ∀ key, y.Spent key → d.Unusable key :=
  List.forall_mem_cons.mpr ⟨fun _ hspent => hspent.unusable, h.spent⟩

theorem Accounts.Lawful.insert (h : db.Lawful d past) {l : LoginRequest} {u : UserRow} {d₁ d₃ : Option Accounts}
    (hpast : ∀ x ∈ [d₁, d₂, d₃], ∀ y ∈ x, y ∈ d :: past) (hcheck : l.check d₁ d₂ d₃ = .ok u) :
    db.Lawful (insertSession (l.session u) d).2 (d :: past) := by
  obtain ⟨hcodes, hrows⟩ := insertSession_sessions (l.session u) d
  refine ⟨fun y hy key hspent => ?_, fun r hr hlive => ?_⟩
  · unfold Accounts.Unusable
    rw [hcodes]
    exact h.spent_cons y hy key hspent
  · rcases hrows r hr with ⟨rfl, hfree⟩ | hr
    · have hlogin : login l d₁ d₂ d₃ (some d) = .loggedIn u.id l.expires l.token l.csrf := by
        simp [login, hcheck, hfree]
      exact .inr ⟨l, u, d₁, d₂, d₃, [], d, past, rfl, hpast, hcheck, hlogin, rfl, by simp⟩
    · exact (h.opened r hr hlive).imp_right fun hopened => hopened.cons hr

theorem UserRun.lawful (hr : UserRun db (d :: past)) : db.Lawful d past := by
  generalize hh : d :: past = h at hr
  induction hr generalizing d past with
  | start =>
    cases hh
    exact ⟨by simp, fun r hr _ => .inl hr⟩
  | @used key d' past' _ ih =>
    cases hh
    obtain ⟨hsessions, hcodes⟩ := useRecoveryCode_unusable key d'
    exact (ih rfl).next (fun y hy k hspent => hcodes k ((ih rfl).spent_cons y hy k hspent)) fun r hr _ => hsessions ▸ hr
  | opened _ hpast hcheck ih =>
    cases hh
    exact (ih rfl).insert hpast hcheck
  | @revoked q p d' past' _ ih =>
    cases hh
    obtain ⟨hcodes, hsessions⟩ := revokeSession_sessions (keyedTokenHash (q.cookie.getD "")) p.organizationID d'
    refine (ih rfl).next (fun y hy key hspent => ?_) hsessions
    unfold Accounts.Unusable logout
    rw [hcodes]
    exact (ih rfl).spent_cons y hy key hspent
  | moved _ hm ih =>
    cases hh
    exact (ih rfl).next (fun y hy key hspent c hc hkey hfree => hm.reuses c hc hfree y hy (hkey ▸ hspent)) hm.opens

/-- A request that `session` lets through comes with the cookie of a live session, which a
login opened and which stood ever since, and with its CSRF token unless it only reads; it
has permissions of that session's user only. -/
theorem served_after_login (hempty : db.sessions = .empty) (hr : UserRun db (d :: past)) {q : ApiRequest} {p : Principal}
    (hserved : session q (some d) d₂ = .ok p) :
    ∃ cookie row, q.cookie = some cookie ∧ liveSession (keyedTokenHash cookie) d = some row ∧ row.OpenedIn past ∧
      (q.method ∈ ["GET", "HEAD", "OPTIONS"] ∨ keyedTokenHash q.csrf = row.csrfHash) ∧
      p.userID = row.userID ∧ p.organizationID = row.organizationID ∧
      ∀ name ∈ p.permissions, ∃ y ∈ d₂, (p.userID, name) ∈ y.grants := by
  unfold session at hserved
  split at hserved
  · cases hserved
  rename_i cookie hcookie
  split at hserved
  · cases hserved
  rename_i row hrow
  split_ifs at hserved with hcsrf
  cases hserved
  obtain ⟨hget, hlive⟩ := Option.filter_eq_some_iff.mp hrow
  have hlive := of_decide_eq_true hlive
  refine ⟨cookie, row, hcookie, hrow, ?_, by tauto, rfl, rfl, fun name hname => ?_⟩
  · rcases hr.lawful.opened row (Table.mem_of_get hget) hlive.1 with hold | hopened
    · rw [hempty] at hold
      exact absurd hold (Table.not_mem_empty row)
    · exact hopened
  · have hname := List.mem_of_mem_take hname
    cases d₂ with
    | none => simp at hname
    | some y =>
      obtain ⟨⟨user, _⟩, hgrant, rfl⟩ := List.mem_map.mp hname
      obtain ⟨hgrant, huser⟩ := List.mem_filter.mp hgrant
      exact ⟨y, rfl, of_decide_eq_true huser ▸ hgrant⟩

/-- Once a recovery code was used, a login that gives it is a login that gives none. -/
theorem recoveryCode_once {user : String} {i : LoginInput} {now : Time} (hr : UserRun db (d' :: past))
    (hused : (useRecoveryCode (user, tokenHash i.recoveryCode) d).1 = true)
    (hd : (useRecoveryCode (user, tokenHash i.recoveryCode) d).2 ∈ past) :
    verifySecondFactor user i now (some d') d₂ = verifySecondFactor user { i with recoveryCode := "" } now none d₂ := by
  have hunusable := hr.lawful.spent _ hd _ (useRecoveryCode_spends hused)
  simp [verifySecondFactor, hunusable.refused]

end

abbrev textHashes : Hashes := ⟨id, fun s => s.length⟩

abbrev plainCredentials : Credentials := ⟨id, fun hash password => hash = password, fun _ _ _ => some false, id⟩

section

attribute [local instance] textHashes plainCredentials

def oneUser : Accounts where
  now := 0
  users := Table.empty.put ⟨"user", "org", "mail", "password", true, true⟩
  sessions := .empty
  recoveryCodes := Table.empty.put ⟨"user", tokenHash "code", none⟩
  mfaSecrets := .empty
  grants := [("user", "assets.read")]

def codeUsed : Accounts := (useRecoveryCode ("user", tokenHash "code") oneUser).2

def codeLogin : LoginRequest := ⟨true, .ok ⟨"mail", "password", "", "code"⟩, 0, 0, 0, "token", "csrf"⟩

theorem run_codeUsed : UserRun oneUser [codeUsed, oneUser] := .used .start

theorem served_oneUser : ∃ row : SessionRow, row.idHash = "token" ∧ row.OpenedIn [codeUsed, oneUser] := by
  have hcheck : codeLogin.check (some oneUser) (some oneUser) none = .ok _ := rfl
  obtain ⟨_, row, ⟨⟩, hrow, hopened, -⟩ := served_after_login rfl (run_codeUsed.opened (by simp) hcheck)
    (show session ⟨"GET", some "token", "", 1⟩ (some _) (some codeUsed) = .ok _ from rfl)
  exact ⟨row, Table.key_of_get (Option.filter_eq_some_iff.mp hrow).1, hopened⟩

theorem recoveryCode_oneUser : verifySecondFactor "user" ⟨"", "", "", "code"⟩ 0
    (some (useRecoveryCode ("user", tokenHash "code") codeUsed).2) none = some false :=
  recoveryCode_once run_codeUsed.used rfl (.head _)

end

end Infragraph
