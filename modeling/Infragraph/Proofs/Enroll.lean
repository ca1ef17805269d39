import Infragraph.Lib.Play
import Infragraph.Spec.Enroll
import Infragraph.Sanity.Apply

/-! An enrollment token is good for one collector. The `UPDATE` that uses it up
holds its row to the end of the transaction, so a second request finds it used or
waits for the first; nothing of a failed request is ever published. -/

namespace Infragraph

open Relational ReadCommitted Prog

def EnrollWrite.entry : EnrollWrite → EnrollLock
  | .token r => ⟨.tokens, [r.tokenHash]⟩
  | .collector r => ⟨.collectors, [r.id]⟩
  | .credential r => ⟨.credentials, [r.id]⟩
  | .connector r => ⟨.connectors, [r.id]⟩

/-- The write uses up an unused token, or adds a row under a new key. -/
def EnrollWrite.Adds (db : Enrollments) : EnrollWrite → Prop
  | .token r => ∃ old, db.tokens.get r.tokenHash = some old ∧ old.usedAt = none ∧
      ∃ now, r = { old with usedAt := some now }
  | .collector r => db.collectors.get r.id = none
  | .credential r => db.credentials.get r.id = none
  | .connector r => db.connectors.get r.id = none

/-- A row stays as it is while a session holds its index entry. -/
structure Enrollments.Keeps (held : List EnrollLock) (d d' : Enrollments) : Prop where
  tokens : ∀ k, ⟨.tokens, [k]⟩ ∈ held → d'.tokens.get k = d.tokens.get k
  collectors : ∀ k, ⟨.collectors, [k]⟩ ∈ held → d'.collectors.get k = d.collectors.get k
  credentials : ∀ k, ⟨.credentials, [k]⟩ ∈ held → d'.credentials.get k = d.credentials.get k
  connectors : ∀ k, ⟨.connectors, [k]⟩ ∈ held → d'.connectors.get k = d.connectors.get k

theorem Enrollments.Keeps.refl (held : List EnrollLock) (d : Enrollments) : Keeps held d d :=
  ⟨fun _ _ => rfl, fun _ _ => rfl, fun _ _ => rfl, fun _ _ => rfl⟩

theorem Enrollments.Keeps.trans {held : List EnrollLock} {d₁ d₂ d₃ : Enrollments} (h : Keeps held d₁ d₂)
    (h' : Keeps held d₂ d₃) : Keeps held d₁ d₃ where
  tokens k hk := (h'.tokens k hk).trans (h.tokens k hk)
  collectors k hk := (h'.collectors k hk).trans (h.collectors k hk)
  credentials k hk := (h'.credentials k hk).trans (h.credentials k hk)
  connectors k hk := (h'.connectors k hk).trans (h.connectors k hk)

def enrollRely : Rely Enrollments EnrollLock where
  inv _ := True
  rel := Enrollments.Keeps
  refl := .refl
  trans := .trans

theorem EnrollWrite.Adds.keep {held : List EnrollLock} {d d' : Enrollments} {w : EnrollWrite} (h : w.Adds d)
    (hw : w.entry ∈ held) (hd : Enrollments.Keeps held d d') : w.Adds d' := by
  cases w with
  | token r =>
    obtain ⟨old, hget, hold⟩ := h
    exact ⟨old, (hd.tokens _ hw).trans hget, hold⟩
  | collector r => exact (hd.collectors _ hw).trans h
  | credential r => exact (hd.credentials _ hw).trans h
  | connector r => exact (hd.connectors _ hw).trans h

/-- A write leaves alone what other sessions hold. -/
theorem Enrollments.Keeps.write {held : List EnrollLock} (d : Enrollments) {w : EnrollWrite}
    (hw : w.entry ∉ held) : Keeps held d (d.write w) := by
  have hne : ∀ i k, ⟨i, [k]⟩ ∈ held → w.entry ≠ ⟨i, [k]⟩ := by
    intro i k hk heq
    exact hw (heq ▸ hk)
  cases w with
  | token r =>
    refine ⟨fun k hk => Table.get_put_of_ne _ ?_, fun _ _ => rfl, fun _ _ => rfl, fun _ _ => rfl⟩
    intro heq
    exact hne _ k hk (by simp [EnrollWrite.entry, heq])
  | collector r =>
    refine ⟨fun _ _ => rfl, fun k hk => Table.get_put_of_ne _ ?_, fun _ _ => rfl, fun _ _ => rfl⟩
    intro heq
    exact hne _ k hk (by simp [EnrollWrite.entry, heq])
  | credential r =>
    refine ⟨fun _ _ => rfl, fun _ _ => rfl, fun k hk => Table.get_put_of_ne _ ?_, fun _ _ => rfl⟩
    intro heq
    exact hne _ k hk (by simp [EnrollWrite.entry, heq])
  | connector r =>
    refine ⟨fun _ _ => rfl, fun _ _ => rfl, fun _ _ => rfl, fun k hk => Table.get_put_of_ne _ ?_⟩
    intro heq
    exact hne _ k hk (by simp [EnrollWrite.entry, heq])

theorem Enrollments.Keeps.writeAll {held : List EnrollLock} (d : Enrollments) {ws : List EnrollWrite}
    (hws : ∀ w ∈ ws, w.entry ∉ held) : Keeps held d (writeAll d ws) := by
  induction ws generalizing d with
  | nil => exact .refl held d
  | cons w ws ih =>
    have hfirst := Keeps.write d (hws w (.head _))
    exact hfirst.trans (ih _ fun w' hw' => hws w' (.tail _ hw'))

/-- The session has written `ws`, holds all of it and it is still to be added. -/
def Owning (ws : List EnrollWrite) (d : Enrollments) (l : Local Enrollments EnrollWrite EnrollLock) : Prop :=
  l.writes = ws ∧ ∀ w ∈ ws, w.entry ∈ l.held ∧ w.Adds d

theorem stable_owning (ws : List EnrollWrite) : Stable enrollRely (Owning ws) := by
  intro d d' l _ _ hrel h
  refine ⟨h.1, fun w hw => ?_⟩
  obtain ⟨hheld, hadds⟩ := h.2 w hw
  exact ⟨hheld, hadds.keep hheld hrel⟩

theorem Owning.done {β : Type} {ws : List EnrollWrite} {d₁ d : Enrollments}
    {l : Local Enrollments EnrollWrite EnrollLock} {ε : Type} {st : Stmt Enrollments EnrollWrite EnrollLock ε β}
    {w : EnrollWrite} (h : Owning ws d l) (hw : w.entry ∈ st.locks (l.view d₁) (l.view d)) (hadds : w.Adds d) :
    Owning (ws ++ [w]) d (l.done st d₁ d [w]) := by
  refine ⟨by rw [Local.done, h.1], fun w' hw' => ?_⟩
  rcases List.mem_append.mp hw' with hold | hnew
  · obtain ⟨hheld, hadds'⟩ := h.2 w' hold
    exact ⟨List.mem_append_left _ hheld, hadds'⟩
  · obtain rfl := List.mem_singleton.mp hnew
    exact ⟨List.mem_append_right _ hw, hadds⟩

abbrev anyReply : Reply → Enrollments → Local Enrollments EnrollWrite EnrollLock → Prop := fun _ _ _ => True

section

variable {C : Schedule Enrollments}

theorem triple_insert {ρ : Type} {call : Call} {row : ρ → EnrollWrite} {locks : List EnrollLock}
    {refused : Enrollments → Option EnrollIndex} {r : ρ} {ws : List EnrollWrite} {reply : Reply}
    (hlock : (row r).entry ∈ locks) (hfresh : ∀ d, refused (writeAll d ws) = none → (row r).Adds d) :
    Triple C enrollRely anyReply (Owning ws) (orAnswer (Stmt.insert call row locks refused r) reply)
      fun _ => Owning (ws ++ [row r]) := by
  refine Triple.mapError (Triple.exec (stable_owning _) (fun _ => stable_owning _)
    (fun _ _ _ _ _ _ _ => trivial) ?_)
  intro d₁ d₂ l a ws' _ _ _ _ _ hp he
  simp only [Stmt.insert] at he
  split at he
  · cases he
  · rename_i href
    cases he
    apply hp.done hlock
    apply hfresh
    rw [← hp.1]
    exact href

variable {ws : List EnrollWrite} {reply : Reply}

theorem triple_owningCheck {c : Prop} [Decidable c] :
    Triple C enrollRely anyReply (Owning ws) (failIf c reply) fun _ => Owning ws := by
  have hcheck := Triple.failIf (C := C) (E := anyReply) (c := c) (e := reply) (stable_owning ws)
    fun _ _ _ _ _ => trivial
  exact hcheck.post fun _ _ _ _ h => h.2

theorem fresh_of_unrefused {α : Type} {o o' : Option α} {i : EnrollIndex} {rest : Option EnrollIndex}
    (heq : o = o') (h : (if o.isSome then some i else rest) = none) : o' = none := by
  subst heq
  split_ifs at h with ho
  exact Option.not_isSome_iff_eq_none.mp ho

theorem triple_insertCollector (r : EnrolledCollector)
    (hws : ∀ d : Enrollments, (writeAll d ws).collectors = d.collectors) :
    Triple C enrollRely anyReply (Owning ws) (orAnswer (insertCollector r) reply)
      fun _ => Owning (ws ++ [.collector r]) :=
  triple_insert (.head _) fun d => fresh_of_unrefused (by rw [hws])

theorem triple_insertCredential (r : EnrolledCredential)
    (hws : ∀ d : Enrollments, (writeAll d ws).credentials = d.credentials) :
    Triple C enrollRely anyReply (Owning ws) (orAnswer (insertCredential r) reply)
      fun _ => Owning (ws ++ [.credential r]) :=
  triple_insert (.head _) fun d => fresh_of_unrefused (by rw [hws])

theorem triple_insertConnector (r : EnrolledConnector)
    (hws : ∀ d : Enrollments, (writeAll d ws).connectors = d.connectors) :
    Triple C enrollRely anyReply (Owning ws) (orAnswer (insertConnector r) reply)
      fun _ => Owning (ws ++ [.connector r]) :=
  triple_insert (.head _) fun d => fresh_of_unrefused (by rw [hws])

end

section

variable {C : Schedule Enrollments}

theorem TokenRow.unused_of_usable {t : TokenRow} {now : Time} (h : t.usable now = true) : t.usedAt = none := by
  simp only [TokenRow.usable, Bool.and_eq_true, decide_eq_true_eq] at h
  exact h.1.1

/-- The token that the `UPDATE` found, if it found one. -/
theorem eval_useToken {hash : String} {now : Time} {d₁ d₂ : Enrollments} {orgs : List String} {ws : List EnrollWrite}
    (h : (useToken hash now).eval d₁ d₂ = .ok (orgs, ws)) :
    orgs = [] ∨ ∃ t, d₂.tokens.get hash = some t ∧ t.usedAt = none ∧
      d₁.tokens.rows.any (fun t => t.tokenHash = hash && t.usable now) ∧
      orgs = [t.organizationID] ∧ ws = [.token { t with usedAt := some now }] := by
  unfold useToken at h
  simp only [Stmt.update, changed_by_key] at h
  cases hget : d₂.tokens.get hash with
  | none =>
    rw [hget] at h
    cases h
    exact .inl rfl
  | some t =>
    rw [hget] at h
    cases hok : (t.usable now && (d₁.tokens.get hash).any (·.usable now)) with
    | false =>
      simp only [Option.filter, hok] at h
      cases h
      exact .inl rfl
    | true =>
      simp only [Option.filter, hok] at h
      cases h
      rw [Bool.and_eq_true] at hok
      obtain ⟨t₁, hget₁, husable⟩ := (Option.any_eq_true _ _).mp hok.2
      refine .inr ⟨t, rfl, ?_, ?_, rfl, rfl⟩
      · exact TokenRow.unused_of_usable hok.1
      · exact List.any_eq_true.mpr ⟨t₁, Table.mem_of_get hget₁, by simp [Table.key_of_get hget₁, husable]⟩

theorem mem_locks_useToken {hash : String} {now : Time} {d₁ d₂ : Enrollments} {t : TokenRow} (ht : t.tokenHash = hash)
    (hsnap : d₁.tokens.rows.any (fun t => t.tokenHash = hash && t.usable now)) :
    (EnrollWrite.token { t with usedAt := some now }).entry ∈ (useToken hash now).locks d₁ d₂ := by
  obtain ⟨t₁, hmem, hok⟩ := List.any_eq_true.mp hsnap
  refine List.mem_map.mpr ⟨t₁, List.mem_filter.mpr ⟨hmem, hok⟩, ?_⟩
  rw [Bool.and_eq_true, decide_eq_true_eq] at hok
  simp [EnrollWrite.entry, ht, hok.1]

theorem EnrollState.Adds.same {db₀ : Enrollments} {s s' : EnrollState} {created : List (EnrollRequest × Created)}
    (h : s.Adds db₀ created) (hdb : s'.db = s.db) (hlog : s'.log = s.log) : s'.Adds db₀ created := by
  obtain ⟨hl, hcollectors, hcredentials, hconnectors⟩ := h
  rw [← hdb] at hcollectors hcredentials hconnectors
  rw [← hlog] at hl
  exact ⟨hl, hcollectors, hcredentials, hconnectors⟩

variable [Hashes]

def EnrollRequest.writes (r : EnrollRequest) (i : EnrollInput) (raw : List UInt8) (t : TokenRow) : List EnrollWrite :=
  [.token { t with usedAt := some r.now }, .collector (r.collector i raw t.organizationID),
    .credential (r.credentialRow t.organizationID), .connector (r.connector i t.organizationID)]

def Enrolls (r : EnrollRequest) (_ : Enrolled) (d : Enrollments)
    (l : Local Enrollments EnrollWrite EnrollLock) : Prop :=
  ∃ i raw t, r.body = .input i ∧ t.tokenHash = tokenHash i.token ∧ Owning (r.writes i raw t) d l

-- unfolding the check of the type runs into the text functions
attribute [local irreducible] EnrollInput.type in
theorem triple_createCollector (r : EnrollRequest) {i : EnrollInput} (raw : List UInt8) (t : TokenRow)
    (hbody : r.body = .input i) (hhash : t.tokenHash = tokenHash i.token) :
    Triple C enrollRely anyReply (Owning [.token { t with usedAt := some r.now }])
      (createCollector r i raw t.organizationID) (Enrolls r) := by
  refine Triple.bind (triple_insertCollector _ fun _ => rfl) fun _ => ?_
  refine Triple.bind (triple_insertCredential _ fun _ => rfl) fun _ => ?_
  refine Triple.bind triple_owningCheck fun _ => ?_
  refine Triple.bind (triple_insertConnector _ fun _ => rfl) fun _ => ?_
  exact Triple.ret (stable_owning _) fun d l _ h => ⟨i, raw, t, hbody, hhash, h⟩

theorem triple_enrollWith (r : EnrollRequest) {i : EnrollInput} (raw : List UInt8) (hbody : r.body = .input i) :
    Triple C enrollRely anyReply (Owning []) (enrollWith r i raw) (Enrolls r) := by
  unfold enrollWith
  -- the organization found is that of a token the session now holds, used up
  refine Triple.bind (Q := fun orgs d l => orgs = [] ∨ ∃ t : TokenRow, t.tokenHash = tokenHash i.token ∧
    orgs = [t.organizationID] ∧ Owning [.token { t with usedAt := some r.now }] d l) ?_ fun orgs => ?_
  · refine Triple.mapError (Triple.exec (stable_owning _) ?_ (fun _ _ _ _ _ _ _ => trivial) ?_)
    · rintro orgs d d' l hi hi' hrel (hnone | ⟨t, ht, horgs, hown⟩)
      · exact .inl hnone
      · exact .inr ⟨t, ht, horgs, stable_owning _ d d' l hi hi' hrel hown⟩
    · intro d₁ d₂ l orgs ws _ _ _ _ _ hp he
      have hview : ∀ d, l.view d = d := fun d => by rw [Local.view, hp.1, writeAll_nil]
      rw [hview, hview] at he
      rcases eval_useToken he with hnone | ⟨t, hget, hunused, hsnap, horgs, rfl⟩
      · exact .inl hnone
      · have ht : t.tokenHash = tokenHash i.token := Table.key_of_get hget
        refine .inr ⟨t, ht, horgs, hp.done ?_ ⟨t, ?_, hunused, r.now, rfl⟩⟩
        · rw [hview, hview]
          exact mem_locks_useToken ht hsnap
        · rw [← hget]
          exact congrArg _ ht
  · intro d l hi horgs
    rcases horgs with rfl | ⟨t, ht, rfl, hown⟩
    · exact fun _ _ _ => trivial
    · exact triple_createCollector r raw t hbody ht d l hi hown

theorem triple_enroll (r : EnrollRequest) : Triple C enrollRely anyReply (Owning []) (enroll r) (Enrolls r) := by
  refine Triple.bind triple_owningCheck fun _ => ?_
  cases hbody : r.body with
  | input i =>
    rw [decodeEnroll, ret_bind]
    split
    · exact Triple.throw (stable_owning _) fun _ _ _ _ => trivial
    · exact Triple.bind triple_owningCheck fun _ => triple_enrollWith r _ hbody
  | _ => exact Triple.throw (stable_owning _) fun _ _ _ _ => trivial

theorem enroll_verified : Verified enrollSystem enrollRely (fun _ _ _ _ => True) fun r a d l => Enrolls r a d l where
  publishes r a d l _ h := by
    obtain ⟨i, raw, t, -, -, hown⟩ := h
    refine ⟨trivial, fun held hdisjoint => ?_⟩
    rw [Local.view, hown.1]
    exact Enrollments.Keeps.writeAll d fun w hw => hdisjoint _ (hown.2 w hw).1
  code r d _ := triple_enroll r d {} trivial ⟨rfl, by simp⟩

/-- What a token is after a run that began with `db₀`: as it was, with no request
that presented it committed, or used up by the only one that was. -/
def TokenUse (db₀ db : Enrollments) (created : List (EnrollRequest × Created)) (hash : String) : Prop :=
  (created.filter (·.1.presents hash) = [] ∧ db.tokens.get hash = db₀.tokens.get hash) ∨
    ∃ x t, created.filter (·.1.presents hash) = [x] ∧ db₀.tokens.get hash = some t ∧ t.usedAt = none ∧
      db.tokens.get hash = some { t with usedAt := some x.1.now } ∧ x.2.Of t.organizationID

def EnrollRequest.created (r : EnrollRequest) (i : EnrollInput) (raw : List UInt8) (org : String) : Created :=
  ⟨r.collector i raw org, r.credentialRow org, r.connector i org⟩

theorem EnrollRequest.created_of (r : EnrollRequest) (i : EnrollInput) (raw : List UInt8) (org : String) :
    (r.created i raw org).Of org := ⟨rfl, ⟨rfl, rfl⟩, rfl, rfl⟩

theorem TokenUse.commit {db₀ d : Enrollments} {created : List (EnrollRequest × Created)} {r : EnrollRequest}
    {i : EnrollInput} {raw : List UInt8} {t : TokenRow} (h : ∀ hash, TokenUse db₀ d created hash)
    (hbody : r.body = .input i) (ht : t.tokenHash = tokenHash i.token)
    (hadds : (EnrollWrite.token { t with usedAt := some r.now }).Adds d) (hash : String) :
    TokenUse db₀ (writeAll d (r.writes i raw t)) (created ++ [(r, r.created i raw t.organizationID)]) hash := by
  have htokens : (writeAll d (r.writes i raw t)).tokens = d.tokens.put { t with usedAt := some r.now } := rfl
  have hpresents : r.presents hash = decide (t.tokenHash = hash) := by
    rw [EnrollRequest.presents, hbody, ht]
  unfold TokenUse
  rw [htokens, List.filter_append]
  by_cases hhash : t.tokenHash = hash
  · subst hhash
    obtain ⟨old, hold, hunused, now, heq⟩ := hadds
    right
    rcases h t.tokenHash with ⟨hnone, hget⟩ | ⟨x, t', -, -, -, hget, -⟩
    · have hkeep : { old with usedAt := some r.now } = { t with usedAt := some r.now } := by
        cases t
        cases old
        cases heq
        rfl
      have horg : old.organizationID = t.organizationID := (TokenRow.mk.inj hkeep).2.1
      refine ⟨(r, r.created i raw t.organizationID), old, ?_, ?_, hunused, ?_, ?_⟩
      · rw [hnone]
        simp [hpresents]
      · rw [← hget]
        exact hold
      · rw [hkeep]
        exact Table.get_put_self _ _
      · rw [horg]
        exact r.created_of i raw _
    · -- used already: the `UPDATE` would not have found it
      cases hold.symm.trans hget
      cases hunused
  · have hkeep : (d.tokens.put { t with usedAt := some r.now }).get hash = d.tokens.get hash :=
      Table.get_put_of_ne _ hhash
    have hother : [(r, r.created i raw t.organizationID)].filter (·.1.presents hash) = [] := by
      simp [hpresents, hhash]
    rw [hkeep, hother, List.append_nil]
    exact h hash

theorem EnrollState.Adds.commit {db₀ : Enrollments} {s s' : EnrollState} {created : List (EnrollRequest × Created)}
    {r : EnrollRequest} {a : Enrolled} {i : EnrollInput} {raw : List UInt8} {t : TokenRow} (h : s.Adds db₀ created)
    (hadds : ∀ w ∈ r.writes i raw t, w.Adds s.db) (hdb : s'.db = writeAll s.db (r.writes i raw t))
    (hlog : s'.log = s.log ++ [(r, a)]) : s'.Adds db₀ (created ++ [(r, r.created i raw t.organizationID)]) := by
  have hcollector := hadds (.collector (r.collector i raw t.organizationID)) (by simp [EnrollRequest.writes])
  have hcredential := hadds (.credential (r.credentialRow t.organizationID)) (by simp [EnrollRequest.writes])
  have hconnector := hadds (.connector (r.connector i t.organizationID)) (by simp [EnrollRequest.writes])
  refine ⟨by simp [hlog, h.log], ?_, ?_, ?_⟩
  all_goals rw [hdb, List.map_append, ← List.append_assoc]
  · rw [← h.collectors]
    exact Table.rows_put_fresh hcollector
  · rw [← h.credentials]
    exact Table.rows_put_fresh hcredential
  · rw [← h.connectors]
    exact Table.rows_put_fresh hconnector

theorem reach_enrolled {db₀ : Enrollments} {s : EnrollState} (hs : Reach enrollSystem db₀ s) :
    ∃ created, s.Adds db₀ created ∧ ∀ hash, TokenUse db₀ s.db created hash := by
  induction hs with
  | init =>
    refine ⟨[], ⟨rfl, ?_, ?_, ?_⟩, fun _ => .inl ⟨rfl, rfl⟩⟩
    all_goals simp [State.init]
  | @step s e s' hs hstep ih =>
    obtain ⟨created, hadds, huse⟩ := ih
    rcases hstep.commit_or_same with ⟨t, a, rfl⟩ | ⟨-, hdb, hlog⟩
    · obtain ⟨x, -, ⟨i, raw, tok, hbody, ht, hown⟩, hdb, hlog⟩ := (hs.safe enroll_verified trivial).commit hstep
      rw [Local.view, hown.1] at hdb
      refine ⟨_, hadds.commit (fun w hw => (hown.2 w hw).2) hdb hlog, ?_⟩
      rw [hdb]
      exact TokenUse.commit huse hbody ht (hown.2 _ (.head _)).2
    · refine ⟨created, hadds.same hdb hlog, ?_⟩
      rw [hdb]
      exact huse

/-- However the requests interleave, a token gives at most one collector with its
credential and connector; it is used up exactly when they were committed, and only
the commit of a request changes anything. -/
theorem enroll_single_use (db₀ : Enrollments) {s : EnrollState} (hs : Reach enrollSystem db₀ s) :
    (∃ created, s.Adds db₀ created ∧ ∀ hash,
      (created.filter (·.1.presents hash)).length ≤ 1 ∧
      ∀ t₀, db₀.tokens.get hash = some t₀ → t₀.usedAt = none →
        ∃ t, s.db.tokens.get hash = some t ∧ t.organizationID = t₀.organizationID ∧
          (t.usedAt.isSome ↔ ∃ x, created.filter (·.1.presents hash) = [x] ∧ x.2.Of t.organizationID) ∧
          (t.usedAt = none → t = t₀)) ∧
      ∀ e s', Step enrollSystem s e s' → (∀ t a, e ≠ .commit t a) → s'.db = s.db := by
  constructor
  · obtain ⟨created, hadds, huse⟩ := reach_enrolled hs
    refine ⟨created, hadds, fun hash => ?_⟩
    rcases huse hash with ⟨hnone, hget⟩ | ⟨x, t, hone, hget₀, -, hget, hof⟩
    · refine ⟨by simp [hnone], fun t₀ ht₀ hunused => ⟨t₀, hget.trans ht₀, rfl, ?_, fun _ => rfl⟩⟩
      simp [hunused, hnone]
    · refine ⟨by simp [hone], fun t₀ ht₀ _ => ⟨_, hget, ?_, ?_, by simp⟩⟩
      · cases hget₀.symm.trans ht₀
        rfl
      · exact ⟨fun _ => ⟨x, hone, hof⟩, fun _ => rfl⟩
  · intro e s' hstep hno
    rcases hstep.commit_or_same with ⟨t, a, rfl⟩ | ⟨-, hdb, -⟩
    · exact absurd rfl (hno t a)
    · exact hdb

end

section

attribute [local instance] toy

def enrollRequest (n : String) (token : String) : EnrollRequest where
  allowed := true
  body := .input ⟨token, "edge", "AAAAAAAAAAAAAAAAAAAAAAAAAAAAAAAAAAAAAAAAAAA=", "1", "1.0", "", " docker"⟩
  now := 1000
  collectorID := "collector-" ++ n
  connectorID := "connector-" ++ n
  credentialID := "credential-" ++ n
  credential := "credential " ++ n

def issued : Enrollments where
  tokens := Table.empty.put ⟨"t1", "org", tokenHash "secret", 2000, none, "collector.enroll"⟩
  collectors := .empty
  credentials := .empty
  connectors := .empty

/-- The second request reads the token before the first commits. -/
def racing : List (Move EnrollRequest) :=
  [.begin 0 (enrollRequest "1" "secret"), .begin 1 (enrollRequest "2" "secret"), .read 1] ++
    List.replicate 4 (.work 0) ++ [.commit 0, .work 1]

instance (begun : List EnrollRequest) (r : EnrollRequest) : Decidable (enrollSystem.admits begun r) :=
  inferInstanceAs (Decidable True)

instance (r : EnrollRequest) (c : Call) (rs : List (Call × Enrollments)) (d d' : Enrollments) :
    Decidable (enrollSystem.schedule r c rs d d') :=
  inferInstanceAs (Decidable True)

/-- The request of the session is about to be refused with this status. -/
def EnrollState.refuses (s : EnrollState) (t status : ℕ) : Bool :=
  match s.sessions t with
  | some ⟨_, .throw reply, none, _⟩ => reply.status = status
  | _ => false

theorem enroll_single_use_race : ∃ s : EnrollState, Reach enrollSystem issued s ∧ s.refuses 1 401 ∧
    s.db.collectors.rows.map (·.id) = ["collector-1"] ∧
    ∃ t, s.db.tokens.get (tokenHash "secret") = some t ∧ t.organizationID = "org" ∧ t.usedAt = some 1000 := by
  have hplay : (enrollSystem.play 2 racing (State.init issued)).any (fun s : EnrollState =>
      EnrollState.refuses s 1 401 && s.db.collectors.rows.map (·.id) = ["collector-1"] &&
      (s.db.tokens.get (tokenHash "secret")).any (·.usedAt = some 1000)) = true := by decide +kernel
  obtain ⟨s, hs, hok⟩ := (Option.any_eq_true _ _).mp hplay
  simp only [Bool.and_eq_true, decide_eq_true_eq] at hok
  have hreach := (Reach.play Reach.init (fun _ _ => rfl) hs).1
  obtain ⟨⟨created, -, huse⟩, -⟩ := enroll_single_use issued hreach
  obtain ⟨t, hget, horg, -⟩ := (huse (tokenHash "secret")).2 _ (Table.get_put_self _ _) rfl
  rw [hget] at hok
  exact ⟨s, hreach, hok.1.1, hok.1.2, t, hget, horg, by simpa using hok.2⟩

end

end Infragraph
