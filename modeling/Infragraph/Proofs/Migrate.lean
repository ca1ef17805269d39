import Infragraph.Spec.Migrate

/-! However many processes migrate one database, and wherever they fail, the scripts
that have run are a prefix of the sorted ones, each run once and in order, and a
call that succeeds has seen all of them recorded. -/

namespace Infragraph.Migrate

open ReadCommitted SessionLock

variable {σ : Type} {files : List (File σ)} {schema : σ}
variable {d : Catalog σ} {done rest : List (File σ)} {f : File σ}

def versions (files : List (File σ)) : List String := (names files).map fun f => version f.name

/-- The first `k` migrations are recorded, and the schema is what their scripts make
of the initial one. -/
structure Applied (files : List (File σ)) (schema : σ) (k : ℕ) (d : Catalog σ) : Prop where
  le : k ≤ (names files).length
  recorded : d.recorded = (versions files).take k
  schema : ((names files).take k).foldlM (fun s f => f.sql s) schema = some d.schema

def history (files : List (File σ)) (schema : σ) : Discipline (Catalog σ) where
  inv d := ∃ k, Applied files schema k d
  grows d d' := d.recorded <+: d'.recorded
  refl _ := List.prefix_refl _
  trans h h' := h.trans h'

/-- Success means that everything is recorded. -/
def Complete (files : List (File σ)) (result : Except Error Unit) (d : Catalog σ) : Prop :=
  result = .ok () → d.recorded = versions files

theorem complete_error (e : Error) (d : Catalog σ) : Complete files (.error e) d := nofun

theorem Applied.mem_iff {k : ℕ} (h : Applied files schema k d) (hdistinct : (versions files).Nodup)
    (hsplit : names files = done ++ f :: rest) : version f.name ∈ d.recorded ↔ done.length < k := by
  have hversions : versions files = done.map (fun f => version f.name) ++
      version f.name :: rest.map (fun f => version f.name) := by
    rw [versions, hsplit, List.map_append, List.map_cons]
  rw [h.recorded]
  rw [hversions] at hdistinct ⊢
  constructor
  · intro hmem
    by_contra hk
    rw [List.take_append_of_le_length (by simpa using not_lt.mp hk)] at hmem
    exact (List.nodup_append.mp hdistinct).2.2 _ (List.mem_of_mem_take hmem) _ (by simp) rfl
  · intro hk
    rw [List.take_append, List.length_map, List.take_cons (by omega)]
    simp

theorem Applied.next (h : Applied files schema done.length d) (hsplit : names files = done ++ f :: rest) {s : σ}
    (hscript : f.sql d.schema = some s) :
    Applied files schema (done.length + 1) (writeAll d [Write.schema s, .version (version f.name)]) where
  le := by
    rw [hsplit]
    simp
  recorded := by
    have hrecorded := h.recorded
    rw [versions, hsplit] at hrecorded ⊢
    simp only [List.map_append, List.map_cons] at hrecorded ⊢
    rw [← List.length_map (f := fun f : File σ => version f.name), List.take_length_add_append]
    show d.recorded ++ [version f.name] = _
    rw [hrecorded]
    simp
  schema := by
    have hschema := h.schema
    rw [hsplit, List.take_left] at hschema
    rw [hsplit, List.take_length_add_append]
    simp only [List.foldlM_append, hschema]
    simp [hscript, writeAll, Store.write]

/-- The committed database has grown since the script was run only by this session. -/
theorem safe_transact (hsplit : names files = done ++ f :: rest) {l : Local (Write σ)} (hheld : 0 < l.held)
    (hidle : l.transaction = .idle) (hd : Applied files schema done.length d) :
    Safe (history files schema) (fun r l d => r = .ok () → 0 < l.held ∧ l.transaction = .idle ∧
      Applied files schema (done.length + 1) d) (fun r _ => r ≠ .ok ()) (transact f) l d := by
  have hinv : (history files schema).inv d := ⟨_, hd⟩
  -- after an error the transaction is rolled back, whatever the rollback says
  have hrollback : ∀ e l, Safe (history files schema) (fun r l d => r = .ok () → 0 < l.held ∧ l.transaction = .idle ∧
      Applied files schema (done.length + 1) d) (fun r _ => r ≠ .ok ())
      (Client.call Command.rollback fun _ => .ret (.error (.migration f.name e)) :
        Client (Catalog σ) (Write σ) SqlError (Except Error Unit)) l d :=
    fun e l => Safe.last (.inr rfl) (fun _ _ _ _ => nofun) fun _ _ _ => nofun
  refine Safe.begin hheld hidle hinv ?_ fun e => ⟨fun _ _ => nofun, nofun⟩
  refine Safe.query_opened hheld rfl hinv (fun b ws hscript => ?_) fun e => ⟨hrollback e _, fun _ => nofun⟩
  refine Safe.query_opened hheld rfl hinv (fun b ws' hinsert => ?_) fun e => ⟨hrollback e _, fun _ => nofun⟩
  obtain ⟨s, hs, rfl⟩ : ∃ s, f.sql d.schema = some s ∧ ws = [.schema s] := by
    split at hscript <;> cases hscript
    exact ⟨_, ‹_›, rfl⟩
  obtain rfl : ws' = [.version (version f.name)] := by
    split at hinsert
    · cases hinsert
    · split at hinsert <;> cases hinsert
      rfl
  have happlied := hd.next hsplit hs
  refine Safe.commit hheld rfl ⟨_, happlied⟩ (List.prefix_append _ _) ?_ (fun e => nofun) fun e =>
    ⟨fun _ _ => nofun, nofun⟩
  intro d' hd' _
  rw [hd'.frozen hheld]
  exact ⟨hheld, rfl, happlied⟩

/-- The loop, entered with the lock held and the migrations before `todo` recorded. -/
theorem safe_apply (hdistinct : (versions files).Nodup) {todo : List (File σ)} (hsplit : names files = done ++ todo)
    {l : Local (Write σ)} (hheld : 0 < l.held) (hidle : l.transaction = .idle) {k : ℕ} (hd : Applied files schema k d)
    (hdone : done.length ≤ k) :
    Safe (history files schema) (fun r _ d => Complete files r d) (Complete files) (apply todo) l d := by
  induction todo generalizing done l d k with
  | nil =>
    intro d' hd' _
    rw [List.append_nil] at hsplit
    rw [hd'.frozen hheld, hd.recorded, List.take_of_length_le]
    rwa [versions, List.length_map, hsplit]
  | cons f rest ih =>
    have hsplit' : names files = (done ++ [f]) ++ rest := by rw [hsplit, List.append_assoc]; rfl
    refine Safe.query hheld hidle (fun b ws hexists => ?_) fun e => ⟨fun _ _ => complete_error _ _, complete_error _ _⟩
    obtain ⟨rfl, hb⟩ : ws = [] ∧ (b = true ↔ version f.name ∈ d.recorded) := by
      split at hexists <;> cases hexists
      simp_all [Catalog.recorded]
    refine ⟨⟨k, hd⟩, List.prefix_refl _, ?_, fun e => complete_error _ _⟩
    rw [hd.mem_iff hdistinct hsplit] at hb
    cases b with
    | true => exact ih hsplit' hheld hidle hd (by simpa using hb.mp rfl)
    | false =>
      obtain rfl : k = done.length := by
        by_contra hk
        exact absurd (hb.mpr (by omega)) (by simp)
      refine Safe.bind (p := transact f) ((safe_transact hsplit hheld hidle hd).post ?_ fun _ _ h => h) ?_
      · intro r l' d' _ hr
        cases r with
        | error e => exact fun _ _ => complete_error _ _
        | ok u =>
          obtain ⟨hheld', hidle', happlied⟩ := hr rfl
          exact ih hsplit' hheld' hidle' happlied (by simp)
      · intro r d' hr
        cases r with
        | error e => exact complete_error _ _
        | ok u => exact absurd rfl hr

theorem Complete.grows {r : Except Error Unit} {d' : Catalog σ} (h : Complete files r d)
    (hgrows : d.recorded <+: d'.recorded) (hinv : (history files schema).inv d') : Complete files r d' := by
  intro hok
  obtain ⟨k, hk⟩ := hinv
  rw [h hok, hk.recorded] at hgrows
  rw [hk.recorded]
  exact (List.take_prefix _ _).eq_of_length_le hgrows.length_le

/-- The whole call, on a connection that may still hold the lock from an earlier one. -/
theorem guarded_migrate (hdistinct : (versions files).Nodup) :
    Guarded (history files schema) (Complete files) (migrate files) where
  stable r d d' hr hgrows hinv := hr.grows hgrows hinv
  safe l d hidle hd := by
    have hunlock : ∀ r l d, Complete files r d → Safe (history files schema) (fun r _ d => Complete files r d)
        (Complete files) (Client.call Command.unlock fun _ => .ret r :
          Client (Catalog σ) (Write σ) SqlError (Except Error Unit)) l d := fun r l d hr =>
      Safe.last (.inl rfl) (fun _ _ hinv hgrows => hr.grows hgrows hinv) fun _ hinv hgrows => hr.grows hgrows hinv
    refine Safe.lock hidle fun d₁ hd₁ => ⟨?_, fun e => ⟨fun _ _ => complete_error _ _, complete_error _ _⟩⟩
    have hheld : 0 < l.held + 1 := Nat.succ_pos _
    refine Safe.bind (p := locked files) ?_ fun r d hr _ => hr
    refine Safe.query hheld hidle (fun b ws hcreate => ?_) fun e =>
      ⟨fun _ _ => hunlock _ _ _ (complete_error _ _), complete_error _ _⟩
    cases hcreate
    obtain ⟨k, hk⟩ := hd₁.inv
    have hk' : Applied files schema k (writeAll d₁ [(Write.table : Write σ)]) := ⟨hk.le, hk.recorded, hk.schema⟩
    refine ⟨⟨k, hk'⟩, List.prefix_refl _, ?_, fun e => complete_error _ _⟩
    exact (safe_apply hdistinct (l := { l with held := l.held + 1 }) (List.nil_append _).symm hheld hidle hk'
      (Nat.zero_le k)).post
      (fun r l d _ hr => hunlock r l d hr) fun _ _ h => h

theorem applied_fresh (files : List (File σ)) (schema : σ) : Applied files schema 0 (fresh schema) where
  le := Nat.zero_le _
  recorded := rfl
  schema := rfl

variable {n : ℕ}

/-- In every state that any number of calls lead to, whatever fails, the recorded
versions are a prefix of the sorted migrations and the schema is the result of
running exactly those scripts. A call that returned nil has recorded them all. -/
theorem reachable_applied (hdistinct : (versions files).Nodup)
    {s : Server n (Catalog σ) (Write σ) SqlError (Except Error Unit)} (h : Reach (migrate files) (fresh schema) s) :
    (∃ k, Applied files schema k s.db) ∧ ∀ r ∈ s.returned, Complete files r s.db := by
  have hsafe := h.disciplined (guarded_migrate hdistinct) ⟨0, applied_fresh files schema⟩
  exact ⟨hsafe.inv, hsafe.returned⟩

def directory : List (File (List String)) :=
  [⟨"0002_links.up.sql", fun s => some (s ++ ["links"])⟩, ⟨"0001_initial.down.sql", fun _ => some []⟩,
    ⟨"0001_initial.up.sql", fun s => some (s ++ ["assets"])⟩]

/-- The first process crashes after its first script, before the commit; the second
one waits for the lock and runs both migrations. -/
def crashedRun : List (Move 2 SqlError) :=
  [.start 0, .perform 0 none, .start 1, .perform 0 none, .perform 0 none, .perform 0 none, .perform 0 none, .crash 0,
    .disconnect 0] ++ List.replicate 13 (.perform 1 none) ++ [.finish 1]

theorem reachable_applied_crashed : ∃ s : Server 2 (Catalog (List String)) (Write (List String)) SqlError
      (Except Error Unit), Reach (migrate directory) (fresh []) s ∧
      s.db = ⟨some ["0001", "0002"], ["assets", "links"]⟩ ∧ .ok () ∈ s.returned ∧
      (∃ k, Applied directory [] k s.db) ∧ ∀ r ∈ s.returned, Complete directory r s.db := by
  have hrun : (crashedRun.foldlM (Server.move (migrate directory)) (Server.init 2 (fresh []))).map
      (fun s => (s.db, s.returned)) = some (⟨some ["0001", "0002"], ["assets", "links"]⟩, [.ok ()]) := by
    decide +kernel
  obtain ⟨s, hs, hresult⟩ := Option.map_eq_some_iff.mp hrun
  have hreach := Reach.moves crashedRun Reach.init hs
  obtain ⟨hdb, hreturned⟩ := Prod.mk.inj hresult
  exact ⟨s, hreach, hdb, by rw [hreturned]; exact List.mem_singleton_self _,
    reachable_applied (by decide +kernel) hreach⟩

end Infragraph.Migrate
