import Infragraph.Proofs.Kubernetes

/-! The listing of one path, page by page, against any server: how many requests it
makes, and that what it returns is all of the pages up to the one without a
continuation token. -/

namespace Infragraph.Kubernetes

variable {p : Page} {pages : List Page}

/-- The pages that the API serves from a request on, each to the token of the one before. -/
inductive Serves (api : Api) (path : String) : ℕ → String → List Page → Prop
  | nil {page token} : Serves api path page token []
  | cons {page token first rest} : api path page token = .ok first →
      Serves api path (page + 1) first.continueToken rest → Serves api path page token (first :: rest)

/-- The pages that a server returns from a request on: each is the body of a 200
answer within the limit, to the token of the one before. -/
inductive Returns (unmarshal : List UInt8 → Option Page) (server : String → ℕ → String → Fetched) (path : String) :
    ℕ → String → List Page → Prop
  | nil {page token} : Returns unmarshal server path page token []
  | cons {page token first rest status body} : server path page token = .answered 200 status body →
      body.length ≤ maxResponseBytes → unmarshal body = some first →
      Returns unmarshal server path (page + 1) first.continueToken rest →
      Returns unmarshal server path page token (first :: rest)

def allItems (pages : List Page) : List Item := pages.flatMap (·.items)

def Ends (pages : List Page) : Prop := ∃ last ∈ pages.getLast?, last.continueToken = ""

def Continues (pages : List Page) : Prop := ∀ p ∈ pages.dropLast, p.continueToken ≠ ""

/-- With what is there before, the items of the first pages are never too many. -/
def Within (limit before : ℕ) (pages : List Page) : Prop :=
  ∀ j, 0 < j → j ≤ pages.length → before + (allItems (pages.take j)).length ≤ limit

theorem ends_singleton : Ends [p] ↔ p.continueToken = "" := by
  simp [Ends]

theorem ends_cons (h : pages ≠ []) : Ends (p :: pages) ↔ Ends pages := by
  obtain ⟨q, rest, rfl⟩ := List.exists_cons_of_ne_nil h
  simp [Ends, List.getLast?_cons_cons]

theorem continues_cons (h : pages ≠ []) : Continues (p :: pages) ↔ p.continueToken ≠ "" ∧ Continues pages := by
  obtain ⟨q, rest, rfl⟩ := List.exists_cons_of_ne_nil h
  simp [Continues]

theorem within_cons {limit before : ℕ} : Within limit before (p :: pages) ↔
      before + p.items.length ≤ limit ∧ Within limit (before + p.items.length) pages := by
  constructor
  · intro h
    refine ⟨by simpa [allItems] using h 1 Nat.one_pos (by simp), fun j hj hle => ?_⟩
    have hnext := h (j + 1) (by omega) (by simpa using hle)
    simp only [List.take_succ_cons, allItems, List.flatMap_cons, List.length_append] at hnext ⊢
    omega
  · rintro ⟨hfirst, hrest⟩ j hj hle
    obtain ⟨i, rfl⟩ : ∃ i, j = i + 1 := ⟨j - 1, by omega⟩
    simp only [List.take_succ_cons, allItems, List.flatMap_cons, List.length_append]
    rcases Nat.eq_zero_or_pos i with rfl | hi
    · simpa using hfirst
    · have hnext := hrest i hi (by simpa using hle)
      simp only [allItems] at hnext
      omega

variable {c : Connector} {api : Api} {path token : String} {page budget : ℕ} {result out : List Item}

theorem Serves.first (hapi : api path page token = .ok p) (h : Serves api path page token pages)
    (hends : Ends pages) : ∃ rest, pages = p :: rest ∧ Serves api path (page + 1) p.continueToken rest := by
  cases h with
  | nil => simp [Ends] at hends
  | cons hfirst hrest =>
    cases hapi.symm.trans hfirst
    exact ⟨_, rfl, hrest⟩

/-- The loop returns what it had and the items of the pages, up to the first without a token. -/
theorem listPages_iff : c.listPages api path result page token budget = .ok out ↔
    ∃ pages, Serves api path page token pages ∧ pages.length ≤ budget ∧ Ends pages ∧ Continues pages ∧
      Within c.maxResources result.length pages ∧ out = result ++ allItems pages := by
  induction budget generalizing result page token with
  | zero =>
    constructor
    · intro h
      cases h
    · rintro ⟨pages, -, hlen, hends, -⟩
      rw [List.eq_nil_of_length_eq_zero (Nat.le_zero.mp hlen)] at hends
      simp [Ends] at hends
  | succ budget ih =>
    unfold Connector.listPages
    cases hapi : api path page token with
    | error e =>
      constructor
      · intro h
        cases h
      · rintro ⟨pages, hserves, -, hends, -⟩
        cases hserves with
        | nil => simp [Ends] at hends
        | cons hfirst => cases hapi.symm.trans hfirst
    | ok first =>
      rw [Except.ok_bind]
      dsimp only
      rw [List.length_append]
      by_cases hmany : c.maxResources < result.length + first.items.length
      · -- one page too many items
        rw [if_pos hmany]
        constructor
        · intro h
          cases h
        · rintro ⟨pages, hserves, -, hends, -, hwithin, -⟩
          obtain ⟨rest, rfl, -⟩ := hserves.first hapi hends
          exact absurd (within_cons.mp hwithin).1 (by omega)
      rw [if_neg hmany]
      by_cases hlast : first.continueToken = ""
      · rw [if_pos hlast]
        constructor
        · intro h
          cases h
          refine ⟨[first], .cons hapi .nil, by simp, ends_singleton.mpr hlast, by simp [Continues], ?_,
            by simp [allItems]⟩
          exact within_cons.mpr ⟨by omega, fun j hj hle => absurd hle (by simp; omega)⟩
        · rintro ⟨pages, hserves, -, hends, hcontinues, -, rfl⟩
          obtain ⟨rest, rfl, -⟩ := hserves.first hapi hends
          cases rest with
          | nil => simp [allItems]
          | cons p rest => exact absurd hlast ((continues_cons (by simp)).mp hcontinues).1
      · rw [if_neg hlast, ih]
        constructor
        · rintro ⟨pages, hserves, hlen, hends, hcontinues, hwithin, rfl⟩
          have hne : pages ≠ [] := by
            rintro rfl
            simp [Ends] at hends
          refine ⟨first :: pages, .cons hapi hserves, by simpa using hlen, (ends_cons hne).mpr hends,
            (continues_cons hne).mpr ⟨hlast, hcontinues⟩, within_cons.mpr ⟨by omega, ?_⟩, by simp [allItems]⟩
          rwa [List.length_append] at hwithin
        · rintro ⟨pages, hserves, hlen, hends, hcontinues, hwithin, rfl⟩
          obtain ⟨rest, rfl, hrest⟩ := hserves.first hapi hends
          have hne : rest ≠ [] := by
            rintro rfl
            exact hlast (ends_singleton.mp hends)
          refine ⟨rest, hrest, by simpa using hlen, (ends_cons hne).mp hends, ((continues_cons hne).mp hcontinues).2, ?_,
            by simp [allItems]⟩
          rw [List.length_append]
          exact (within_cons.mp hwithin).2

theorem Serves.cut (hserves : Serves api path page token pages) (hends : Ends pages) :
    ∃ k, Serves api path page token (pages.take k) ∧ Ends (pages.take k) ∧ Continues (pages.take k) := by
  induction hserves with
  | nil => simp [Ends] at hends
  | @cons page token first rest hfirst hrest ih =>
    by_cases hlast : first.continueToken = ""
    · refine ⟨1, ?_, ?_, ?_⟩
      · exact .cons hfirst .nil
      · exact ends_singleton.mpr hlast
      · simp [Continues]
    · have hne : rest ≠ [] := by
        rintro rfl
        exact hlast (ends_singleton.mp hends)
      obtain ⟨k, hserves, hends, hcontinues⟩ := ih ((ends_cons hne).mp hends)
      have hne' : rest.take k ≠ [] := by
        intro hnil
        rw [hnil] at hends
        simp [Ends] at hends
      refine ⟨k + 1, ?_, ?_, ?_⟩
      · exact .cons hfirst hserves
      · exact (ends_cons hne').mpr hends
      · exact (continues_cons hne').mpr ⟨hlast, hcontinues⟩

theorem requestPages_length : (c.requestPages api path result page token budget).length ≤ budget := by
  induction budget generalizing result page token with
  | zero => simp [Connector.requestPages]
  | succ budget ih =>
    unfold Connector.requestPages
    apply Nat.succ_le_succ
    split
    · simp
    · dsimp only
      split_ifs
      · simp
      · simp
      · exact ih

/-- Only the answers to the requests that are made matter. -/
theorem listPages_congr {api' : Api} (h : ∀ i t, (c.requestPages api path result page token budget)[i]? = some t →
      api' path (page + i) t = api path (page + i) t) :
    c.listPages api' path result page token budget = c.listPages api path result page token budget := by
  induction budget generalizing result page token with
  | zero => rfl
  | succ budget ih =>
    have hfirst : api' path page token = api path page token := h 0 token (by simp [Connector.requestPages])
    unfold Connector.listPages
    rw [hfirst]
    cases hapi : api path page token with
    | error e => rfl
    | ok first =>
      rw [Except.ok_bind, Except.ok_bind]
      dsimp only
      split_ifs with hmany hlast
      · rfl
      · rfl
      · apply ih
        intro i t hi
        rw [show page + 1 + i = page + (i + 1) by omega]
        apply h
        unfold Connector.requestPages
        rw [hapi]
        dsimp only
        rw [if_neg hmany, if_neg hlast]
        exact hi

variable {unmarshal : List UInt8 → Option Page} {server : String → ℕ → String → Fetched}

theorem readPage_ok {answer : Fetched} : readPage unmarshal path answer = .ok p ↔
    ∃ status body, answer = .answered 200 status body ∧ body.length ≤ maxResponseBytes ∧ unmarshal body = some p := by
  cases answer with
  | failed message => simp [readPage]
  | cut message => simp [readPage]
  | answered code status body =>
    unfold readPage
    dsimp only
    have hlimit : maxResponseBytes < (body.take (maxResponseBytes + 1)).length ↔ ¬ body.length ≤ maxResponseBytes := by
      rw [List.length_take]
      omega
    by_cases hlong : body.length ≤ maxResponseBytes
    · rw [if_neg (by simpa using hlong)]
      by_cases hcode : code = 200
      · subst hcode
        cases hbody : unmarshal body with
        | none => simp [hbody]
        | some q => simp [hbody, hlong]
      · simp [hcode]
    · rw [if_pos (hlimit.mpr hlong)]
      constructor
      · intro h
        cases h
      · rintro ⟨status', body', heq, hle, -⟩
        cases heq
        exact absurd hle hlong

theorem returns_iff :
    Returns unmarshal server path page token pages ↔ Serves (httpApi unmarshal server) path page token pages := by
  constructor
  · intro h
    induction h with
    | nil => exact .nil
    | cons hanswer hlong hbody _ ih => exact .cons (readPage_ok.mpr ⟨_, _, hanswer, hlong, hbody⟩) ih
  · intro h
    induction h with
    | nil => exact .nil
    | cons hfirst _ ih =>
      obtain ⟨status, body, hanswer, hlong, hbody⟩ := readPage_ok.mp hfirst
      exact .cons hanswer hlong hbody ih

theorem Within.take {limit before : ℕ} (h : Within limit before pages) (k : ℕ) :
    Within limit before (pages.take k) := by
  intro j hj hle
  rw [List.length_take] at hle
  rw [List.take_take, min_eq_left (by omega)]
  exact h j hj (by omega)

/-- The requests of a listing are bounded, it succeeds exactly when a page without a
token comes within them and within the limits, and it returns all items up to there. -/
theorem list_exact (config : Config) (unmarshal : List UInt8 → Option Page) (server : String → ℕ → String → Fetched)
    (path : String) : ((newWithConfig config).requests (httpApi unmarshal server) path).length ≤
        (newWithConfig config).maxResources / (newWithConfig config).pageSize + 2 ∧
      (∀ api, (∀ i t, ((newWithConfig config).requests (httpApi unmarshal server) path)[i]? = some t →
          api path i t = httpApi unmarshal server path i t) →
        (newWithConfig config).list api path = (newWithConfig config).list (httpApi unmarshal server) path) ∧
      ((∃ out, (newWithConfig config).list (httpApi unmarshal server) path = .ok out) ↔
        ∃ pages, Returns unmarshal server path 0 "" pages ∧
          pages.length ≤ (newWithConfig config).maxResources / (newWithConfig config).pageSize + 2 ∧
          Ends pages ∧ Within (newWithConfig config).maxResources 0 pages) ∧
      ∀ out, (newWithConfig config).list (httpApi unmarshal server) path = .ok out →
        ∃ pages, Returns unmarshal server path 0 "" pages ∧
          pages.length ≤ (newWithConfig config).maxResources / (newWithConfig config).pageSize + 2 ∧
          Ends pages ∧ Continues pages ∧ out = allItems pages := by
  refine ⟨requestPages_length, fun api h => listPages_congr (by simpa [Connector.requests] using h), ?_, ?_⟩
  · constructor
    · rintro ⟨out, hout⟩
      obtain ⟨pages, hserves, hlen, hends, -, hwithin, -⟩ := listPages_iff.mp hout
      exact ⟨pages, returns_iff.mpr hserves, hlen, hends, hwithin⟩
    · rintro ⟨pages, hreturns, hlen, hends, hwithin⟩
      obtain ⟨k, hserves, hends, hcontinues⟩ := (returns_iff.mp hreturns).cut hends
      refine ⟨_, listPages_iff.mpr ⟨pages.take k, hserves, ?_, hends, hcontinues, hwithin.take k, rfl⟩⟩
      rw [List.length_take]
      omega
  · intro out hout
    obtain ⟨pages, hserves, hlen, hends, hcontinues, -, rfl⟩ := listPages_iff.mp hout
    exact ⟨pages, returns_iff.mpr hserves, hlen, hends, hcontinues, by simp⟩

end Infragraph.Kubernetes
