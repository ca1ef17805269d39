import Infragraph.Spec.Limiter

/-! The limiter answers as one window counter for each key. A window that is deleted is
over for longer than its length, so the next call on its key begins a new one with or
without it. -/

namespace Infragraph

open FixedWindow

theorem lt_subtract_iff {x : ℤ} (hpos : 0 < x) (hlt : x < 2 ^ 63 - 1) (t u : Time) :
    x < subtract t u ↔ x < t - u := by
  unfold subtract
  omega

theorem int64_double {period : ℤ} (hpos : 0 < period) (hlt : period < 2 ^ 62) : int64 (2 * period) = 2 * period := by
  unfold int64
  omega

def Limiter.stale (l : Limiter) (now : Time) (w : Window) : Prop := int64 (2 * l.period) < subtract now w.start

instance (l : Limiter) (now : Time) (w : Window) : Decidable (l.stale now w) := Int.decLt _ _

theorem find_evictOne (l : Limiter) (now : Time) (windows : Dict String Window) (candidate k : String) :
    (l.evictOne now windows candidate).find k =
      if candidate = k then (windows.find k).filter fun w => ¬ l.stale now w else windows.find k := by
  unfold Limiter.evictOne Limiter.stale
  split_ifs with hk
  · subst hk
    cases hfind : windows.find candidate with
    | none => simp [hfind]
    | some w =>
      by_cases hstale : int64 (2 * l.period) < subtract now w.start
      · simp [hstale, Dict.find_erase, Option.filter_some]
      · simp [hstale, hfind, Option.filter_some]
  · cases hfind : windows.find candidate with
    | none => rfl
    | some w =>
      by_cases hstale : int64 (2 * l.period) < subtract now w.start
      · simp [hstale, Dict.find_erase, hk]
      · simp [hstale]

/-- An entry is deleted for what it was before the loop, since it is visited once. -/
theorem find_foldl_evictOne (l : Limiter) (now : Time) {ks : List String} (hnodup : ks.Nodup)
    (windows : Dict String Window) (k : String) : (ks.foldl (l.evictOne now) windows).find k =
      if k ∈ ks then (windows.find k).filter fun w => ¬ l.stale now w else windows.find k := by
  induction ks generalizing windows with
  | nil => rfl
  | cons candidate ks ih =>
    obtain ⟨hfresh, hnodup⟩ := List.nodup_cons.mp hnodup
    rw [List.foldl_cons, ih hnodup, find_evictOne]
    by_cases hk : candidate = k
    · subst hk
      simp [hfresh]
    · simp [hk, Ne.symm hk]

theorem find_evict (l : Limiter) (c : AllowCall) (k : String) :
    (l.evict c).find k = (l.windows.find k).filter fun w => ¬ l.stale c.now w := by
  unfold Limiter.evict
  rw [find_foldl_evictOne l c.now (c.order.nodup _)]
  simp only [c.order.mem]
  split_ifs with hk
  · rfl
  · rw [Dict.find_eq_none.mpr hk]
    rfl

def meterAnswers (limit : ℕ) (period : ℤ) (meter : String → Window) : List AllowCall → List Bool
  | [] => []
  | c :: cs =>
    let w := (meter c.key).advance period c.now
    decide (w.count ≤ limit) :: meterAnswers limit period (Function.update meter c.key w) cs

/-- The limiter has the windows of the counters, but for some that are long over. -/
structure Limiter.Tracks (l : Limiter) (t : Time) (meter : String → Window) : Prop where
  started : ∀ k, 0 ≤ (meter k).start
  windows : ∀ k, (l.windows.find k).getD ⟨0, 0⟩ = meter k ∨
    l.windows.find k = none ∧ 2 * l.period < t - (meter k).start

section

variable {l : Limiter} {t : Time} {meter : String → Window} {c : AllowCall}

theorem Limiter.Tracks.later (h : l.Tracks t meter) (ht : t ≤ c.now) : l.Tracks c.now meter where
  started := h.started
  windows k := (h.windows k).imp_right fun hgone => ⟨hgone.1, hgone.2.trans_le (sub_le_sub_right ht _)⟩

variable (hpos : 0 < l.period) (hlt : l.period < 2 ^ 62)
include hpos hlt

theorem Limiter.count_eq (windows : Dict String Window) (c : AllowCall) : l.count windows c =
      (decide ((((windows.find c.key).getD ⟨0, 0⟩).advance l.period c.now).count ≤ l.limit),
        { l with windows := windows.set c.key (((windows.find c.key).getD ⟨0, 0⟩).advance l.period c.now) }) := by
  have hsubtract := lt_subtract_iff hpos (show l.period < 2 ^ 63 - 1 by omega)
  unfold Limiter.count Window.advance
  simp only [hsubtract]
  split_ifs <;> rfl

theorem Limiter.Tracks.evict (h : l.Tracks c.now meter) :
    Limiter.Tracks { l with windows := l.evict c } c.now meter where
  started := h.started
  windows k := by
    have hstale : ∀ w, l.stale c.now w ↔ 2 * l.period < c.now - w.start := by
      intro w
      unfold Limiter.stale
      rw [int64_double hpos hlt, lt_subtract_iff (by omega) (by omega)]
    rw [find_evict]
    cases hfind : l.windows.find k with
    | none =>
      have hk := h.windows k
      rw [hfind] at hk
      exact hk
    | some w =>
      have hw : w = meter k := by
        rcases h.windows k with hk | hk
        · rw [hfind] at hk
          exact hk
        · rw [hfind] at hk
          cases hk.1
      by_cases hold : l.stale c.now w
      · refine .inr ⟨by simp [hold, Option.filter_some], ?_⟩
        rw [← hw]
        exact (hstale w).mp hold
      · refine .inl ?_
        rw [hw] at hold
        simp [hold, hw, Option.filter_some]

/-- A call moves the counter of its key, from whatever windows track the counters. -/
theorem Limiter.count_tracks {windows : Dict String Window}
    (h : Limiter.Tracks { l with windows := windows } c.now meter) :
    (l.count windows c).1 = decide (((meter c.key).advance l.period c.now).count ≤ l.limit) ∧
      (l.count windows c).2.Tracks c.now (Function.update meter c.key ((meter c.key).advance l.period c.now)) := by
  -- an absent window begins anew, as one that is over does
  have hwindow : ((windows.find c.key).getD ⟨0, 0⟩).advance l.period c.now = (meter c.key).advance l.period c.now := by
    rcases h.windows c.key with hk | hk
    · rw [hk]
    · obtain ⟨habsent, hlong⟩ := hk
      have hstart := h.started c.key
      dsimp only at habsent hlong
      have hover : l.period < c.now - (0 : ℤ) := by omega
      have hover' : l.period < c.now - (meter c.key).start := by omega
      rw [habsent, Option.getD_none, Window.advance, if_pos hover, Window.advance, if_pos hover']
  rw [l.count_eq hpos hlt, hwindow]
  refine ⟨rfl, fun k => ?_, fun k => ?_⟩
  · by_cases hk : k = c.key
    · subst hk
      have hstart := h.started c.key
      rw [Function.update_self]
      unfold Window.advance
      split_ifs with hnew
      · dsimp only
        omega
      · exact hstart
    · rw [Function.update_of_ne hk]
      exact h.started k
  · by_cases hk : k = c.key
    · subst hk
      exact .inl (by simp)
    · rw [Function.update_of_ne hk, Dict.find_set_of_ne _ _ (Ne.symm hk)]
      exact h.windows k

theorem Limiter.Tracks.allow (h : l.Tracks c.now meter) :
    (l.allow c).1 = decide (((meter c.key).advance l.period c.now).count ≤ l.limit) ∧
      (l.allow c).2.Tracks c.now (Function.update meter c.key ((meter c.key).advance l.period c.now)) := by
  unfold Limiter.allow
  split_ifs
  · exact Limiter.count_tracks hpos hlt (h.evict hpos hlt)
  · exact Limiter.count_tracks hpos hlt h

end

section

variable {l : Limiter} {t : Time} {meter : String → Window} {calls : List AllowCall} (hpos : 0 < l.period)
  (hlt : l.period < 2 ^ 62) (h : l.Tracks t meter) (hsorted : calls.Pairwise (·.now ≤ ·.now))
  (hafter : ∀ c ∈ calls, t ≤ c.now)
include hpos hlt h hsorted hafter

/-- The answers of a limiter that tracks the counters, with and without deletion. -/
theorem Limiter.answers_eq : l.answers calls = meterAnswers l.limit l.period meter calls := by
  induction calls generalizing l t meter with
  | nil => rfl
  | cons c calls ih =>
    obtain ⟨hnext, hrest⟩ := List.pairwise_cons.mp hsorted
    obtain ⟨hanswer, htracks⟩ := Limiter.Tracks.allow hpos hlt (h.later (hafter c (.head _)))
    have hanswers := ih (l := (l.allow c).2) hpos hlt htracks hrest hnext
    rw [Limiter.answers, hanswer, hanswers]
    rfl

theorem Limiter.answersKeeping_eq : l.answersKeeping calls = meterAnswers l.limit l.period meter calls := by
  induction calls generalizing l t meter with
  | nil => rfl
  | cons c calls ih =>
    obtain ⟨hnext, hrest⟩ := List.pairwise_cons.mp hsorted
    obtain ⟨hanswer, htracks⟩ := Limiter.count_tracks hpos hlt (h.later (hafter c (.head _)))
    have hanswers := ih (l := (l.allowKeeping c).2) hpos hlt htracks hrest hnext
    rw [Limiter.answersKeeping, hanswers]
    exact congrArg (· :: _) hanswer

end

theorem answersOn_meterAnswers {limit : ℕ} {period : ℤ} {key : String} {meter meter' : String → Window}
    {calls : List AllowCall} (h : meter key = meter' key) :
    answersOn key calls (meterAnswers limit period meter calls) =
      meterAnswers limit period meter' (calls.filter (·.key = key)) := by
  induction calls generalizing meter meter' with
  | nil => rfl
  | cons c calls ih =>
    unfold answersOn at ih ⊢
    rw [meterAnswers, List.zip_cons_cons]
    by_cases hkey : c.key = key
    · subst hkey
      rw [List.filter_cons_of_pos (by simp), List.filter_cons_of_pos (by simp), h]
      refine congrArg (_ :: ·) (ih ?_)
      rw [Function.update_self, Function.update_self]
    · rw [List.filter_cons_of_neg (by simpa using hkey), List.filter_cons_of_neg (by simpa using hkey)]
      refine ih ?_
      rw [Function.update_of_ne (Ne.symm hkey), h]

/-- The allowed calls on a key are those its own counter allows. -/
theorem allowedWithin_meterAnswers {limit : ℕ} {period a : ℤ} {key : String} {meter : String → Window}
    {calls : List AllowCall} : allowedWithin key period a calls (meterAnswers limit period meter calls) =
      within limit period a (meter key) ((calls.filter (·.key = key)).map (·.now)) := by
  induction calls generalizing meter with
  | nil => rfl
  | cons c calls ih =>
    unfold allowedWithin at ih ⊢
    rw [meterAnswers, List.zip_cons_cons]
    by_cases hkey : c.key = key
    · subst hkey
      have hnext := @ih (Function.update meter c.key ((meter c.key).advance period c.now))
      have hmine : (c :: calls).filter (fun c' => decide (c'.key = c.key)) =
          c :: calls.filter fun c' => decide (c'.key = c.key) := List.filter_cons_of_pos (by simp)
      rw [Function.update_self] at hnext
      rw [hmine, List.map_cons, within_cons, ← hnext, List.filter_cons]
      simp only [true_and, decide_eq_true_eq]
      split_ifs <;> simp [Nat.add_comm]
    · have hnext := @ih (Function.update meter c.key ((meter c.key).advance period c.now))
      rw [Function.update_of_ne (Ne.symm hkey)] at hnext
      rw [List.filter_cons_of_neg (by simp [hkey]), List.filter_cons_of_neg (by simpa using hkey), hnext]

theorem tracks_newLimiter (limit : ℕ) (period t : ℤ) : (newLimiter limit period).Tracks t fun _ => ⟨0, 0⟩ where
  started _ := le_rfl
  windows _ := .inl rfl

/-- With a period whose double is a duration, the limiter is fair on every sequence of
calls. -/
theorem limiter_fair (limit : ℕ) {period : ℤ} (hpos : 0 < period) (hlt : period < 2 ^ 62) {calls : List AllowCall}
    (hsorted : (calls.map (·.now)).Pairwise (· ≤ ·)) : FairLimiter limit period calls := by
  have hanswers : ∀ {cs : List AllowCall}, (cs.map (·.now)).Pairwise (· ≤ ·) →
      (newLimiter limit period).answers cs = meterAnswers limit period (fun _ => ⟨0, 0⟩) cs ∧
      (newLimiter limit period).answersKeeping cs = meterAnswers limit period (fun _ => ⟨0, 0⟩) cs := by
    intro cs hcs
    rw [List.pairwise_map] at hcs
    cases cs with
    | nil => exact ⟨rfl, rfl⟩
    | cons c cs =>
      have hafter : ∀ c' ∈ c :: cs, c.now ≤ c'.now := by
        intro c' hc'
        rcases List.mem_cons.mp hc' with rfl | hc'
        · exact le_rfl
        · exact (List.pairwise_cons.mp hcs).1 c' hc'
      have htracks := tracks_newLimiter limit period c.now
      exact ⟨Limiter.answers_eq hpos hlt htracks hcs hafter, Limiter.answersKeeping_eq hpos hlt htracks hcs hafter⟩
  have hfilter : ∀ key, ((calls.filter (·.key = key)).map (·.now)).Pairwise (· ≤ ·) := by
    intro key
    exact hsorted.sublist (List.filter_sublist.map _)
  refine ⟨?_, fun key => ?_, fun key a => ?_⟩
  · rw [(hanswers hsorted).1, (hanswers hsorted).2]
  · rw [(hanswers hsorted).1, (hanswers (hfilter key)).1]
    exact answersOn_meterAnswers rfl
  · rw [(hanswers hsorted).1, allowedWithin_meterAnswers]
    exact within_le (hfilter key)

def callAt (now : Time) (key : String) : AllowCall := ⟨key, now, .ascending⟩

@[simp] theorem callAt_key (now : Time) (key : String) : (callAt now key).key = key := rfl

@[simp] theorem callAt_now (now : Time) (key : String) : (callAt now key).now = now := rfl

def refusedCalls : List AllowCall := [callAt 5 "a", callAt 6 "b", callAt 7 "a", callAt 8 "a"]

theorem limiter_fair_minute : (newLimiter 2 60000000000).answers refusedCalls = [true, true, true, false] ∧
    FairLimiter 2 60000000000 refusedCalls :=
  ⟨by decide +kernel, limiter_fair 2 (by decide) (by decide) (by decide)⟩

structure Limiter.Filled (l : Limiter) (ks : List String) : Prop where
  limit : l.limit = 1
  period : l.period = 2 ^ 62
  keys : l.windows.keys = ks.toFinset
  windows : ∀ k ∈ ks, l.windows.find k = some ⟨0, 1⟩

section

variable {l : Limiter} {ks : List String} {k : String} (h : l.Filled ks)
include h

theorem Limiter.Filled.count (hk : k ∉ ks) :
    (l.count l.windows (callAt 0 k)).1 = true ∧ (l.count l.windows (callAt 0 k)).2.Filled (ks ++ [k]) := by
  have hnone : l.windows.find k = none := by
    rw [Dict.find_eq_none, h.keys, List.mem_toFinset]
    exact hk
  have hcount : l.count l.windows (callAt 0 k) = (true, { l with windows := l.windows.set k ⟨0, 1⟩ }) := by
    simp [Limiter.count, hnone, h.limit, h.period, subtract]
  rw [hcount]
  refine ⟨rfl, h.limit, h.period, ?_, fun k' hk' => ?_⟩
  · rw [Dict.keys_set, h.keys]
    simp
  · rw [Dict.find_set]
    split_ifs with heq
    · rfl
    · refine h.windows k' ?_
      simpa [Ne.symm heq] using hk'

theorem Limiter.Filled.card (hnodup : ks.Nodup) : l.windows.keys.card = ks.length := by
  rw [h.keys, List.toFinset_card_of_nodup hnodup]

/-- Up to 10000 keys nothing is deleted. -/
theorem Limiter.Filled.allow (hnodup : ks.Nodup) (hlength : ks.length ≤ 10000) (c : AllowCall) :
    l.allow c = l.allowKeeping c := by
  unfold Limiter.allow Limiter.allowKeeping
  rw [if_neg (by rw [h.card hnodup]; omega)]

end

theorem Limiter.Filled.answers {l : Limiter} {ks more : List String} (h : l.Filled ks) (hnodup : (ks ++ more).Nodup)
    (hlength : (ks ++ more).length ≤ 10001) (rest : List AllowCall) : ∃ l' : Limiter, l'.Filled (ks ++ more) ∧
      l.answers (more.map (callAt 0) ++ rest) = more.map (fun _ => true) ++ l'.answers rest ∧
      l.answersKeeping (more.map (callAt 0) ++ rest) = more.map (fun _ => true) ++ l'.answersKeeping rest := by
  induction more generalizing l ks with
  | nil =>
    refine ⟨l, ?_, rfl, rfl⟩
    rw [List.append_nil]
    exact h
  | cons k more ih =>
    have hk : k ∉ ks := fun hmem => List.disjoint_of_nodup_append hnodup hmem (.head _)
    obtain ⟨hallowed, hnext⟩ := h.count hk
    have hsame := h.allow (hnodup.of_append_left) (by simp at hlength; omega) (callAt 0 k)
    rw [List.append_cons] at hnodup hlength
    obtain ⟨l', hfilled, hanswers, hkeeping⟩ := ih hnext hnodup hlength
    rw [← List.append_cons] at hfilled
    refine ⟨l', hfilled, ?_, ?_⟩
    · rw [List.map_cons, List.cons_append, Limiter.answers, hsame]
      unfold Limiter.allowKeeping
      rw [hallowed, hanswers]
      rfl
    · rw [List.map_cons, List.cons_append, Limiter.answersKeeping]
      unfold Limiter.allowKeeping
      rw [hallowed, hkeeping]
      rfl

/-- With more than 10000 keys every window is deleted: twice the period is negative. -/
theorem Limiter.Filled.again {l : Limiter} {ks : List String} (h : l.Filled ks) (hmany : 10000 < l.windows.keys.card)
    {k : String} (hk : k ∈ ks) : (l.allow (callAt 0 k)).1 = true ∧ (l.allowKeeping (callAt 0 k)).1 = false := by
  have hstale : l.stale (callAt 0 k).now ⟨0, 1⟩ := by
    unfold Limiter.stale
    rw [h.period]
    show int64 (2 * 2 ^ 62) < subtract 0 0
    decide
  have hgone : (l.evict (callAt 0 k)).find k = none := by
    rw [find_evict, h.windows k hk, Option.filter_some, if_neg]
    simpa only [decide_not, Bool.not_eq_true, Bool.not_eq_false', decide_eq_true_eq] using hstale
  refine ⟨?_, ?_⟩
  · unfold Limiter.allow
    rw [if_pos hmany]
    simp [Limiter.count, hgone, h.limit, h.period, subtract]
  · simp [Limiter.allowKeeping, Limiter.count, h.windows k hk, h.limit, h.period, subtract]

def manyKeys : List String := (List.range 10001).map fun i => String.ofList (List.replicate i 'k')

theorem nodup_manyKeys : manyKeys.Nodup := by
  refine List.nodup_range.map fun i j hij => ?_
  have hlength := congrArg (fun s : String => s.toList.length) hij
  simpa using hlength

def manyCalls : List AllowCall := manyKeys.map (callAt 0) ++ [callAt 0 ""]

theorem doubled_period_unfair : (manyCalls.map (·.now)).Pairwise (· ≤ ·) ∧ ¬ FairLimiter 1 (2 ^ 62) manyCalls := by
  have hstart : (newLimiter 1 (2 ^ 62)).Filled [] := ⟨rfl, rfl, rfl, fun k hk => absurd hk (List.not_mem_nil)⟩
  have hlength : manyKeys.length = 10001 := by simp [manyKeys]
  have hbound : ([] ++ manyKeys).length ≤ 10001 := by rw [List.nil_append, hlength]
  have hnodup : ([] ++ manyKeys).Nodup := by
    rw [List.nil_append]
    exact nodup_manyKeys
  have hempty : "" ∈ manyKeys := List.mem_map.mpr ⟨0, by simp, rfl⟩
  obtain ⟨l, hfilled, hanswers, hkeeping⟩ := hstart.answers hnodup hbound [callAt 0 ""]
  rw [List.nil_append] at hfilled
  have hcard : 10000 < l.windows.keys.card := by
    rw [hfilled.card nodup_manyKeys]
    omega
  obtain ⟨hallowed, hrefused⟩ := hfilled.again hcard hempty
  refine ⟨?_, fun hfair => ?_⟩
  · have hnow : ∀ t ∈ manyCalls.map (·.now), t = 0 := by
      intro t ht
      rw [manyCalls, ← List.map_singleton, ← List.map_append, List.map_map] at ht
      obtain ⟨k, -, rfl⟩ := List.mem_map.mp ht
      rfl
    exact List.pairwise_of_forall_mem_list fun a ha b hb => (hnow a ha).le.trans (hnow b hb).ge
  · have hsame := hfair.transparent
    unfold manyCalls at hsame
    rw [hanswers, hkeeping] at hsame
    have hlast := List.append_cancel_left hsame
    simp only [Limiter.answers, Limiter.answersKeeping, hallowed, hrefused, List.cons.injEq] at hlast
    cases hlast.1

end Infragraph
