import Infragraph.Spec.ClientIP

/-! What a client can do to the address it is counted under. The loop runs through the
entries of the trusted proxies and stops at the one before them, unless that one is no
address: then it goes on into what the client has sent. -/

namespace Infragraph

variable {trusted : List Prefix}

def PeerTrusted (trusted : List Prefix) (remoteAddr : String) : Prop :=
  ∃ address, parseAddr (trimBrackets (remoteHost remoteAddr)) = some address ∧ trustedProxy trusted address = true

/-- The entry is the address of a trusted proxy. -/
def TrustedEntry (trusted : List Prefix) (entry : String) : Prop :=
  ∃ address, parseAddr (trimSpace entry) = some address ∧ trustedProxy trusted address = true

instance (remoteAddr : String) : Decidable (PeerTrusted trusted remoteAddr) :=
  decidable_of_iff ((parseAddr (trimBrackets (remoteHost remoteAddr))).any (trustedProxy trusted) = true)
    (Option.any_eq_true ..)

instance (entry : String) : Decidable (TrustedEntry trusted entry) :=
  decidable_of_iff ((parseAddr (trimSpace entry)).any (trustedProxy trusted) = true) (Option.any_eq_true ..)

/-- What trusted proxies append: the entry for their client, and those for each other. -/
structure ProxyEntries (trusted : List Prefix) (client : String) (proxies : List String) : Prop where
  separate : ∀ entry ∈ client :: proxies, ',' ∉ entry.toList
  client : ¬ TrustedEntry trusted client
  proxies : ∀ entry ∈ proxies, TrustedEntry trusted entry

def forwarded (sent client : String) (proxies : List String) : String :=
  sent ++ "," ++ ",".intercalate (client :: proxies)

/-- The client has no say in its address. -/
structure Unforgeable (trusted : List Prefix) (remoteAddr client : String) (proxies : List String) : Prop where
  behind : PeerTrusted trusted remoteAddr → ∀ sent sent' more more',
    clientIP trusted ⟨remoteAddr, forwarded sent client proxies :: more⟩ =
      clientIP trusted ⟨remoteAddr, forwarded sent' client proxies :: more'⟩
  direct : ¬ PeerTrusted trusted remoteAddr → ∀ values values',
    clientIP trusted ⟨remoteAddr, values⟩ = clientIP trusted ⟨remoteAddr, values'⟩

theorem clientIP_direct {remoteAddr : String} (h : ¬ PeerTrusted trusted remoteAddr) (values : List String) :
    clientIP trusted ⟨remoteAddr, values⟩ = remoteHost remoteAddr := by
  unfold clientIP
  cases hparse : parseAddr (trimBrackets (remoteHost remoteAddr)) with
  | none => rfl
  | some address =>
    have huntrusted : ¬ trustedProxy trusted address = true := fun htrusted => h ⟨address, hparse, htrusted⟩
    exact if_neg huntrusted

theorem clientIP_behind {remoteAddr : String} {address : Addr}
    (hparse : parseAddr (trimBrackets (remoteHost remoteAddr)) = some address)
    (htrusted : trustedProxy trusted address = true) (value : String) (more : List String) :
    clientIP trusted ⟨remoteAddr, value :: more⟩ =
      (nearestClient trusted address (entriesOf value).reverse).string := by
  simp only [clientIP, hparse, htrusted, if_true, List.headD_cons]

theorem entriesOf_forwarded {client : String} {proxies : List String} (h : ProxyEntries trusted client proxies)
    (sent : String) : entriesOf (forwarded sent client proxies) = entriesOf sent ++ client :: proxies := by
  have hentries : ∀ entry ∈ (client :: proxies).map String.toList, ',' ∉ entry := by
    intro entry hentry
    obtain ⟨text, htext, rfl⟩ := List.mem_map.mp hentry
    exact h.separate text htext
  have hcomma : ",".toList = [','] := rfl
  unfold entriesOf forwarded
  rw [String.toList_append, String.toList_append, hcomma, List.append_assoc, List.singleton_append,
    List.splitOn_append_cons_self, String.toList_intercalate, hcomma, List.splitOn_intercalate _ hentries (by simp),
    List.map_append]
  simp [Function.comp_def]

/-- The loop passes the entries of trusted proxies, and only the last one it has passed
matters for what follows. -/
theorem nearestClient_append {proxies : List String} (h : ∀ entry ∈ proxies, TrustedEntry trusted entry)
    (address : Addr) : ∃ passed, ∀ entries,
      nearestClient trusted address (proxies ++ entries) = nearestClient trusted passed entries := by
  induction proxies generalizing address with
  | nil => exact ⟨address, fun entries => rfl⟩
  | cons entry proxies ih =>
    obtain ⟨candidate, hparse, htrusted⟩ := h entry (.head _)
    obtain ⟨passed, hpassed⟩ := ih (fun e he => h e (.tail _ he)) candidate
    refine ⟨passed, fun entries => ?_⟩
    rw [List.cons_append, nearestClient, hparse]
    simp only [htrusted, if_true]
    exact hpassed entries

theorem nearestClient_untrusted {client : String} {address candidate : Addr} (entries : List String)
    (hparse : parseAddr (trimSpace client) = some candidate) (h : ¬ TrustedEntry trusted client) :
    nearestClient trusted address (client :: entries) = candidate := by
  have huntrusted : ¬ trustedProxy trusted candidate = true := fun htrusted => h ⟨candidate, hparse, htrusted⟩
  rw [nearestClient, hparse]
  exact if_neg huntrusted

/-- A lone address is taken, trusted or not. -/
theorem nearestClient_singleton {client : String} {address candidate : Addr}
    (hparse : parseAddr (trimSpace client) = some candidate) :
    nearestClient trusted address [client] = candidate := by
  rw [nearestClient, hparse]
  simp only [nearestClient, ite_self]

/-- Behind a trusted peer the client has no say just when the entry that its proxies have
made for it is an address. -/
theorem unforgeable_iff {client : String} {proxies : List String} (h : ProxyEntries trusted client proxies)
    (remoteAddr : String) : Unforgeable trusted remoteAddr client proxies ↔
      (PeerTrusted trusted remoteAddr → (parseAddr (trimSpace client)).isSome = true) := by
  have hdirect : ¬ PeerTrusted trusted remoteAddr → ∀ values values',
      clientIP trusted ⟨remoteAddr, values⟩ = clientIP trusted ⟨remoteAddr, values'⟩ := by
    intro huntrusted values values'
    rw [clientIP_direct huntrusted, clientIP_direct huntrusted]
  by_cases hpeer : PeerTrusted trusted remoteAddr
  · obtain ⟨address, hparse, htrusted⟩ := hpeer
    obtain ⟨passed, hpassed⟩ := nearestClient_append
      (fun entry hentry => h.proxies entry (List.mem_reverse.mp hentry)) address
    have hresult : ∀ sent more, clientIP trusted ⟨remoteAddr, forwarded sent client proxies :: more⟩ =
        (nearestClient trusted passed (client :: (entriesOf sent).reverse)).string := by
      intro sent more
      rw [clientIP_behind hparse htrusted, entriesOf_forwarded h, List.reverse_append, List.reverse_cons,
        List.append_assoc, hpassed, List.singleton_append]
    refine ⟨fun hfixed _ => ?_, fun hsome => ⟨fun _ sent sent' more more' => ?_, hdirect⟩⟩
    · by_contra hnone
      have hskip : parseAddr (trimSpace client) = none := by simpa using hnone
      have hsent := hfixed.behind ⟨address, hparse, htrusted⟩ "0.0.0.0" "0.0.0.1" [] []
      -- the entry is skipped, and the address that was sent is taken
      have hzero : nearestClient trusted passed ["0.0.0.0"] = .v4 0 := nearestClient_singleton (by decide)
      have hone : nearestClient trusted passed ["0.0.0.1"] = .v4 1 := nearestClient_singleton (by decide)
      rw [hresult, hresult, nearestClient, nearestClient, hskip] at hsent
      change (nearestClient trusted passed ["0.0.0.0"]).string =
        (nearestClient trusted passed ["0.0.0.1"]).string at hsent
      rw [hzero, hone] at hsent
      revert hsent
      decide
    · obtain ⟨candidate, hcandidate⟩ := Option.isSome_iff_exists.mp (hsome ⟨address, hparse, htrusted⟩)
      rw [hresult, hresult, nearestClient_untrusted _ hcandidate h.client,
        nearestClient_untrusted _ hcandidate h.client]
  · exact ⟨fun _ htrusted => absurd htrusted hpeer, fun _ => ⟨fun htrusted => absurd htrusted hpeer, hdirect⟩⟩

def tenNet : Prefix := ⟨.v4 0x0A000000, 8, by decide⟩

theorem unforgeable_iff_address : Unforgeable [tenNet] "10.0.0.4:1234" " 203.0.113.5" [" 10.0.0.3"] :=
  (unforgeable_iff ⟨by decide, by decide, by decide⟩ "10.0.0.4:1234").mpr fun _ => by decide

/-- A proxy that writes `unknown` for its client lets the client choose. -/
theorem unknown_forgeable : ProxyEntries [tenNet] " unknown" [" 10.0.0.3"] ∧
    PeerTrusted [tenNet] "10.0.0.4:1234" ∧
    clientIP [tenNet] ⟨"10.0.0.4:1234", [forwarded "198.51.100.1" " unknown" [" 10.0.0.3"]]⟩ = "198.51.100.1" ∧
    clientIP [tenNet] ⟨"10.0.0.4:1234", [forwarded "198.51.100.2" " unknown" [" 10.0.0.3"]]⟩ = "198.51.100.2" :=
  ⟨⟨by decide, by decide, by decide⟩, by decide, by decide, by decide⟩

end Infragraph
