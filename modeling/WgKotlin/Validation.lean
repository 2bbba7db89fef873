import WgKotlin.Config
import WgKotlin.Util.Prefix
import WgKotlin.Library.LinkedMap

/-!
# Validation of the client

The checks of `VpnValidation.kt`, and what a list of peers that passes them
satisfies: public keys are unique, every peer has an endpoint, and one network has
one owner.
-/

namespace WgKotlin

open Proto Kotlin Util Library

/-- `groupingBy { it }.eachCount()` -/
def eachCount (keys : List String) : LinkedMap String Nat :=
  keys.foldl (fun counts key => counts.put key ((counts.get key).getD 0 + 1)) LinkedMap.empty

/-- The keys that occur more than once, in the order of their first occurrence. -/
def duplicatedKeys (keys : List String) : List String :=
  ((eachCount keys).entries.filter fun entry => decide (1 < entry.2)).map Prod.fst

def requireUniqueKeys (keys : List String) : Except Throwable Unit :=
  require (duplicatedKeys keys).isEmpty
    ("Peer public keys must be unique. Duplicated keys: " ++
      ", ".intercalate (duplicatedKeys keys))

def requireUniqueParsedPeerPublicKeys (peers : List ParsedVpnPeer) : Except Throwable Unit :=
  requireUniqueKeys (peers.map ParsedVpnPeer.publicKey)

def requireUniquePeerPublicKeys (peers : List VpnPeer) : Except Throwable Unit :=
  requireUniqueKeys (peers.map VpnPeer.publicKey)

/-- The body of the loop of `requireUserspacePeerEndpoints`. -/
def requireUserspacePeerEndpoint (index : Nat) (peer : ParsedVpnPeer) :
    Except Throwable Unit := do
  require (peer.endpointAddress.isSome || peer.endpointHost.isSome)
    ("Peer `" ++ peer.publicKey ++ "` at index " ++ toString index ++
      " must define endpointAddress or endpointHost for BORINGTUN userspace runtime")
  require peer.endpointPort.isSome
    ("Peer `" ++ peer.publicKey ++ "` at index " ++ toString index ++
      " must define endpointPort for BORINGTUN userspace runtime")

def requireUserspacePeerEndpoints (peers : List ParsedVpnPeer) : Except Throwable Unit :=
  eachFrom requireUserspacePeerEndpoint 0 peers

/-- The inner loop of `requireDistinctAllowedIpOwnership`, over the allowed IPs
of one peer. -/
def claimAllowedIps (publicKey : String) (seen : LinkedMap String String) :
    List Cidr → Except Throwable (LinkedMap String String)
  | [] => .ok seen
  | allowedIp :: rest => do
    let key ← normalizedKey allowedIp
    let previous := seen.get key
    let seen := seen.put key publicKey
    match previous with
    | some owner =>
      if owner ≠ publicKey then do
        let text ← toCidrString allowedIp
        Kotlin.error ("Allowed IP `" ++ text ++ "` overlaps between " ++
          "`" ++ owner ++ "` and `" ++ publicKey ++ "`")
      else claimAllowedIps publicKey seen rest
    | none => claimAllowedIps publicKey seen rest

def claimPeers (seen : LinkedMap String String) :
    List ParsedVpnPeer → Except Throwable (LinkedMap String String)
  | [] => .ok seen
  | peer :: rest => do
    let seen ← claimAllowedIps peer.publicKey seen peer.allowedIps
    claimPeers seen rest

def requireDistinctAllowedIpOwnership (peers : List ParsedVpnPeer) : Except Throwable Unit := do
  let _ ← claimPeers LinkedMap.empty peers
  .ok ()

def requireNonBlankInterfaceName (interfaceName : String) : Except Throwable Unit :=
  require (!isBlank interfaceName) "Interface name cannot be empty"

/-- `Regex("utun[0-9]+").matches(interfaceName)` -/
def matchesInterfaceName (interfaceName : String) : Bool :=
  let digits := interfaceName.toList.drop 4
  interfaceName.toList.take 4 == "utun".toList && !digits.isEmpty && digits.all Char.isDigit

def requireValidRegex (interfaceName : String) : Except Throwable Unit :=
  require (matchesInterfaceName interfaceName) "Interface name must match `utun[0-9]+`."

def requireValidConfiguration (config : VpnConfiguration) : Except Throwable Unit := do
  requireNonBlankInterfaceName config.interfaceName
  requireValidRegex config.interfaceName
  requireUniquePeerPublicKeys config.peers

/-! ### Endpoints -/

theorem requireUserspacePeerEndpoints_eq_ok {peers : List ParsedVpnPeer} :
    requireUserspacePeerEndpoints peers = .ok () ↔
      ∀ peer ∈ peers, (peer.endpointAddress.isSome || peer.endpointHost.isSome) = true ∧
        peer.endpointPort.isSome = true := by
  refine eachFrom_eq_ok ?_
  intro index peer
  rw [requireUserspacePeerEndpoint, bind_eq_ok]
  constructor
  · intro h
    obtain ⟨_, haddress, hport⟩ := h
    exact ⟨require_eq_ok.mp haddress, require_eq_ok.mp hport⟩
  · intro h
    exact ⟨(), require_eq_ok.mpr h.1, require_eq_ok.mpr h.2⟩

/-! ### Unique keys -/

theorem eachCount_append (keys : List String) (key : String) :
    eachCount (keys ++ [key]) =
      (eachCount keys).put key (((eachCount keys).get key).getD 0 + 1) := by
  rw [eachCount, eachCount, List.foldl_append]
  rfl

/-- Each key is counted as often as it occurs. -/
theorem eachCount_get (keys : List String) (key : String) :
    (eachCount keys).get key = if key ∈ keys then some (keys.count key) else none := by
  induction keys using List.reverseRecOn with
  | nil => rfl
  | append_singleton keys last ih =>
      rw [eachCount_append, LinkedMap.get_put]
      by_cases h : last = key
      · subst h
        rw [if_pos rfl, if_pos (List.mem_append_right _ List.mem_cons_self), ih]
        by_cases hm : last ∈ keys
        · simp [hm]
        · simp [hm, List.count_eq_zero_of_not_mem hm]
      · rw [if_neg h, ih]
        have h' : key ≠ last := fun e => h e.symm
        simp [h, h']

theorem duplicatedKeys_eq_nil_iff {keys : List String} : duplicatedKeys keys = [] ↔ keys.Nodup := by
  rw [duplicatedKeys, List.map_eq_nil_iff, List.filter_eq_nil_iff, List.nodup_iff_count_le_one]
  constructor
  · intro h key
    by_cases hm : key ∈ keys
    · have hget := eachCount_get keys key
      rw [if_pos hm] at hget
      have hno := h (key, keys.count key) (LinkedMap.get_eq_some_iff.mp hget)
      rw [decide_eq_true_eq] at hno
      exact Nat.le_of_not_lt hno
    · rw [List.count_eq_zero_of_not_mem hm]
      omega
  · intro h entry hentry
    have hget := LinkedMap.get_eq_some_iff.mpr (show (entry.1, entry.2) ∈ _ from hentry)
    rw [eachCount_get] at hget
    by_cases hm : entry.1 ∈ keys
    · rw [if_pos hm, Option.some.injEq] at hget
      have := h entry.1
      rw [decide_eq_true_eq]
      omega
    · rw [if_neg hm] at hget
      cases hget

theorem requireUniqueKeys_eq_ok {keys : List String} :
    requireUniqueKeys keys = .ok () ↔ keys.Nodup := by
  rw [requireUniqueKeys, require_eq_ok, List.isEmpty_iff, duplicatedKeys_eq_nil_iff]

/-! ### One owner per network -/

/-- Claiming the allowed IPs of one peer keeps every earlier claim and records
its own. -/
theorem claimAllowedIps_spec {publicKey : String} {seen seen' : LinkedMap String String}
    {allowedIps : List Cidr} (h : claimAllowedIps publicKey seen allowedIps = .ok seen') :
    (∀ key owner, seen.get key = some owner → seen'.get key = some owner) ∧
      ∀ c ∈ allowedIps, ∃ key, normalizedKey c = .ok key ∧ seen'.get key = some publicKey := by
  induction allowedIps generalizing seen with
  | nil =>
      cases h
      exact ⟨fun _ _ hget => hget, fun c hc => (by cases hc)⟩
  | cons allowedIp rest ih =>
      rw [claimAllowedIps, bind_eq_ok] at h
      obtain ⟨key, hkey, h⟩ := h
      have hnext : claimAllowedIps publicKey (seen.put key publicKey) rest = .ok seen' ∧
          ∀ owner, seen.get key = some owner → owner = publicKey := by
        cases hprev : seen.get key with
        | none =>
            simp only [hprev] at h
            exact ⟨h, fun owner ho => (by cases ho)⟩
        | some owner =>
            simp only [hprev] at h
            by_cases ho : owner = publicKey
            · rw [if_neg (not_not.mpr ho)] at h
              exact ⟨h, fun owner' ho' => (Option.some.inj ho').symm.trans ho⟩
            · rw [if_pos ho, bind_eq_ok] at h
              obtain ⟨_, _, h⟩ := h
              cases h
      obtain ⟨hkeep, hclaims⟩ := ih hnext.1
      refine ⟨fun k owner hk => ?_, fun c hc => ?_⟩
      · apply hkeep
        rw [LinkedMap.get_put]
        by_cases he : key = k
        · subst he
          rw [if_pos rfl, hnext.2 owner hk]
        · rw [if_neg he, hk]
      · rcases List.mem_cons.mp hc with rfl | hc
        · exact ⟨key, hkey, hkeep key publicKey (LinkedMap.get_put_self _ _ _)⟩
        · exact hclaims c hc

theorem claimPeers_spec {seen seen' : LinkedMap String String} {peers : List ParsedVpnPeer}
    (h : claimPeers seen peers = .ok seen') :
    (∀ key owner, seen.get key = some owner → seen'.get key = some owner) ∧
      ∀ peer ∈ peers, ∀ c ∈ peer.allowedIps,
        ∃ key, normalizedKey c = .ok key ∧ seen'.get key = some peer.publicKey := by
  induction peers generalizing seen with
  | nil =>
      cases h
      exact ⟨fun _ _ hget => hget, fun peer hpeer => (by cases hpeer)⟩
  | cons peer rest ih =>
      rw [claimPeers, bind_eq_ok] at h
      obtain ⟨mid, hmid, h⟩ := h
      obtain ⟨hkeep, hclaims⟩ := ih h
      obtain ⟨hkeep', hclaims'⟩ := claimAllowedIps_spec hmid
      refine ⟨fun key owner hk => hkeep key owner (hkeep' key owner hk), fun p hp c hc => ?_⟩
      rcases List.mem_cons.mp hp with rfl | hp
      · obtain ⟨key, hkey, hget⟩ := hclaims' c hc
        exact ⟨key, hkey, hkeep key _ hget⟩
      · exact hclaims p hp c hc

/-- Peers that pass the check and share a network are one peer. -/
theorem owner_unique {peers : List ParsedVpnPeer}
    (h : requireDistinctAllowedIpOwnership peers = .ok ()) {p q : ParsedVpnPeer} {c d : Cidr}
    (hp : p ∈ peers) (hq : q ∈ peers) (hc : c ∈ p.allowedIps) (hd : d ∈ q.allowedIps)
    (hkey : normalizedKey c = normalizedKey d) : p.publicKey = q.publicKey := by
  obtain ⟨seen, hseen, _⟩ := bind_eq_ok.mp h
  obtain ⟨k, hk, hget⟩ := (claimPeers_spec hseen).2 p hp c hc
  obtain ⟨k', hk', hget'⟩ := (claimPeers_spec hseen).2 q hq d hd
  rw [hkey, hk', Except.ok.injEq] at hk
  rw [hk, hget] at hget'
  exact Option.some.inj hget'

end WgKotlin
