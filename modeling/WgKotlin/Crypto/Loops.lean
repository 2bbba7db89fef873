import WgKotlin.Crypto.Routing

/-!
# The packet loops

Each loop of the session manager holds `reconcileMutex` for one iteration.  An
iteration reads the sessions, calls some of them and updates the statistics.
What a called session answers is a parameter.  An exception ends the iteration
and keeps the statistics written before it.
-/

namespace WgKotlin
namespace Crypto

open Proto Util Kotlin Library

structure MutablePeerStats where
  receivedBytes : Int64 := 0
  transmittedBytes : Int64 := 0
  deriving DecidableEq

/-- The two fields of the manager that the loops share with `reconcileSessions`. -/
structure Guarded where
  sessionEntriesByPeer : LinkedMap String PeerSessionEntry
  peerStatsByPublicKey : LinkedMap String MutablePeerStats
  deriving DecidableEq

/-- The answer of a session to one call. -/
abbrev Reply := Except Throwable PacketAction

/-- What an iteration has done so far.  Calls are listed with the last one
first. -/
structure Iteration where
  peerStatsByPublicKey : LinkedMap String MutablePeerStats
  called : List PeerSession := []
  pendingNetwork : List UdpDatagram := []
  pendingTun : List Bytes := []

namespace Iteration

def start (guarded : Guarded) : Iteration :=
  { peerStatsByPublicKey := guarded.peerStatsByPublicKey }

def call (it : Iteration) (session : PeerSession) : Iteration :=
  { it with called := session :: it.called }

/-- `peerStatsByPublicKey.getOrPut(publicKey) { MutablePeerStats() }`, updated. -/
def updateStats (it : Iteration) (publicKey : String)
    (update : MutablePeerStats → MutablePeerStats) : Iteration :=
  let stats := (it.peerStatsByPublicKey.get publicKey).getD {}
  { it with peerStatsByPublicKey := it.peerStatsByPublicKey.put publicKey (update stats) }

def addTransmitted (it : Iteration) (publicKey : String) (size : Nat) : Iteration :=
  it.updateStats publicKey fun stats =>
    { stats with transmittedBytes := stats.transmittedBytes + Int64.ofNat size }

def addReceived (it : Iteration) (publicKey : String) (size : Nat) : Iteration :=
  it.updateStats publicKey fun stats =>
    { stats with receivedBytes := stats.receivedBytes + Int64.ofNat size }

end Iteration

/-- The `when` over the action a session returned to `operation`.  The periodic
loop drops packets for the TUN device. -/
def handleAction (operation : String) (forwardsToTun : Bool) (entry : PeerSessionEntry)
    (action : PacketAction) (it : Iteration) : Iteration × Except Throwable Unit :=
  match action with
  | .done => (it, .ok ())
  | .writeToNetwork packet =>
    let it := it.addTransmitted entry.peer.publicKey packet.length
    match peerEndpoint entry with
    | .error throwable => (it, .error throwable)
    | .ok endpoint =>
      let datagram : UdpDatagram := { payload := packet, remoteEndpoint := endpoint }
      ({ it with pendingNetwork := it.pendingNetwork ++ [datagram] }, .ok ())
  | .writeToTunIpv4 packet | .writeToTunIpv6 packet =>
    (if forwardsToTun then { it with pendingTun := it.pendingTun ++ [packet] } else it, .ok ())
  | .error code =>
    (it, Kotlin.error ("Session `" ++ entry.session.peerPublicKey ++ "` returned error code `" ++
      toString code.toNat ++ "` for `" ++ operation ++ "`"))
  | .notSupported unsupported =>
    (it, Kotlin.error ("Session `" ++ entry.session.peerPublicKey ++ "` does not support `" ++
      unsupported ++ "`"))

/-- One iteration of `runCleartextIngressLoop` under the lock. -/
def cleartextIteration (packet : Bytes) (reply : Reply) (guarded : Guarded) :
    Iteration × Except Throwable Unit :=
  let it := Iteration.start guarded
  match selectSessionForPacket packet guarded.sessionEntriesByPeer.values with
  | .error throwable => (it, .error throwable)
  | .ok none => (it, .ok ())
  | .ok (some selected) =>
    let it := it.call selected.session
    match reply with
    | .error throwable => (it, .error throwable)
    | .ok action => handleAction "encryptRawPacket" true selected action it

def defaultMaxFlushIterations : Nat := 256

/-- The `while` loop of `runEncryptedIngressLoop`.  `left` more actions may be
handled before the flush limit, and `replies i` answers the call after `i`
actions. -/
def flush (selected : PeerSessionEntry) (replies : Nat → Reply) :
    Nat → Nat → PacketAction → Iteration → Iteration × Except Throwable Unit
  | _, _, .done, it => (it, .ok ())
  | 0, _, _, it =>
    (it, Kotlin.error ("Session `" ++ selected.session.peerPublicKey ++
      "` exceeded flush limit while decrypting packets"))
  | left + 1, handled, action, it =>
    match handleAction "decryptToRawPacket" true selected action it with
    | (it, .error throwable) => (it, .error throwable)
    | (it, .ok ()) =>
      -- `iterations >= DEFAULT_MAX_FLUSH_ITERATIONS` is tested after each action.
      if left = 0 then
        (it, Kotlin.error ("Session `" ++ selected.session.peerPublicKey ++
          "` exceeded flush limit while decrypting packets"))
      else
        let it := it.call selected.session
        match replies (handled + 1) with
        | .error throwable => (it, .error throwable)
        | .ok next => flush selected replies left (handled + 1) next it

/-- `entry.peer.endpointAddress?.toPlainString()` compared with a source
address. -/
def endpointMatches (remote : UdpEndpoint) (entry : PeerSessionEntry) : Except Throwable Bool := do
  let address ←
    match entry.peer.endpointAddress with
    | none => .ok none
    | some ip => do
      let text ← toPlainString ip
      .ok (some text)
  .ok (decide (address = some remote.address) &&
    decide (entry.peer.endpointPort = some remote.port))

/-- `firstOrNull` with a test that can throw. -/
def firstMatch (remote : UdpEndpoint) :
    List PeerSessionEntry → Except Throwable (Option PeerSessionEntry)
  | [] => .ok none
  | entry :: rest => do
    let found ← endpointMatches remote entry
    if found then .ok (some entry) else firstMatch remote rest

/-- One iteration of `runEncryptedIngressLoop` under the lock. -/
def encryptedIteration (datagram : UdpDatagram) (replies : Nat → Reply) (guarded : Guarded) :
    Iteration × Except Throwable Unit :=
  let it := Iteration.start guarded
  match firstMatch datagram.remoteEndpoint guarded.sessionEntriesByPeer.values with
  | .error throwable => (it, .error throwable)
  | .ok none => (it, .ok ())
  | .ok (some selected) =>
    let it := it.addReceived selected.peer.publicKey datagram.payload.length
    let it := it.call selected.session
    match replies 0 with
    | .error throwable => (it, .error throwable)
    | .ok action => flush selected replies defaultMaxFlushIterations 0 action it

/-- The `forEach` of `runPeriodicLoop`; `replies i` answers its `i`-th call. -/
def periodicEntries (replies : Nat → Reply) :
    Nat → List PeerSessionEntry → Iteration → Iteration × Except Throwable Unit
  | _, [], it => (it, .ok ())
  | i, entry :: rest, it =>
    let it := it.call entry.session
    match replies i with
    | .error throwable => (it, .error throwable)
    | .ok action =>
      match handleAction "runPeriodicTask" false entry action it with
      | (it, .error throwable) => (it, .error throwable)
      | (it, .ok ()) => periodicEntries replies (i + 1) rest it

/-- One iteration of `runPeriodicLoop` under the lock. -/
def periodicIteration (replies : Nat → Reply) (guarded : Guarded) :
    Iteration × Except Throwable Unit :=
  periodicEntries replies 0 guarded.sessionEntriesByPeer.values (Iteration.start guarded)

/-! ### Iterations call sessions of the map -/

@[simp] theorem Iteration.called_call (it : Iteration) (session : PeerSession) :
    (it.call session).called = session :: it.called := rfl

@[simp] theorem Iteration.called_addReceived (it : Iteration) (publicKey : String) (size : Nat) :
    (it.addReceived publicKey size).called = it.called := rfl

/-- Acting on what a session returned calls no session. -/
@[simp] theorem called_handleAction (operation : String) (forwardsToTun : Bool)
    (entry : PeerSessionEntry) (action : PacketAction) (it : Iteration) :
    (handleAction operation forwardsToTun entry action it).1.called = it.called := by
  cases action with
  | writeToNetwork packet =>
      unfold handleAction
      cases peerEndpoint entry <;> rfl
  | writeToTunIpv4 packet => cases forwardsToTun <;> rfl
  | writeToTunIpv6 packet => cases forwardsToTun <;> rfl
  | _ => rfl

theorem mem_of_handleAction {operation : String} {forwardsToTun : Bool} {entry : PeerSessionEntry}
    {action : PacketAction} {it it' : Iteration} {result : Except Throwable Unit}
    (h : handleAction operation forwardsToTun entry action it = (it', result)) {s : PeerSession}
    (hs : s ∈ it'.called) : s ∈ it.called := by
  have hcalled := called_handleAction operation forwardsToTun entry action it
  rw [h] at hcalled
  rw [← hcalled]
  exact hs

theorem mem_called_flush {selected : PeerSessionEntry} {replies : Nat → Reply}
    {left handled : Nat} {action : PacketAction} {it : Iteration} {s : PeerSession}
    (hs : s ∈ (flush selected replies left handled action it).1.called) :
    s ∈ it.called ∨ s = selected.session := by
  fun_induction flush selected replies left handled action it with
  | case1 => exact Or.inl hs
  | case2 => exact Or.inl hs
  | case3 _ _ _ _ _ _ _ hhandle => exact Or.inl (mem_of_handleAction hhandle hs)
  | case4 _ _ _ _ _ hhandle => exact Or.inl (mem_of_handleAction hhandle hs)
  | case5 _ _ _ _ _ _ hhandle =>
      rcases List.mem_cons.mp hs with rfl | hs
      · exact Or.inr rfl
      · exact Or.inl (mem_of_handleAction hhandle hs)
  | case6 _ _ _ _ _ _ hhandle _ _ _ _ ih =>
      rcases ih hs with hs | rfl
      · rcases List.mem_cons.mp hs with rfl | hs
        · exact Or.inr rfl
        · exact Or.inl (mem_of_handleAction hhandle hs)
      · exact Or.inr rfl

theorem firstMatch_eq_some {remote : UdpEndpoint} {entries : List PeerSessionEntry}
    {selected : PeerSessionEntry} (h : firstMatch remote entries = .ok (some selected)) :
    selected ∈ entries ∧ endpointMatches remote selected = .ok true := by
  induction entries with
  | nil => cases h
  | cons entry rest ih =>
      obtain ⟨found, hfound, h⟩ := bind_eq_ok.mp h
      cases found with
      | true =>
          cases h
          exact ⟨List.mem_cons_self, hfound⟩
      | false => exact ⟨List.mem_cons_of_mem entry (ih h).1, (ih h).2⟩

theorem mem_called_periodicEntries {replies : Nat → Reply} {i : Nat}
    {entries : List PeerSessionEntry} {it : Iteration} {s : PeerSession}
    (hs : s ∈ (periodicEntries replies i entries it).1.called) :
    s ∈ it.called ∨ ∃ e ∈ entries, e.session = s := by
  fun_induction periodicEntries replies i entries it with
  | case1 => exact Or.inl hs
  | case2 _ entry rest _ _ =>
      rcases List.mem_cons.mp hs with rfl | hs
      · exact Or.inr ⟨entry, List.mem_cons_self, rfl⟩
      · exact Or.inl hs
  | case3 _ entry rest _ _ _ _ _ _ hhandle =>
      rcases List.mem_cons.mp (mem_of_handleAction hhandle hs) with rfl | hs
      · exact Or.inr ⟨entry, List.mem_cons_self, rfl⟩
      · exact Or.inl hs
  | case4 _ entry rest _ _ _ _ _ hhandle ih =>
      rcases ih hs with hs | ⟨e, he, rfl⟩
      · rcases List.mem_cons.mp (mem_of_handleAction hhandle hs) with rfl | hs
        · exact Or.inr ⟨entry, List.mem_cons_self, rfl⟩
        · exact Or.inl hs
      · exact Or.inr ⟨e, List.mem_cons_of_mem entry he, rfl⟩

/-- The iterations of the three loops, with what the environment supplies. -/
inductive LoopLabel
  | cleartext (packet : Bytes) (reply : Reply)
  | encrypted (datagram : UdpDatagram) (replies : Nat → Reply)
  | periodic (replies : Nat → Reply)

def LoopLabel.iteration (label : LoopLabel) (guarded : Guarded) :
    Iteration × Except Throwable Unit :=
  match label with
  | .cleartext packet reply => cleartextIteration packet reply guarded
  | .encrypted datagram replies => encryptedIteration datagram replies guarded
  | .periodic replies => periodicIteration replies guarded

/-- The peer whose session an iteration of an ingress loop calls. -/
def LoopLabel.selected (entries : List PeerSessionEntry) : LoopLabel → Option PeerSessionEntry
  | .cleartext packet _ => (selectSessionForPacket packet entries).toOption.join
  | .encrypted datagram _ => (firstMatch datagram.remoteEndpoint entries).toOption.join
  | .periodic _ => none

/-- The sessions that an iteration calls are sessions of the map. -/
theorem mem_called_iteration {label : LoopLabel} {guarded : Guarded} {s : PeerSession}
    (hs : s ∈ (label.iteration guarded).1.called) :
    ∃ e ∈ guarded.sessionEntriesByPeer.values, e.session = s := by
  cases label with
  | cleartext packet reply =>
      simp only [LoopLabel.iteration, cleartextIteration] at hs
      split at hs
      · cases hs
      · cases hs
      · next selected hselected =>
          have hmem := selectSessionForPacket_mem hselected
          have hcalled : s ∈ [selected.session] := by
            split at hs
            · exact hs
            · rw [called_handleAction] at hs
              exact hs
          exact ⟨selected, hmem, (List.mem_singleton.mp hcalled).symm⟩
  | encrypted datagram replies =>
      simp only [LoopLabel.iteration, encryptedIteration] at hs
      split at hs
      · cases hs
      · cases hs
      · next selected hselected =>
          have hmem := (firstMatch_eq_some hselected).1
          have hcalled : s ∈ [selected.session] ∨ s = selected.session := by
            split at hs
            · exact Or.inl hs
            · exact mem_called_flush hs
          rw [List.mem_singleton, or_self] at hcalled
          exact ⟨selected, hmem, hcalled.symm⟩
  | periodic replies =>
      rcases mem_called_periodicEntries hs with hs | he
      · cases hs
      · exact he

end Crypto
end WgKotlin
