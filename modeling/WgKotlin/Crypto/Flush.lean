import WgKotlin.Crypto.Loops

/-!
# The flush of the encrypted loop

A datagram is answered by a list of writes that ends with `Done`.  The encrypted
loop collects the writes under the lock and sends them after it, so a datagram is
either answered in full or not at all.  The loop gives up when the list has not
ended after 256 results.
-/

namespace WgKotlin
namespace Crypto

open Proto Util Kotlin Library

/-! ### Lists of writes -/

/-- A result that carries a packet. -/
def PacketAction.isWrite : PacketAction → Bool
  | .writeToNetwork _ | .writeToTunIpv4 _ | .writeToTunIpv6 _ => true
  | _ => false

def PacketAction.networkPacket? : PacketAction → Option Bytes
  | .writeToNetwork packet => some packet
  | _ => none

def PacketAction.tunPacket? : PacketAction → Option Bytes
  | .writeToTunIpv4 packet | .writeToTunIpv6 packet => some packet
  | _ => none

/-- The session answers the calls from `handled` on with these writes and then
with `Done`. -/
structure Drains (replies : Nat → Reply) (handled : Nat) (writes : List PacketAction) : Prop where
  write : ∀ action ∈ writes, action.isWrite = true
  reply : ∀ i action, writes[i]? = some action → replies (handled + i) = .ok action
  done : replies (handled + writes.length) = .ok .done

namespace Drains

variable {replies : Nat → Reply} {handled : Nat} {action : PacketAction}
  {writes : List PacketAction}

theorem nil (h : replies handled = .ok .done) : Drains replies handled [] where
  write := fun _ hmem => (by cases hmem)
  reply := fun _ _ hget => (by cases hget)
  done := h

theorem cons (hwrite : action.isWrite = true) (haction : replies handled = .ok action)
    (h : Drains replies (handled + 1) writes) : Drains replies handled (action :: writes) where
  write := List.forall_mem_cons.mpr ⟨hwrite, h.write⟩
  reply := by
    intro i action' hget
    cases i with
    | zero =>
        cases hget
        exact haction
    | succ i =>
        have hreply := h.reply i action' hget
        rwa [show handled + (i + 1) = handled + 1 + i by omega]
  done := by
    have hdone := h.done
    rwa [show handled + (action :: writes).length = handled + 1 + writes.length by
      rw [List.length_cons]; omega]

theorem head (h : Drains replies handled (action :: writes)) :
    action.isWrite = true ∧ replies handled = .ok action :=
  ⟨h.write action List.mem_cons_self, h.reply 0 action rfl⟩

theorem tail (h : Drains replies handled (action :: writes)) :
    Drains replies (handled + 1) writes where
  write := fun a ha => h.write a (List.mem_cons_of_mem action ha)
  reply := by
    intro i a hget
    have hreply := h.reply (i + 1) a hget
    rwa [show handled + (i + 1) = handled + 1 + i by omega] at hreply
  done := by
    have hdone := h.done
    rwa [List.length_cons, show handled + (writes.length + 1) = handled + 1 + writes.length by
      omega] at hdone

end Drains

/-! ### Handling one write -/

/-- The counters of a peer; a peer without an entry starts at zero. -/
def statsOf (stats : LinkedMap String MutablePeerStats) (publicKey : String) : MutablePeerStats :=
  (stats.get publicKey).getD {}

/-- Counters after some more bytes, as `Long` adds them. -/
def MutablePeerStats.plus (stats : MutablePeerStats) (received transmitted : Nat) :
    MutablePeerStats where
  receivedBytes := stats.receivedBytes + Int64.ofNat received
  transmittedBytes := stats.transmittedBytes + Int64.ofNat transmitted

@[simp] theorem MutablePeerStats.plus_zero (stats : MutablePeerStats) : stats.plus 0 0 = stats := by
  have hzero : Int64.ofNat 0 = 0 := rfl
  rw [plus, hzero, Int64.add_zero, Int64.add_zero]

theorem MutablePeerStats.plus_plus (stats : MutablePeerStats) (r t r' t' : Nat) :
    (stats.plus r t).plus r' t' = stats.plus (r + r') (t + t') := by
  simp only [plus, Int64.ofNat_add, Int64.add_assoc]

theorem statsOf_updateStats {it : Iteration} {publicKey : String}
    {update : MutablePeerStats → MutablePeerStats} {r t : Nat}
    (h : ∀ stats, update stats = stats.plus r t) (key : String) :
    statsOf (it.updateStats publicKey update).peerStatsByPublicKey key =
      (statsOf it.peerStatsByPublicKey key).plus (if key = publicKey then r else 0)
        (if key = publicKey then t else 0) := by
  unfold statsOf Iteration.updateStats
  by_cases hkey : key = publicKey
  · rw [if_pos hkey, if_pos hkey, hkey, LinkedMap.get_put_self, h]
    rfl
  · rw [if_neg hkey, if_neg hkey, LinkedMap.get_put_ne _ (Ne.symm hkey),
      MutablePeerStats.plus_zero]

theorem statsOf_addTransmitted (it : Iteration) (publicKey key : String) (size : Nat) :
    statsOf (it.addTransmitted publicKey size).peerStatsByPublicKey key =
      (statsOf it.peerStatsByPublicKey key).plus 0 (if key = publicKey then size else 0) := by
  have h : ∀ stats : MutablePeerStats,
      { stats with transmittedBytes := stats.transmittedBytes + Int64.ofNat size } =
        stats.plus 0 size := by
    intro stats
    rw [MutablePeerStats.plus, show Int64.ofNat 0 = 0 from rfl, Int64.add_zero]
  rw [Iteration.addTransmitted, statsOf_updateStats h, ite_self]

theorem statsOf_addReceived (it : Iteration) (publicKey key : String) (size : Nat) :
    statsOf (it.addReceived publicKey size).peerStatsByPublicKey key =
      (statsOf it.peerStatsByPublicKey key).plus (if key = publicKey then size else 0) 0 := by
  have h : ∀ stats : MutablePeerStats,
      { stats with receivedBytes := stats.receivedBytes + Int64.ofNat size } =
        stats.plus size 0 := by
    intro stats
    rw [MutablePeerStats.plus, show Int64.ofNat 0 = 0 from rfl, Int64.add_zero]
  rw [Iteration.addReceived, statsOf_updateStats h, ite_self]

/-- The size of all packets for the network. -/
def networkSize (writes : List PacketAction) : Nat :=
  ((writes.filterMap PacketAction.networkPacket?).map List.length).sum

/-- What an iteration has gained by a list of writes of one session. -/
structure Gains (entry : PeerSessionEntry) (endpoint : UdpEndpoint) (writes : List PacketAction)
    (it it' : Iteration) : Prop where
  network : it'.pendingNetwork = it.pendingNetwork ++
    (writes.filterMap PacketAction.networkPacket?).map fun packet =>
      { payload := packet, remoteEndpoint := endpoint }
  tun : it'.pendingTun = it.pendingTun ++ writes.filterMap PacketAction.tunPacket?
  stats : ∀ key, statsOf it'.peerStatsByPublicKey key =
    (statsOf it.peerStatsByPublicKey key).plus 0
      (if key = entry.peer.publicKey then networkSize writes else 0)

section Gains

variable {entry : PeerSessionEntry} {endpoint : UdpEndpoint} {it it' it'' : Iteration}

theorem Gains.of_eq (hnetwork : it'.pendingNetwork = it.pendingNetwork)
    (htun : it'.pendingTun = it.pendingTun)
    (hstats : it'.peerStatsByPublicKey = it.peerStatsByPublicKey) :
    Gains entry endpoint [] it it' where
  network := by rw [hnetwork, List.filterMap_nil, List.map_nil, List.append_nil]
  tun := by rw [htun, List.filterMap_nil, List.append_nil]
  stats := by
    intro key
    have hzero : networkSize [] = 0 := rfl
    rw [hstats, hzero, ite_self, MutablePeerStats.plus_zero]

theorem networkSize_append (writes more : List PacketAction) :
    networkSize (writes ++ more) = networkSize writes + networkSize more := by
  rw [networkSize, List.filterMap_append, List.map_append, List.sum_append, networkSize,
    networkSize]

theorem Gains.trans {writes more : List PacketAction} (h : Gains entry endpoint writes it it')
    (h' : Gains entry endpoint more it' it'') : Gains entry endpoint (writes ++ more) it it'' where
  network := by
    rw [h'.network, h.network, List.filterMap_append, List.map_append, List.append_assoc]
  tun := by rw [h'.tun, h.tun, List.filterMap_append, List.append_assoc]
  stats := by
    intro key
    rw [h'.stats key, h.stats key, MutablePeerStats.plus_plus, networkSize_append]
    by_cases hkey : key = entry.peer.publicKey
    · rw [if_pos hkey, if_pos hkey, if_pos hkey]
    · rw [if_neg hkey, if_neg hkey, if_neg hkey]

/-- A write is kept, and counted if it is for the network. -/
theorem handleAction_write (hendpoint : peerEndpoint entry = .ok endpoint) {action : PacketAction}
    (hwrite : action.isWrite = true) (operation : String) (it : Iteration) :
    ∃ it', handleAction operation true entry action it = (it', .ok ()) ∧
      Gains entry endpoint [action] it it' := by
  cases action with
  | writeToNetwork packet =>
      have hsize : networkSize [PacketAction.writeToNetwork packet] = packet.length := by
        simp [networkSize, PacketAction.networkPacket?]
      refine ⟨{ it.addTransmitted entry.peer.publicKey packet.length with
        pendingNetwork :=
          it.pendingNetwork ++ [{ payload := packet, remoteEndpoint := endpoint }] },
        by simp only [handleAction, hendpoint]; rfl, rfl, (List.append_nil _).symm, fun key => ?_⟩
      rw [hsize]
      exact statsOf_addTransmitted it entry.peer.publicKey key packet.length
  | writeToTunIpv4 packet =>
      have hstats := (Gains.of_eq rfl rfl rfl : Gains entry endpoint [] it it).stats
      exact ⟨_, rfl, (List.append_nil _).symm, rfl, hstats⟩
  | writeToTunIpv6 packet =>
      have hstats := (Gains.of_eq rfl rfl rfl : Gains entry endpoint [] it it).stats
      exact ⟨_, rfl, (List.append_nil _).symm, rfl, hstats⟩
  | done => cases hwrite
  | error code => cases hwrite
  | notSupported operation => cases hwrite

/-- Only writes and `Done` are handled without an exception. -/
theorem isWrite_of_handleAction {operation : String} {forwardsToTun : Bool} {action : PacketAction}
    (hne : action ≠ .done)
    (h : handleAction operation forwardsToTun entry action it = (it', .ok ())) :
    action.isWrite = true := by
  cases action with
  | done => exact absurd rfl hne
  | error code => cases h
  | notSupported operation => cases h
  | _ => rfl

end Gains

/-! ### The loop -/

/-- A list of writes within the limit is handled as a whole. -/
theorem flush_drains {entry : PeerSessionEntry} {endpoint : UdpEndpoint}
    (hendpoint : peerEndpoint entry = .ok endpoint) {replies : Nat → Reply} {left handled : Nat}
    {action : PacketAction} {writes : List PacketAction} (h : Drains replies handled writes)
    (haction : replies handled = .ok action) (hleft : writes.length < left) (it : Iteration) :
    ∃ it', flush entry replies left handled action it = (it', .ok ()) ∧
      Gains entry endpoint writes it it' ∧
      it'.called.length = it.called.length + writes.length := by
  induction writes generalizing left handled action it with
  | nil =>
      have hdone : action = .done := Except.ok.inj (haction.symm.trans h.done)
      rw [hdone, flush.eq_1]
      exact ⟨it, rfl, Gains.of_eq rfl rfl rfl, rfl⟩
  | cons write writes ih =>
      obtain ⟨hwrite, hreply⟩ := h.head
      obtain rfl : action = write := Except.ok.inj (haction.symm.trans hreply)
      rw [List.length_cons] at hleft
      obtain ⟨left, rfl⟩ : ∃ l, left = l + 1 := ⟨left - 1, by omega⟩
      have hne : action ≠ .done := fun hdone => by
        rw [hdone] at hwrite
        cases hwrite
      have hmore : ¬ left = 0 := by omega
      obtain ⟨mid, hmid, hgains⟩ := handleAction_write hendpoint hwrite "decryptToRawPacket" it
      have hcalled := called_handleAction "decryptToRawPacket" true entry action it
      rw [hmid] at hcalled
      obtain ⟨next, hnext⟩ : ∃ next, replies (handled + 1) = .ok next := by
        cases writes with
        | nil => exact ⟨_, h.tail.done⟩
        | cons next _ => exact ⟨next, h.tail.head.2⟩
      obtain ⟨last, hlast, hgained, hcount⟩ :=
        ih h.tail hnext (show writes.length < left by omega) (mid.call entry.session)
      refine ⟨last, ?_, ?_, ?_⟩
      · rw [flush.eq_3 _ _ _ _ _ _ hne, hmid]
        simp only [if_neg hmore, hnext]
        exact hlast
      · have hcall : Gains entry endpoint [] mid (mid.call entry.session) :=
          Gains.of_eq rfl rfl rfl
        exact hgains.trans (hcall.trans hgained)
      · rw [hcount, Iteration.called_call, List.length_cons, hcalled, List.length_cons]
        omega

/-- Anything else ends in an exception. -/
theorem flush_fails {entry : PeerSessionEntry} {replies : Nat → Reply} {left handled : Nat}
    {action : PacketAction} (haction : replies handled = .ok action) (hpos : 0 < left)
    (h : ∀ writes, Drains replies handled writes → left ≤ writes.length) (it : Iteration) :
    ∃ it' throwable, flush entry replies left handled action it = (it', .error throwable) := by
  induction left generalizing handled action it with
  | zero => exact absurd hpos (Nat.lt_irrefl 0)
  | succ left ih =>
      by_cases hdone : action = .done
      · rw [hdone] at haction
        exact absurd (h [] (Drains.nil haction)) (Nat.not_succ_le_zero left)
      · rw [flush.eq_3 _ _ _ _ _ _ hdone]
        cases hhandle : handleAction "decryptToRawPacket" true entry action it with
        | mk mid result =>
            cases result with
            | error throwable => exact ⟨mid, throwable, rfl⟩
            | ok _ =>
                have hwrite := isWrite_of_handleAction hdone hhandle
                by_cases hlimit : left = 0
                · simp only [if_pos hlimit]
                  exact ⟨mid, _, rfl⟩
                · simp only [if_neg hlimit]
                  cases hnext : replies (handled + 1) with
                  | error throwable => exact ⟨_, throwable, rfl⟩
                  | ok next =>
                      refine ih hnext (Nat.pos_of_ne_zero hlimit) ?_ (mid.call entry.session)
                      intro writes hwrites
                      have hlonger := h (action :: writes) (Drains.cons hwrite haction hwrites)
                      rw [List.length_cons] at hlonger
                      omega

theorem called_flush_length (entry : PeerSessionEntry) (replies : Nat → Reply)
    (left handled : Nat) (action : PacketAction) (it : Iteration) :
    (flush entry replies left handled action it).1.called.length ≤
      it.called.length + (left - 1) := by
  fun_induction flush entry replies left handled action it with
  | case1 => exact Nat.le_add_right _ _
  | case2 => exact Nat.le_add_right _ _
  | case3 left handled action it hne mid throwable hhandle =>
      have hcalled := called_handleAction "decryptToRawPacket" true entry action it
      rw [hhandle] at hcalled
      rw [hcalled]
      exact Nat.le_add_right _ _
  | case4 handled action it hne mid hhandle =>
      have hcalled := called_handleAction "decryptToRawPacket" true entry action it
      rw [hhandle] at hcalled
      rw [hcalled]
      exact Nat.le_add_right _ _
  | case5 left handled action it hne mid hhandle hmore throwable hreply =>
      have hcalled := called_handleAction "decryptToRawPacket" true entry action it
      rw [hhandle] at hcalled
      show (entry.session :: mid.called).length ≤ _
      rw [List.length_cons, hcalled]
      omega
  | case6 left handled action it hne mid hhandle hmore again next hreply ih =>
      have hcalled := called_handleAction "decryptToRawPacket" true entry action it
      rw [hhandle] at hcalled
      refine Nat.le_trans ih ?_
      show (entry.session :: mid.called).length + (left - 1) ≤ _
      rw [List.length_cons, hcalled]
      omega

/-! ### One iteration -/

/-- What an iteration puts on the pipes after the lock, and what it reports to
`onFailure`. -/
structure Sends where
  network : List UdpDatagram
  tun : List Bytes
  failure : Option Throwable
  deriving DecidableEq

def sends : Iteration × Except Throwable Unit → Sends
  | (it, .ok ()) => { network := it.pendingNetwork, tun := it.pendingTun, failure := none }
  | (_, .error throwable) => { network := [], tun := [], failure := some throwable }

/-- The endpoint that a datagram is answered to is the one it came from. -/
theorem peerEndpoint_of_endpointMatches {remote : UdpEndpoint} {entry : PeerSessionEntry}
    (h : endpointMatches remote entry = .ok true) : peerEndpoint entry = .ok remote := by
  unfold endpointMatches at h
  unfold peerEndpoint
  cases hip : entry.peer.endpointAddress with
  | none =>
      rw [hip] at h
      have hboth := Except.ok.inj h
      rw [Bool.and_eq_true, decide_eq_true_eq] at hboth
      cases hboth.1
  | some ip =>
      rw [hip] at h
      obtain ⟨text, htext, h⟩ := bind_eq_ok.mp h
      have hboth := Except.ok.inj h
      rw [Bool.and_eq_true, decide_eq_true_eq, decide_eq_true_eq] at hboth
      obtain ⟨haddress, hport⟩ := hboth
      cases haddress
      rw [hport]
      simp only [htext]
      rfl

theorem peerEndpoint_of_firstMatch {remote : UdpEndpoint} {entries : List PeerSessionEntry}
    {selected : PeerSessionEntry} (h : firstMatch remote entries = .ok (some selected)) :
    peerEndpoint selected = .ok remote :=
  peerEndpoint_of_endpointMatches (firstMatch_eq_some h).2

section Iteration

variable {datagram : UdpDatagram} {replies : Nat → Reply} {guarded : Guarded}
  {selected : PeerSessionEntry}

/-- The iteration when the first call is made. -/
def accepted (datagram : UdpDatagram) (guarded : Guarded) (selected : PeerSessionEntry) :
    Iteration :=
  ((Iteration.start guarded).addReceived selected.peer.publicKey datagram.payload.length).call
    selected.session

theorem encryptedIteration_of_reply {action : PacketAction}
    (hselected : firstMatch datagram.remoteEndpoint guarded.sessionEntriesByPeer.values =
      .ok (some selected)) (haction : replies 0 = .ok action) :
    encryptedIteration datagram replies guarded =
      flush selected replies defaultMaxFlushIterations 0 action
        (accepted datagram guarded selected) := by
  unfold encryptedIteration
  simp only [hselected, haction]
  rfl

theorem called_encryptedIteration_length
    (hselected : firstMatch datagram.remoteEndpoint guarded.sessionEntriesByPeer.values =
      .ok (some selected)) :
    (encryptedIteration datagram replies guarded).1.called.length ≤ defaultMaxFlushIterations := by
  cases hreply : replies 0 with
  | error throwable =>
      unfold encryptedIteration
      simp only [hselected, hreply]
      show 1 ≤ defaultMaxFlushIterations
      decide
  | ok action =>
      rw [encryptedIteration_of_reply hselected hreply]
      exact called_flush_length _ _ _ _ _ _

theorem encryptedIteration_drains {writes : List PacketAction}
    (hselected : firstMatch datagram.remoteEndpoint guarded.sessionEntriesByPeer.values =
      .ok (some selected)) (h : Drains replies 0 writes)
    (hlimit : writes.length < defaultMaxFlushIterations) :
    ∃ it, encryptedIteration datagram replies guarded = (it, .ok ()) ∧
      Gains selected datagram.remoteEndpoint writes (accepted datagram guarded selected) it ∧
      it.called.length = writes.length + 1 := by
  obtain ⟨action, haction⟩ : ∃ action, replies 0 = .ok action := by
    cases writes with
    | nil => exact ⟨_, h.done⟩
    | cons write _ => exact ⟨write, h.head.2⟩
  obtain ⟨it, hflush, hgains, hcount⟩ := flush_drains (peerEndpoint_of_firstMatch hselected) h
    haction hlimit (accepted datagram guarded selected)
  refine ⟨it, (encryptedIteration_of_reply hselected haction).trans hflush, hgains, ?_⟩
  rw [hcount, accepted, Iteration.called_call, Iteration.called_addReceived, List.length_cons]
  exact Nat.add_comm _ _

theorem encryptedIteration_fails
    (hselected : firstMatch datagram.remoteEndpoint guarded.sessionEntriesByPeer.values =
      .ok (some selected))
    (h : ∀ writes, Drains replies 0 writes → defaultMaxFlushIterations ≤ writes.length) :
    ∃ it throwable, encryptedIteration datagram replies guarded = (it, .error throwable) := by
  cases hreply : replies 0 with
  | error throwable =>
      refine ⟨accepted datagram guarded selected, throwable, ?_⟩
      unfold encryptedIteration
      simp only [hselected, hreply]
      rfl
  | ok action =>
      rw [encryptedIteration_of_reply hselected hreply]
      exact flush_fails hreply (by decide) h _

end Iteration

/-- A datagram from a configured endpoint is answered in full or not at all.  The
session is called at most 256 times.  If it answers with at most 255 writes and
then with `Done`, they are sent in order, those for the network back to the
endpoint, and counted.  In every other case the failure is reported and nothing is
sent. -/
theorem encryptedIteration_all_or_nothing (datagram : UdpDatagram) (replies : Nat → Reply)
    (guarded : Guarded) (selected : PeerSessionEntry)
    (hselected : firstMatch datagram.remoteEndpoint guarded.sessionEntriesByPeer.values =
      .ok (some selected)) :
    let result := encryptedIteration datagram replies guarded
    result.1.called.length ≤ 256 ∧ peerEndpoint selected = .ok datagram.remoteEndpoint ∧
    (∀ writes, Drains replies 0 writes → writes.length ≤ 255 →
      sends result = {
        network := (writes.filterMap PacketAction.networkPacket?).map fun packet =>
          { payload := packet, remoteEndpoint := datagram.remoteEndpoint }
        tun := writes.filterMap PacketAction.tunPacket?
        failure := none } ∧
      ∀ key, statsOf result.1.peerStatsByPublicKey key =
        (statsOf guarded.peerStatsByPublicKey key).plus
          (if key = selected.peer.publicKey then datagram.payload.length else 0)
          (if key = selected.peer.publicKey then networkSize writes else 0)) ∧
    ((¬ ∃ writes, Drains replies 0 writes ∧ writes.length ≤ 255) →
      ∃ throwable, sends result = { network := [], tun := [], failure := some throwable }) := by
  refine ⟨called_encryptedIteration_length hselected, peerEndpoint_of_firstMatch hselected, ?_, ?_⟩
  · intro writes hdrains hlimit
    obtain ⟨it, hresult, hgains, _⟩ :=
      encryptedIteration_drains hselected hdrains (Nat.lt_succ_of_le hlimit)
    rw [hresult]
    constructor
    · rw [sends, hgains.network, hgains.tun]
      rfl
    · intro key
      refine (hgains.stats key).trans ?_
      have hreceived := statsOf_addReceived (Iteration.start guarded) selected.peer.publicKey key
        datagram.payload.length
      rw [accepted, Iteration.call, hreceived, MutablePeerStats.plus_plus, Nat.add_zero,
        Nat.zero_add]
      rfl
  · intro hnone
    obtain ⟨it, throwable, hresult⟩ := encryptedIteration_fails hselected fun writes hdrains => by
      by_contra hshort
      exact hnone ⟨writes, hdrains, Nat.le_of_lt_succ (Nat.lt_of_not_le hshort)⟩
    rw [hresult]
    exact ⟨throwable, rfl⟩

/-- A manager with one peer, at `192.0.2.1` port `1`. -/
def onePeerEntry : PeerSessionEntry :=
  { exampleEntry 0 "a" [] with
    peer :=
      { endpointPort := some 1, endpointAddress := some { value := some (.v4 [192, 0, 2, 1]) }
        publicKey := "a" } }

def onePeerGuarded : Guarded :=
  { sessionEntriesByPeer := LinkedMap.empty.put "a" onePeerEntry
    peerStatsByPublicKey := LinkedMap.empty }

def onePeerDatagram : UdpDatagram :=
  { payload := [4, 5], remoteEndpoint := { address := "192.0.2.1", port := 1 } }

def twoWrites : List PacketAction := [.writeToNetwork [7], .writeToTunIpv4 [8, 9]]

def twoWritesReplies (i : Nat) : Reply := .ok ((twoWrites[i]?).getD .done)

theorem drains_twoWrites : Drains twoWritesReplies 0 twoWrites where
  write := by decide
  reply := by
    intro i action hget
    rw [Nat.zero_add, twoWritesReplies, hget]
    rfl
  done := rfl

theorem firstMatch_onePeer :
    firstMatch onePeerDatagram.remoteEndpoint onePeerGuarded.sessionEntriesByPeer.values =
      .ok (some onePeerEntry) := by
  decide +kernel

theorem twoWrites_sent :
    sends (encryptedIteration onePeerDatagram twoWritesReplies onePeerGuarded) = {
      network := [{ payload := [7], remoteEndpoint := { address := "192.0.2.1", port := 1 } }]
      tun := [[8, 9]]
      failure := none } :=
  ((encryptedIteration_all_or_nothing onePeerDatagram twoWritesReplies onePeerGuarded onePeerEntry
    firstMatch_onePeer).2.2.1 twoWrites drains_twoWrites (by decide)).1

end Crypto
end WgKotlin
