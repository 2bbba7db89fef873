import WgKotlin.Crypto.Flush
import WgKotlin.Crypto.Reconcile
import WgKotlin.Util.IpText

/-!
# Statistics across reconfiguration

A loop counts the bytes of a datagram under `reconcileMutex`, where it takes the
datagram from a session, and puts the datagram on `networkPipe` after it has left
the lock.  A call of `reconcileSessions` may come in between.  The counters of a
peer are exact for the critical sections since the peer was last absent from the
configuration, whatever comes between a critical section and its sends.
-/

namespace WgKotlin
namespace Crypto

open Proto Util Kotlin Library

/-! ### `peerStats` -/

structure VpnPeerStats where
  publicKey : String
  receivedBytes : Int64
  transmittedBytes : Int64
  lastHandshakeEpochSeconds : Option Int64
  endpointAddress : Option String
  endpointPort : Option Int32
  allowedIps : List String
  deriving DecidableEq

/-- `entry.peer.endpointAddress?.toPlainString()` -/
def plainEndpoint (peer : ParsedVpnPeer) : Except Throwable (Option String) :=
  match peer.endpointAddress with
  | none => .ok none
  | some ip => (toPlainString ip).map some

def vpnPeerStats (guarded : Guarded) (entry : PeerSessionEntry) :
    Except Throwable VpnPeerStats := do
  let stats := statsOf guarded.peerStatsByPublicKey entry.peer.publicKey
  let endpointAddress ← plainEndpoint entry.peer
  let allowedIps ← mapAll toCidrString entry.peer.allowedIps
  .ok {
    publicKey := entry.peer.publicKey
    receivedBytes := stats.receivedBytes
    transmittedBytes := stats.transmittedBytes
    lastHandshakeEpochSeconds := none
    endpointAddress := endpointAddress
    endpointPort := entry.peer.endpointPort
    allowedIps := allowedIps }

def peerStats (guarded : Guarded) : Except Throwable (List VpnPeerStats) :=
  mapAll (vpnPeerStats guarded) guarded.sessionEntriesByPeer.values

theorem vpnPeerStats_eq_ok {guarded : Guarded} {entry : PeerSessionEntry} {stats : VpnPeerStats}
    (h : vpnPeerStats guarded entry = .ok stats) :
    stats.publicKey = entry.peer.publicKey ∧
      MutablePeerStats.mk stats.receivedBytes stats.transmittedBytes =
        statsOf guarded.peerStatsByPublicKey entry.peer.publicKey := by
  obtain ⟨_, _, h⟩ := bind_eq_ok.mp h
  obtain ⟨_, _, h⟩ := bind_eq_ok.mp h
  cases h
  exact ⟨rfl, rfl⟩

/-- The addresses of a peer that came from the parser. -/
def WellFormedPeer (peer : ParsedVpnPeer) : Prop :=
  (∀ ip, peer.endpointAddress = some ip → ip.WellFormed) ∧
    ∀ cidr ∈ peer.allowedIps, cidr.WellFormed

theorem exists_plainEndpoint {peer : ParsedVpnPeer} (h : WellFormedPeer peer) :
    ∃ text, plainEndpoint peer = .ok text := by
  unfold plainEndpoint
  cases hip : peer.endpointAddress with
  | none => exact ⟨none, rfl⟩
  | some ip =>
      obtain ⟨a, _, htext⟩ := toPlainString_eq (h.1 ip hip)
      cases a with
      | v4 bytes =>
          simp only [htext.2]
          exact ⟨_, rfl⟩
      | v6 bytes =>
          obtain ⟨pairs, _, _, htext⟩ := htext
          simp only [htext]
          exact ⟨_, rfl⟩

theorem exists_peerStats {guarded : Guarded}
    (h : ∀ e ∈ guarded.sessionEntriesByPeer.values, WellFormedPeer e.peer) :
    ∃ stats, peerStats guarded = .ok stats := by
  refine exists_mapAll fun e he => ?_
  obtain ⟨text, htext⟩ := exists_plainEndpoint (h e he)
  obtain ⟨texts, htexts⟩ :=
      exists_mapAll (f := toCidrString) (l := e.peer.allowedIps) fun c hc => by
    obtain ⟨_, _, _, hc⟩ := toCidrString_eq ((h e he).2 c hc)
    exact ⟨_, hc⟩
  rw [vpnPeerStats, htext, ok_bind, htexts, ok_bind]
  exact ⟨_, rfl⟩

/-- One entry for each key of the map, with the counters that are kept under it. -/
theorem peerStats_eq_ok {guarded : Guarded} {stats : List VpnPeerStats}
    (hkeyed : ∀ key e, guarded.sessionEntriesByPeer.get key = some e → e.peer.publicKey = key)
    (h : peerStats guarded = .ok stats) :
    stats.map VpnPeerStats.publicKey = guarded.sessionEntriesByPeer.keys ∧
      ∀ st ∈ stats, MutablePeerStats.mk st.receivedBytes st.transmittedBytes =
        statsOf guarded.peerStatsByPublicKey st.publicKey := by
  have hall := mapAll_eq_ok.mp h
  constructor
  · have hkeys : guarded.sessionEntriesByPeer.values.map (fun e => e.peer.publicKey) =
        guarded.sessionEntriesByPeer.keys := by
      rw [LinkedMap.values, List.map_map]
      refine List.map_congr_left fun q hq => ?_
      exact hkeyed q.1 q.2 (LinkedMap.get_eq_some_iff.mpr hq)
    rw [← hkeys, ← List.forall₂_eq_eq_eq, List.forall₂_map_left_iff, List.forall₂_map_right_iff]
    exact (hall.imp fun e st hst => (vpnPeerStats_eq_ok hst).1).flip
  · intro st hst
    obtain ⟨e, _, he⟩ := (mem_mapAll h).mp hst
    obtain ⟨hkey, hstats⟩ := vpnPeerStats_eq_ok he
    rw [hkey, hstats]

/-! ### Datagrams and the peers they are for -/

/-- A datagram with the public key of the peer whose session it belongs to. -/
structure PeerDatagram where
  publicKey : String
  datagram : UdpDatagram
  deriving DecidableEq

def payloadBytes (datagrams : List UdpDatagram) : Nat :=
  (datagrams.map fun d => d.payload.length).sum

/-- The payload of the datagrams for one peer. -/
def bytesFor (key : String) (datagrams : List PeerDatagram) : Nat :=
  payloadBytes ((datagrams.filter fun d => d.publicKey = key).map PeerDatagram.datagram)

@[simp] theorem bytesFor_nil (key : String) : bytesFor key [] = 0 := rfl

theorem payloadBytes_append (l m : List UdpDatagram) :
    payloadBytes (l ++ m) = payloadBytes l + payloadBytes m := by
  rw [payloadBytes, List.map_append, List.sum_append, payloadBytes, payloadBytes]

theorem bytesFor_append (key : String) (l m : List PeerDatagram) :
    bytesFor key (l ++ m) = bytesFor key l + bytesFor key m := by
  rw [bytesFor, List.filter_append, List.map_append, payloadBytes_append, bytesFor, bytesFor]

theorem bytesFor_eq_zero {key : String} {datagrams : List PeerDatagram}
    (h : ∀ d ∈ datagrams, d.publicKey ≠ key) : bytesFor key datagrams = 0 := by
  rw [bytesFor, List.filter_eq_nil_iff.mpr fun d hd hpos => h d hd (of_decide_eq_true hpos)]
  rfl

theorem bytesFor_map_mk (key publicKey : String) (sent : List UdpDatagram) :
    bytesFor key (sent.map (PeerDatagram.mk publicKey)) =
      if key = publicKey then payloadBytes sent else 0 := by
  by_cases hkey : key = publicKey
  · have hall : ∀ d ∈ sent.map (PeerDatagram.mk publicKey), decide (d.publicKey = key) = true := by
      intro d hd
      obtain ⟨_, _, rfl⟩ := List.mem_map.mp hd
      exact decide_eq_true hkey.symm
    have hid : PeerDatagram.datagram ∘ PeerDatagram.mk publicKey = id := rfl
    rw [if_pos hkey, bytesFor, List.filter_eq_self.mpr hall, List.map_map, hid, List.map_id]
  · rw [if_neg hkey]
    refine bytesFor_eq_zero fun d hd => ?_
    obtain ⟨_, _, rfl⟩ := List.mem_map.mp hd
    exact Ne.symm hkey

/-! ### What a critical section hands over -/

/-- The datagrams that an action of a session makes. -/
def actionSends (entry : PeerSessionEntry) (action : PacketAction) : List UdpDatagram :=
  match action, peerEndpoint entry with
  | .writeToNetwork packet, .ok endpoint => [{ payload := packet, remoteEndpoint := endpoint }]
  | _, _ => []

def periodicProduces (replies : Nat → Reply) : Nat → List PeerSessionEntry → List PeerDatagram
  | _, [] => []
  | i, entry :: rest =>
    (match replies i with
      | .ok action => (actionSends entry action).map (PeerDatagram.mk entry.peer.publicKey)
      | .error _ => []) ++ periodicProduces replies (i + 1) rest

/-- The datagrams that an iteration takes from the sessions to send them. -/
def LoopLabel.produces (guarded : Guarded) : LoopLabel → List PeerDatagram
  | .periodic replies => periodicProduces replies 0 guarded.sessionEntriesByPeer.values
  | label =>
    match label.selected guarded.sessionEntriesByPeer.values with
    | some selected =>
      (label.iteration guarded).1.pendingNetwork.map (PeerDatagram.mk selected.peer.publicKey)
    | none => []

/-- The datagram that an iteration of the encrypted loop accepts. -/
def LoopLabel.accepts (guarded : Guarded) : LoopLabel → List PeerDatagram
  | .encrypted datagram replies =>
    match (LoopLabel.encrypted datagram replies).selected guarded.sessionEntriesByPeer.values with
    | some selected => [{ publicKey := selected.peer.publicKey, datagram := datagram }]
    | none => []
  | _ => []

/-- The iteration collects these datagrams for one peer, and counts them. -/
structure Hands (publicKey : String) (sent : List UdpDatagram) (it it' : Iteration) : Prop where
  network : it'.pendingNetwork = it.pendingNetwork ++ sent
  stats : ∀ key, statsOf it'.peerStatsByPublicKey key =
    (statsOf it.peerStatsByPublicKey key).plus 0 (if key = publicKey then payloadBytes sent else 0)

section Hands

variable {publicKey : String} {it it' it'' : Iteration}

theorem Hands.of_eq (hnetwork : it'.pendingNetwork = it.pendingNetwork)
    (hstats : it'.peerStatsByPublicKey = it.peerStatsByPublicKey) : Hands publicKey [] it it' where
  network := by rw [hnetwork, List.append_nil]
  stats := by
    intro key
    have hzero : payloadBytes [] = 0 := rfl
    rw [hstats, hzero, ite_self, MutablePeerStats.plus_zero]

theorem Hands.trans {sent more : List UdpDatagram} (h : Hands publicKey sent it it')
    (h' : Hands publicKey more it' it'') : Hands publicKey (sent ++ more) it it'' where
  network := by rw [h'.network, h.network, List.append_assoc]
  stats := by
    intro key
    rw [h'.stats key, h.stats key, MutablePeerStats.plus_plus, payloadBytes_append]
    by_cases hkey : key = publicKey
    · rw [if_pos hkey, if_pos hkey, if_pos hkey]
    · rw [if_neg hkey, if_neg hkey, if_neg hkey]

theorem handleAction_hands {operation : String} {forwardsToTun : Bool} {entry : PeerSessionEntry}
    {action : PacketAction}
    (h : handleAction operation forwardsToTun entry action it = (it', .ok ())) :
    Hands entry.peer.publicKey (actionSends entry action) it it' := by
  cases action with
  | done =>
      cases h
      exact Hands.of_eq rfl rfl
  | writeToNetwork packet =>
      unfold handleAction at h
      simp only at h
      unfold actionSends
      cases hendpoint : peerEndpoint entry with
      | error throwable =>
          rw [hendpoint] at h
          cases h
      | ok endpoint =>
          rw [hendpoint] at h
          cases h
          exact ⟨rfl, fun key => statsOf_addTransmitted it entry.peer.publicKey key packet.length⟩
  | writeToTunIpv4 packet => cases forwardsToTun <;> cases h <;> exact Hands.of_eq rfl rfl
  | writeToTunIpv6 packet => cases forwardsToTun <;> cases h <;> exact Hands.of_eq rfl rfl
  | error code => cases h
  | notSupported unsupported => cases h

theorem flush_hands {entry : PeerSessionEntry} {replies : Nat → Reply} {left handled : Nat}
    {action : PacketAction} (h : flush entry replies left handled action it = (it', .ok ())) :
    ∃ sent, Hands entry.peer.publicKey sent it it' := by
  fun_induction flush entry replies left handled action it with
  | case1 =>
      rw [← (Prod.mk.inj h).1]
      exact ⟨[], Hands.of_eq rfl rfl⟩
  | case2 => cases h
  | case3 => cases h
  | case4 => cases h
  | case5 => cases (Prod.mk.inj h).2
  | case6 left handled action it hne mid hhandle hmore again next hreply ih =>
      obtain ⟨sent, hsent⟩ := ih h
      have hcall : Hands entry.peer.publicKey [] mid again := Hands.of_eq rfl rfl
      exact ⟨_, (handleAction_hands hhandle).trans (hcall.trans hsent)⟩

end Hands

/-- What a critical section counts: what it accepts and what it hands over, for peers
of the map. -/
structure Counts (label : LoopLabel) (guarded : Guarded) (it : Iteration) : Prop where
  pending : (label.produces guarded).map PeerDatagram.datagram = it.pendingNetwork
  stats : ∀ key, statsOf it.peerStatsByPublicKey key =
    (statsOf guarded.peerStatsByPublicKey key).plus (bytesFor key (label.accepts guarded))
      (bytesFor key (label.produces guarded))
  produces : ∀ d ∈ label.produces guarded,
    ∃ e ∈ guarded.sessionEntriesByPeer.values, e.peer.publicKey = d.publicKey
  accepts : ∀ d ∈ label.accepts guarded,
    ∃ e ∈ guarded.sessionEntriesByPeer.values, e.peer.publicKey = d.publicKey

section Counts

variable {guarded : Guarded} {it : Iteration} {selected : PeerSessionEntry}

/-- A section that calls no session. -/
theorem counts_nothing {label : LoopLabel} (hproduces : label.produces guarded = [])
    (haccepts : label.accepts guarded = []) :
    Counts label guarded (Iteration.start guarded) where
  pending := by rw [hproduces]; rfl
  stats := by
    intro key
    rw [hproduces, haccepts, bytesFor_nil, MutablePeerStats.plus_zero]
    rfl
  produces := fun d hd => by rw [hproduces] at hd; cases hd
  accepts := fun d hd => by rw [haccepts] at hd; cases hd

theorem mem_of_map_mk {publicKey : String} {sent : List UdpDatagram} {d : PeerDatagram}
    (h : d ∈ sent.map (PeerDatagram.mk publicKey)) : publicKey = d.publicKey := by
  obtain ⟨_, _, rfl⟩ := List.mem_map.mp h
  rfl

/-- A section of an ingress loop, from what it has counted before the first action. -/
theorem counts_of_hands {label : LoopLabel} {sent : List UdpDatagram} {before : Iteration}
    (hselected : label.selected guarded.sessionEntriesByPeer.values = some selected)
    (hmem : selected ∈ guarded.sessionEntriesByPeer.values)
    (hit : (label.iteration guarded).1 = it) (hhands : Hands selected.peer.publicKey sent before it)
    (hnetwork : before.pendingNetwork = [])
    (hstats : ∀ key, statsOf before.peerStatsByPublicKey key =
      (statsOf guarded.peerStatsByPublicKey key).plus (bytesFor key (label.accepts guarded)) 0)
    (haccepts : ∀ d ∈ label.accepts guarded, selected.peer.publicKey = d.publicKey) :
    Counts label guarded it := by
  have hsent : it.pendingNetwork = sent := by rw [hhands.network, hnetwork, List.nil_append]
  have hproduces : label.produces guarded =
      sent.map (PeerDatagram.mk selected.peer.publicKey) := by
    cases label with
    | periodic replies => cases hselected
    | _ => simp only [LoopLabel.produces, hselected, hit, hsent]
  refine ⟨?_, fun key => ?_, fun d hd => ?_, fun d hd => ⟨selected, hmem, haccepts d hd⟩⟩
  · rw [hproduces, List.map_map, hsent]
    exact List.map_id _
  · rw [hhands.stats key, hstats key, MutablePeerStats.plus_plus, hproduces, bytesFor_map_mk,
      Nat.add_zero, Nat.zero_add]
  · rw [hproduces] at hd
    exact ⟨selected, hmem, mem_of_map_mk hd⟩

theorem counts_cleartext {packet : Bytes} {reply : Reply}
    (h : cleartextIteration packet reply guarded = (it, .ok ())) :
    Counts (.cleartext packet reply) guarded it := by
  have hit : ((LoopLabel.cleartext packet reply).iteration guarded).1 = it := congrArg Prod.fst h
  unfold cleartextIteration at h
  simp only at h
  cases hselect : selectSessionForPacket packet guarded.sessionEntriesByPeer.values with
  | error throwable =>
      rw [hselect] at h
      cases h
  | ok found =>
      rw [hselect] at h
      have hselected : (LoopLabel.cleartext packet reply).selected
          guarded.sessionEntriesByPeer.values = found := by
        rw [LoopLabel.selected, hselect]
        cases found <;> rfl
      cases found with
      | none =>
          cases h
          exact counts_nothing (by simp only [LoopLabel.produces, hselected]) rfl
      | some selected =>
          cases reply with
          | error throwable => cases h
          | ok action =>
              refine counts_of_hands hselected (selectSessionForPacket_mem hselect) hit
                (handleAction_hands h) rfl (fun key => ?_) (fun d hd => (by cases hd))
              exact (MutablePeerStats.plus_zero _).symm

theorem counts_encrypted {datagram : UdpDatagram} {replies : Nat → Reply}
    (h : encryptedIteration datagram replies guarded = (it, .ok ())) :
    Counts (.encrypted datagram replies) guarded it := by
  have hit : ((LoopLabel.encrypted datagram replies).iteration guarded).1 = it :=
    congrArg Prod.fst h
  cases hmatch : firstMatch datagram.remoteEndpoint guarded.sessionEntriesByPeer.values with
  | error throwable =>
      simp only [encryptedIteration, hmatch] at h
      cases h
  | ok found =>
      have hselected : (LoopLabel.encrypted datagram replies).selected
          guarded.sessionEntriesByPeer.values = found := by
        rw [LoopLabel.selected, hmatch]
        cases found <;> rfl
      cases found with
      | none =>
          simp only [encryptedIteration, hmatch] at h
          cases h
          exact counts_nothing (by simp only [LoopLabel.produces, hselected])
            (by simp only [LoopLabel.accepts, hselected])
      | some selected =>
          have haccepts : (LoopLabel.encrypted datagram replies).accepts guarded =
              [datagram].map (PeerDatagram.mk selected.peer.publicKey) := by
            simp only [LoopLabel.accepts, hselected]
            rfl
          cases hreply : replies 0 with
          | error throwable =>
              simp only [encryptedIteration, hmatch, hreply] at h
              cases h
          | ok action =>
              rw [encryptedIteration_of_reply hmatch hreply] at h
              obtain ⟨sent, hhands⟩ := flush_hands h
              refine counts_of_hands hselected (firstMatch_eq_some hmatch).1 hit hhands rfl
                (fun key => ?_) (fun d hd => ?_)
              · rw [haccepts, bytesFor_map_mk]
                exact statsOf_addReceived (Iteration.start guarded) selected.peer.publicKey key
                  datagram.payload.length
              · rw [haccepts] at hd
                exact mem_of_map_mk hd

/-- The entries that are left add to what was collected before them. -/
theorem periodicEntries_counts {replies : Nat → Reply} {i : Nat} {entries : List PeerSessionEntry}
    {it it' : Iteration} (h : periodicEntries replies i entries it = (it', .ok ())) :
    it'.pendingNetwork = it.pendingNetwork ++
        (periodicProduces replies i entries).map PeerDatagram.datagram ∧
      (∀ key, statsOf it'.peerStatsByPublicKey key =
        (statsOf it.peerStatsByPublicKey key).plus 0
          (bytesFor key (periodicProduces replies i entries))) ∧
      ∀ d ∈ periodicProduces replies i entries, ∃ e ∈ entries, e.peer.publicKey = d.publicKey := by
  induction entries generalizing i it with
  | nil =>
      cases h
      refine ⟨(List.append_nil _).symm, fun key => ?_, fun d hd => (by cases hd)⟩
      exact (MutablePeerStats.plus_zero _).symm
  | cons entry rest ih =>
      unfold periodicEntries at h
      simp only at h
      unfold periodicProduces
      cases hreply : replies i with
      | error throwable =>
          rw [hreply] at h
          cases h
      | ok action =>
          rw [hreply] at h
          simp only at h ⊢
          split at h
          · cases h
          next mid hhandle =>
            have hhands := handleAction_hands hhandle
            obtain ⟨hnetwork, hstats, hpeers⟩ := ih h
            have hmap : ((actionSends entry action).map
                (PeerDatagram.mk entry.peer.publicKey)).map PeerDatagram.datagram =
                  actionSends entry action := by
              rw [List.map_map]
              exact List.map_id _
            refine ⟨?_, fun key => ?_, fun d hd => ?_⟩
            · rw [hnetwork, hhands.network, List.map_append, hmap, List.append_assoc]
              rfl
            · rw [hstats key, hhands.stats key, MutablePeerStats.plus_plus, bytesFor_append,
                bytesFor_map_mk]
              rfl
            · rcases List.mem_append.mp hd with hd | hd
              · exact ⟨entry, List.mem_cons_self, mem_of_map_mk hd⟩
              · obtain ⟨e, he, hkey⟩ := hpeers d hd
                exact ⟨e, List.mem_cons_of_mem entry he, hkey⟩

/-- A critical section that does not throw counts what it accepts and hands over. -/
theorem counts_of_iteration {label : LoopLabel} (h : label.iteration guarded = (it, .ok ())) :
    Counts label guarded it := by
  cases label with
  | cleartext packet reply => exact counts_cleartext h
  | encrypted datagram replies => exact counts_encrypted h
  | periodic replies =>
      obtain ⟨hnetwork, hstats, hpeers⟩ := periodicEntries_counts h
      exact ⟨hnetwork.symm, hstats, hpeers, fun d hd => (by cases hd)⟩

end Counts

/-! ### The manager with its sends -/

inductive Loop
  | cleartext
  | encrypted
  | periodic
  deriving DecidableEq

def LoopLabel.loop : LoopLabel → Loop
  | .cleartext _ _ => .cleartext
  | .encrypted _ _ => .encrypted
  | .periodic _ => .periodic

/-- What happens to the traffic: a configuration comes into force, a datagram is
accepted or taken from a session in a critical section, and a datagram is put on
`networkPipe`. -/
inductive Traffic
  | configured (keys : List String)
  | accepted (datagram : PeerDatagram)
  | produced (datagram : PeerDatagram)
  | put (datagram : PeerDatagram)

namespace Traffic

def accepted? : Traffic → Option PeerDatagram
  | .accepted datagram => some datagram
  | _ => none

def produced? : Traffic → Option PeerDatagram
  | .produced datagram => some datagram
  | _ => none

def put? : Traffic → Option PeerDatagram
  | .put datagram => some datagram
  | _ => none

/-- The peer is absent from the configuration that comes into force. -/
def unlists (key : String) : Traffic → Bool
  | .configured keys => decide (key ∉ keys)
  | _ => false

end Traffic

/-- The bytes of the datagrams of one kind for a peer since it was last absent.  The
last event comes first. -/
def bytesSince (kind : Traffic → Option PeerDatagram) (key : String) : List Traffic → Nat
  | [] => 0
  | event :: earlier =>
    if event.unlists key then 0
    else bytesFor key (kind event).toList + bytesSince kind key earlier

/-- The peers of the configuration in force. -/
def configuredKeys : List Traffic → List String
  | [] => []
  | .configured keys :: _ => keys
  | _ :: earlier => configuredKeys earlier

/-- The manager, what each loop has still to send, and the history of the traffic since
`start()`, last event first. -/
structure Metered where
  world : World
  pending : Loop → List PeerDatagram
  history : List Traffic

inductive MeteredLabel
  | manager (label : Label)
  | send (loop : Loop)

/-- The configuration that a step of the manager brings into force. -/
def Label.configures (w : World) : Label → List Traffic
  | .advance _ =>
    match w.call with
    | some call =>
      if call.phase = .creating [] then
        [.configured (call.config.peers.map ParsedVpnPeer.publicKey)]
      else []
    | none => []
  | _ => []

namespace Metered

/-- `start()` -/
def start (w : World) : Metered where
  world := { w with guarded := { w.guarded with peerStatsByPublicKey := LinkedMap.empty } }
  pending := fun _ => []
  history := [.configured w.sessionEntriesByPeer.keys]

/-- A step of `reconcileSessions` or of the environment. -/
def manage (s : Metered) (label : Label) : Option Metered :=
  match Crypto.step s.world label with
  | none => none
  | some w => some { s with world := w, history := label.configures s.world ++ s.history }

/-- The critical section of an iteration that does not throw.  The loop has sent all
that it took in its last iteration. -/
def criticalSection (s : Metered) (label : LoopLabel) : Option Metered :=
  if s.pending label.loop ≠ [] then none
  else
    match label.iteration s.world.guarded with
    | (_, .error _) => none
    | (_, .ok ()) => some {
        world := loopStep s.world label
        pending := Function.update s.pending label.loop (label.produces s.world.guarded)
        history := (label.produces s.world.guarded).map .produced ++
          (label.accepts s.world.guarded).map .accepted ++ s.history }

/-- `networkPipe.send` -/
def send (s : Metered) (loop : Loop) : Option Metered :=
  match s.pending loop with
  | [] => none
  | datagram :: rest => some {
      s with
      pending := Function.update s.pending loop rest
      history := .put datagram :: s.history }

def step (s : Metered) : MeteredLabel → Option Metered
  | .manager (.loop label) => s.criticalSection label
  | .manager label => s.manage label
  | .send loop => s.send loop

end Metered

/-! ### The history -/

theorem bytesSince_append {kind : Traffic → Option PeerDatagram} {key : String}
    {events : List Traffic} (h : ∀ event ∈ events, event.unlists key = false)
    (history : List Traffic) :
    bytesSince kind key (events ++ history) =
      bytesFor key (events.filterMap kind) + bytesSince kind key history := by
  induction events with
  | nil => rw [List.nil_append, List.filterMap_nil, bytesFor_nil, Nat.zero_add]
  | cons event rest ih =>
      have hrest := ih fun e he => h e (List.mem_cons_of_mem event he)
      have hevent : ¬ event.unlists key = true := by
        rw [h event List.mem_cons_self]
        exact Bool.false_ne_true
      have hsplit : (event :: rest).filterMap kind =
          (kind event).toList ++ rest.filterMap kind := by
        rw [List.filterMap_cons]
        cases kind event <;> rfl
      rw [List.cons_append, bytesSince, if_neg hevent, hrest, hsplit, bytesFor_append,
        Nat.add_assoc]

/-- A configuration ends the account of the peers that it leaves out. -/
theorem bytesSince_configured {kind : Traffic → Option PeerDatagram}
    (hkind : ∀ keys, kind (.configured keys) = none) (key : String) (keys : List String)
    (history : List Traffic) :
    bytesSince kind key (.configured keys :: history) =
      if key ∈ keys then bytesSince kind key history else 0 := by
  rw [bytesSince, hkind]
  by_cases hkey : key ∈ keys
  · have hlisted : ¬ (Traffic.configured keys).unlists key = true := by
      rw [Traffic.unlists, decide_eq_true_eq, not_not]
      exact hkey
    rw [if_pos hkey, if_neg hlisted]
    exact Nat.zero_add _
  · rw [if_neg hkey]
    exact if_pos (decide_eq_true hkey)

theorem configuredKeys_append {events : List Traffic}
    (h : ∀ event ∈ events, ∀ keys, event ≠ .configured keys) (history : List Traffic) :
    configuredKeys (events ++ history) = configuredKeys history := by
  induction events with
  | nil => rfl
  | cons event rest ih =>
      have hrest := ih fun e he => h e (List.mem_cons_of_mem event he)
      cases event with
      | configured keys => exact absurd rfl (h _ List.mem_cons_self keys)
      | accepted datagram => exact hrest
      | produced datagram => exact hrest
      | put datagram => exact hrest

/-- The events of a critical section. -/
structure SectionEvents (events : List Traffic) (produces accepts : List PeerDatagram) : Prop where
  produced : events.filterMap Traffic.produced? = produces
  accepted : events.filterMap Traffic.accepted? = accepts
  put : events.filterMap Traffic.put? = []
  quiet : ∀ event ∈ events, ∀ keys, event ≠ .configured keys

theorem sectionEvents (produces accepts : List PeerDatagram) :
    SectionEvents (produces.map .produced ++ accepts.map .accepted) produces accepts where
  produced := by
    rw [List.filterMap_append, List.filterMap_map, List.filterMap_map]
    simp [Function.comp_def, Traffic.produced?]
  accepted := by
    rw [List.filterMap_append, List.filterMap_map, List.filterMap_map]
    simp [Function.comp_def, Traffic.accepted?]
  put := by
    rw [List.filterMap_append, List.filterMap_map, List.filterMap_map]
    simp [Function.comp_def, Traffic.put?]
  quiet := by
    intro event hevent keys he
    subst he
    simp at hevent

theorem SectionEvents.append {events : List Traffic} {produces accepts : List PeerDatagram}
    (h : SectionEvents events produces accepts) (history : List Traffic) :
    (events ++ history).filterMap Traffic.put? = history.filterMap Traffic.put? ∧
      (events ++ history).filterMap Traffic.produced? =
        produces ++ history.filterMap Traffic.produced? := by
  rw [List.filterMap_append, List.filterMap_append, h.put, h.produced]
  exact ⟨rfl, rfl⟩

theorem unlists_eq_false {event : Traffic} (h : ∀ keys, event ≠ .configured keys) (key : String) :
    event.unlists key = false := by
  cases event with
  | configured keys => exact absurd rfl (h keys)
  | _ => rfl

/-- How often a datagram waits to be sent. -/
def waiting (pending : Loop → List PeerDatagram) (d : PeerDatagram) : Nat :=
  (pending .cleartext).count d + (pending .encrypted).count d + (pending .periodic).count d

theorem waiting_update (pending : Loop → List PeerDatagram) (loop : Loop) (l : List PeerDatagram)
    (d : PeerDatagram) :
    waiting (Function.update pending loop l) d + (pending loop).count d =
      waiting pending d + l.count d := by
  unfold waiting
  cases loop <;> simp only [Function.update_self, ne_eq, reduceCtorEq, not_false_eq_true,
    Function.update_of_ne] <;> omega

/-! ### The counters -/

/-- The counters of every peer are those of the critical sections since it was last
absent, and what was taken from the sessions was put on the pipe or is about to be. -/
structure Exact (s : Metered) : Prop where
  inv : Inv s.world
  stats : ∀ key, statsOf s.world.guarded.peerStatsByPublicKey key =
    ({} : MutablePeerStats).plus (bytesSince Traffic.accepted? key s.history)
      (bytesSince Traffic.produced? key s.history)
  absent : ∀ key, key ∉ s.world.sessionEntriesByPeer.keys →
    bytesSince Traffic.accepted? key s.history = 0 ∧
      bytesSince Traffic.produced? key s.history = 0
  configured : s.world.sessionEntriesByPeer.keys.Perm (configuredKeys s.history)
  sends : ∀ d, waiting s.pending d + (s.history.filterMap Traffic.put?).count d =
    (s.history.filterMap Traffic.produced?).count d

theorem exact_start {w : World} (h : Inv w) : Exact (Metered.start w) where
  inv := ⟨h.accounts, h.call⟩
  stats := by
    intro key
    rw [Metered.start, bytesSince_configured (fun _ => rfl), bytesSince_configured (fun _ => rfl),
      bytesSince, bytesSince, ite_self, MutablePeerStats.plus_zero]
    rfl
  absent := by
    intro key hkey
    have hgone : key ∉ w.sessionEntriesByPeer.keys := hkey
    rw [Metered.start, bytesSince_configured (fun _ => rfl), bytesSince_configured (fun _ => rfl),
      if_neg hgone, if_neg hgone]
    exact ⟨rfl, rfl⟩
  configured := List.Perm.refl _
  sends := fun _ => rfl

section Exact

variable {s s' : Metered}

/-- A peer that is not configured has no counters. -/
theorem Exact.statsOf_absent (h : Exact s) {key : String}
    (hkey : key ∉ s.world.sessionEntriesByPeer.keys) :
    statsOf s.world.guarded.peerStatsByPublicKey key = {} := by
  obtain ⟨haccepted, hproduced⟩ := h.absent key hkey
  rw [h.stats key, haccepted, hproduced, MutablePeerStats.plus_zero]

theorem exact_send (h : Exact s) {loop : Loop} (hstep : s.send loop = some s') : Exact s' := by
  unfold Metered.send at hstep
  split at hstep
  · cases hstep
  next datagram rest hpending =>
    cases hstep
    have hbytes (kind : Traffic → Option PeerDatagram) (key : String)
        (hkind : kind (.put datagram) = none) :
        bytesSince kind key (.put datagram :: s.history) = bytesSince kind key s.history := by
      rw [bytesSince, hkind]
      exact Nat.zero_add _
    refine ⟨h.inv, fun key => ?_, fun key hkey => ?_, h.configured, fun d => ?_⟩
    · rw [hbytes _ key rfl, hbytes _ key rfl]
      exact h.stats key
    · rw [hbytes _ key rfl, hbytes _ key rfl]
      exact h.absent key hkey
    · have hsends := h.sends d
      have hwaiting := waiting_update s.pending loop rest d
      rw [hpending, List.count_cons] at hwaiting
      show waiting (Function.update s.pending loop rest) d +
        (datagram :: s.history.filterMap Traffic.put?).count d =
          (s.history.filterMap Traffic.produced?).count d
      rw [List.count_cons]
      omega

/-- The entries of the map are kept under the keys of their peers. -/
theorem Exact.mem_keys (h : Exact s) {e : PeerSessionEntry}
    (he : e ∈ s.world.sessionEntriesByPeer.values) :
    e.peer.publicKey ∈ s.world.sessionEntriesByPeer.keys := by
  obtain ⟨key, hkey⟩ := LinkedMap.mem_values_iff.mp he
  rw [(h.inv.accounts.keyed key e hkey).key]
  exact LinkedMap.mem_keys_iff.mpr ⟨e, hkey⟩

/-- A section has no traffic for a peer that is not configured. -/
theorem Exact.bytesFor_absent (h : Exact s) {l : List PeerDatagram} {key : String}
    (hl : ∀ d ∈ l, ∃ e ∈ s.world.guarded.sessionEntriesByPeer.values,
      e.peer.publicKey = d.publicKey)
    (hkey : key ∉ s.world.sessionEntriesByPeer.keys) : bytesFor key l = 0 := by
  refine bytesFor_eq_zero fun d hd hsame => hkey ?_
  obtain ⟨e, he, hde⟩ := hl d hd
  rw [← hsame, ← hde]
  exact h.mem_keys he

theorem exact_criticalSection (h : Exact s) {label : LoopLabel}
    (hstep : s.criticalSection label = some s') : Exact s' := by
  unfold Metered.criticalSection at hstep
  split at hstep
  · cases hstep
  next hpending =>
    split at hstep
    · cases hstep
    next it hiteration =>
      cases hstep
      have hcounts := counts_of_iteration hiteration
      have hevents := sectionEvents (label.produces s.world.guarded) (label.accepts s.world.guarded)
      have hquiet (key : String) := fun event hevent =>
        unlists_eq_false (hevents.quiet event hevent) key
      have hstats : (loopStep s.world label).guarded.peerStatsByPublicKey =
          it.peerStatsByPublicKey := by
        rw [loopStep, loopEffect, hiteration]
      refine ⟨inv_loopStep h.inv label, fun key => ?_, fun key hkey => ?_, ?_, fun d => ?_⟩
      · rw [hstats, hcounts.stats key, h.stats key, MutablePeerStats.plus_plus,
          bytesSince_append (hquiet key), bytesSince_append (hquiet key), hevents.accepted,
          hevents.produced, Nat.add_comm (bytesFor _ _), Nat.add_comm (bytesFor _ _)]
      · obtain ⟨haccepted, hproduced⟩ := h.absent key hkey
        rw [bytesSince_append (hquiet key), bytesSince_append (hquiet key), hevents.accepted,
          hevents.produced, h.bytesFor_absent hcounts.accepts hkey,
          h.bytesFor_absent hcounts.produces hkey, haccepted, hproduced]
        exact ⟨rfl, rfl⟩
      · rw [configuredKeys_append hevents.quiet]
        exact h.configured
      · have hsends := h.sends d
        have hwaiting := waiting_update s.pending label.loop (label.produces s.world.guarded) d
        rw [not_not.mp hpending, List.count_nil] at hwaiting
        obtain ⟨hput, hproduced⟩ := hevents.append s.history
        show waiting (Function.update s.pending label.loop (label.produces s.world.guarded)) d +
          (List.filterMap Traffic.put? (_ ++ s.history)).count d =
            (List.filterMap Traffic.produced? (_ ++ s.history)).count d
        rw [hput, hproduced, List.count_append]
        omega

theorem statsOf_removeStats (stats : LinkedMap String MutablePeerStats) (keys : List String)
    (key : String) :
    statsOf (removeStats stats keys) key = if key ∈ keys then {} else statsOf stats key := by
  induction keys generalizing stats with
  | nil => rw [if_neg List.not_mem_nil]; rfl
  | cons k rest ih =>
      show statsOf (removeStats (stats.remove k) rest) key = _
      rw [ih]
      by_cases hrest : key ∈ rest
      · rw [if_pos hrest, if_pos (List.mem_cons_of_mem k hrest)]
      · rw [if_neg hrest, statsOf, LinkedMap.get_remove]
        by_cases hkey : k = key
        · rw [if_pos hkey, if_pos (List.mem_cons.mpr (Or.inl hkey.symm))]
          rfl
        · rw [if_neg hkey, if_neg]
          · rfl
          · rw [List.mem_cons, not_or]
            exact ⟨Ne.symm hkey, hrest⟩

/-- Only the swap writes to the fields under the lock, and it brings its configuration
into force. -/
theorem guarded_of_step {w w' : World} {label : Label} (hlabel : ∀ loop, label ≠ .loop loop)
    (hstep : step w label = some w') :
    (w'.guarded = w.guarded ∧ label.configures w = []) ∨
      ∃ call, w.call = some call ∧ call.phase = .creating [] ∧ w' = swap w call ∧
        label.configures w = [.configured (call.config.peers.map ParsedVpnPeer.publicKey)] := by
  rcases step_cases hstep with ⟨config, rfl, _, rfl⟩ | ⟨reply, call, rfl, hcall, rfl⟩ |
    ⟨loop, hl, _⟩ | ⟨id, rfl, rfl⟩
  · left
    refine ⟨?_, rfl⟩
    unfold startCall
    split <;> rfl
  · by_cases hphase : call.phase = .creating []
    · refine Or.inr ⟨call, hcall, hphase, ?_, ?_⟩
      · unfold advance
        simp only [hphase]
      · simp only [Label.configures, hcall, if_pos hphase]
    · left
      refine ⟨?_, by simp only [Label.configures, hcall, if_neg hphase]⟩
      unfold advance
      split
      · exact (reconcilePeer_step w call _ _ reply).call.1
      next hempty => exact absurd hempty hphase
      · rfl
      · rfl
      · simp only
        split <;> rfl
      · rfl
  · exact absurd hl (hlabel loop)
  · exact Or.inl ⟨rfl, rfl⟩

/-- The swap: peers that stay keep their counters, and peers that are gone or new have
none. -/
theorem Exact.statsOf_swap (h : Exact s) {call : Call} (hcall : s.world.call = some call)
    (hphase : call.phase = .creating []) (key : String) :
    statsOf (swap s.world call).guarded.peerStatsByPublicKey key =
      if key ∈ call.nextSessions.keys then statsOf s.world.guarded.peerStatsByPublicKey key
      else {} := by
  obtain ⟨_, hcreating⟩ := creating_of_inv h.inv hcall hphase
  show statsOf (removeStats s.world.guarded.peerStatsByPublicKey _) key = _
  rw [statsOf_removeStats, hcreating.previous]
  by_cases hnext : key ∈ call.nextSessions.keys
  · rw [if_pos hnext, if_neg]
    intro hgone
    obtain ⟨_, hnone⟩ := List.mem_filter.mp hgone
    exact LinkedMap.get_eq_none_iff.mp (Option.isNone_iff_eq_none.mp hnone) hnext
  · rw [if_neg hnext]
    by_cases hprevious : key ∈ s.world.sessionEntriesByPeer.keys
    · rw [if_pos]
      refine List.mem_filter.mpr ⟨hprevious, ?_⟩
      rw [LinkedMap.get_eq_none_iff.mpr hnext]
      rfl
    · rw [h.statsOf_absent hprevious, ite_self]

/-- The new sessions are those of the configuration that comes into force. -/
theorem Exact.keys_swap (h : Exact s) {call : Call} (hcall : s.world.call = some call)
    (hphase : call.phase = .creating []) :
    call.nextSessions.keys.Perm (call.config.peers.map ParsedVpnPeer.publicKey) := by
  obtain ⟨_, hcreating⟩ := creating_of_inv h.inv hcall hphase
  have hkeys := hcreating.keys
  rw [List.append_nil] at hkeys
  rw [hkeys]
  exact sortedBy_perm id _

theorem exact_swap (h : Exact s) {call : Call} (hcall : s.world.call = some call)
    (hphase : call.phase = .creating []) (hinv : Inv (swap s.world call)) :
    Exact { s with
      world := swap s.world call
      history := .configured (call.config.peers.map ParsedVpnPeer.publicKey) :: s.history } := by
  have hkeys := h.keys_swap hcall hphase
  have hbytes {kind : Traffic → Option PeerDatagram}
      (hkind : ∀ keys, kind (.configured keys) = none) (key : String) :
      bytesSince kind key
          (.configured (call.config.peers.map ParsedVpnPeer.publicKey) :: s.history) =
        if key ∈ call.nextSessions.keys then bytesSince kind key s.history else 0 := by
    rw [bytesSince_configured hkind]
    exact if_congr hkeys.mem_iff.symm rfl rfl
  refine ⟨hinv, fun key => ?_, fun key hkey => ?_, hkeys, h.sends⟩
  · rw [h.statsOf_swap hcall hphase key, hbytes (fun _ => rfl), hbytes (fun _ => rfl)]
    by_cases hkey : key ∈ call.nextSessions.keys
    · rw [if_pos hkey, if_pos hkey, if_pos hkey]
      exact h.stats key
    · rw [if_neg hkey, if_neg hkey, if_neg hkey, MutablePeerStats.plus_zero]
  · have hgone : key ∉ call.nextSessions.keys := hkey
    rw [hbytes (fun _ => rfl), hbytes (fun _ => rfl), if_neg hgone, if_neg hgone]
    exact ⟨rfl, rfl⟩

theorem exact_manage (h : Exact s) {label : Label} (hlabel : ∀ loop, label ≠ .loop loop)
    (hstep : s.manage label = some s') : Exact s' := by
  unfold Metered.manage at hstep
  split at hstep
  · cases hstep
  next w hw =>
    cases hstep
    have hinv := inv_step h.inv hw
    rcases guarded_of_step hlabel hw with ⟨hguarded, hnone⟩ | ⟨call, hcall, hphase, rfl, hone⟩
    · have hentries : w.sessionEntriesByPeer = s.world.sessionEntriesByPeer :=
        congrArg Guarded.sessionEntriesByPeer hguarded
      rw [hnone, List.nil_append]
      refine ⟨hinv, fun key => ?_, fun key hkey => ?_, ?_, h.sends⟩
      · rw [hguarded]
        exact h.stats key
      · rw [hentries] at hkey
        exact h.absent key hkey
      · rw [hentries]
        exact h.configured
    · rw [hone]
      exact exact_swap h hcall hphase hinv

end Exact

theorem exact_step {s s' : Metered} {label : MeteredLabel} (h : Exact s)
    (hstep : s.step label = some s') : Exact s' := by
  unfold Metered.step at hstep
  split at hstep
  · exact exact_criticalSection h hstep
  next hlabel => exact exact_manage h (fun loop hl => hlabel loop hl) hstep
  · exact exact_send h hstep

/-- A step of the manager keeps the counters of the peers that stay, and gives a new
peer none. -/
theorem Exact.statsOf_manage {s s' : Metered} (h : Exact s) {label : Label}
    (hlabel : ∀ loop, label ≠ .loop loop) (hstep : s.manage label = some s') {key : String}
    (hkey : key ∈ s'.world.sessionEntriesByPeer.keys) :
    statsOf s'.world.guarded.peerStatsByPublicKey key =
      if key ∈ s.world.sessionEntriesByPeer.keys then
        statsOf s.world.guarded.peerStatsByPublicKey key
      else {} := by
  have hkeep : statsOf s'.world.guarded.peerStatsByPublicKey key =
      statsOf s.world.guarded.peerStatsByPublicKey key := by
    unfold Metered.manage at hstep
    split at hstep
    · cases hstep
    next w hw =>
      cases hstep
      rcases guarded_of_step hlabel hw with ⟨hguarded, _⟩ | ⟨call, hcall, hphase, rfl, _⟩
      · rw [hguarded]
      · have hnext : key ∈ call.nextSessions.keys := hkey
        rw [h.statsOf_swap hcall hphase key, if_pos hnext]
  rw [hkeep]
  by_cases hbefore : key ∈ s.world.sessionEntriesByPeer.keys
  · rw [if_pos hbefore]
  · rw [if_neg hbefore, h.statsOf_absent hbefore]

/-- Whenever no loop has anything left to send, `peerStats` has one entry for each
configured peer.  It counts the datagrams that were accepted for the peer, and those
that were taken from its sessions, since the peer was last absent; all that was taken
has been put on the pipe.  A peer whose session is replaced keeps its counters, and a
peer that is added again starts without. -/
theorem statistics_exact {w : World} (hw : Reachable step World.init w) {s : Metered}
    (hs : Reachable Metered.step (Metered.start w) s) (hquiet : ∀ loop, s.pending loop = []) :
    (∀ stats, peerStats s.world.guarded = .ok stats →
      (stats.map VpnPeerStats.publicKey).Nodup ∧
      (stats.map VpnPeerStats.publicKey).Perm (configuredKeys s.history) ∧
      ∀ st ∈ stats,
        st.receivedBytes =
          Int64.ofNat (bytesSince Traffic.accepted? st.publicKey s.history) ∧
        st.transmittedBytes =
          Int64.ofNat (bytesSince Traffic.produced? st.publicKey s.history)) ∧
    ((∀ e ∈ s.world.sessionEntriesByPeer.values, WellFormedPeer e.peer) →
      ∃ stats, peerStats s.world.guarded = .ok stats) ∧
    (s.history.filterMap Traffic.put?).Perm (s.history.filterMap Traffic.produced?) ∧
    ∀ label s', (∀ loop, label ≠ .loop loop) → s.step (.manager label) = some s' →
      ∀ key ∈ s'.world.sessionEntriesByPeer.keys,
        statsOf s'.world.guarded.peerStatsByPublicKey key =
          if key ∈ s.world.sessionEntriesByPeer.keys then
            statsOf s.world.guarded.peerStatsByPublicKey key
          else {} := by
  have hexact : Exact s :=
    reachable_invariant (exact_start (inv_of_reachable hw)) (fun _ _ _ => exact_step) hs
  refine ⟨fun stats hstats => ?_, exists_peerStats, ?_, ?_⟩
  · obtain ⟨hkeys, hcounters⟩ :=
      peerStats_eq_ok (fun key e he => (hexact.inv.accounts.keyed key e he).key) hstats
    rw [hkeys]
    refine ⟨s.world.guarded.sessionEntriesByPeer.nodup, hexact.configured, fun st hst => ?_⟩
    have hst := (hcounters st hst).trans (hexact.stats st.publicKey)
    obtain ⟨hreceived, htransmitted⟩ := MutablePeerStats.mk.inj hst
    exact ⟨hreceived.trans (Int64.zero_add _), htransmitted.trans (Int64.zero_add _)⟩
  · refine List.perm_iff_count.mpr fun d => ?_
    have hsends := hexact.sends d
    simpa only [waiting, hquiet, List.count_nil, Nat.zero_add] using hsends
  · intro label s' hlabel hstep key hkey
    refine hexact.statsOf_manage hlabel ?_ hkey
    cases label with
    | loop loop => exact absurd rfl (hlabel loop)
    | _ => exact hstep

/-- A call of `reconcileSessions` that brings up the peer `b` at this port. -/
def bringUp (port : Int32) : List MeteredLabel :=
  [.manager (.reconcile (exampleConfig "k" [examplePeer "b" port])),
    .manager (.advance (.returned true)), .manager (.advance (.returned true))]

/-- The periodic loop takes three bytes from each session. -/
def keepalive : MeteredLabel :=
  .manager (.loop (.periodic fun _ => .ok (.writeToNetwork [1, 2, 3])))

/-- The rest of a call that has one session to look at. -/
def finishCall : List MeteredLabel :=
  [.manager (.advance (.returned true)), .manager (.advance (.returned true))]

/-- The session of `b` is replaced while its datagram waits to be sent. -/
def replacedUnderSend : List MeteredLabel :=
  bringUp 1 ++ [.manager (.advance (.returned true)), keepalive] ++ bringUp 2 ++ finishCall ++
    [.send .periodic]

theorem quiet_of_pending {s : Metered}
    (h : s.pending .cleartext ++ s.pending .encrypted ++ s.pending .periodic = []) (loop : Loop) :
    s.pending loop = [] := by
  rw [List.append_eq_nil_iff, List.append_eq_nil_iff] at h
  cases loop
  · exact h.1.1
  · exact h.1.2
  · exact h.2

theorem replacedUnderSend_counted :
    ∃ s, Library.run Metered.step (Metered.start World.init) replacedUnderSend = some s ∧
      ∃ stats, peerStats s.world.guarded = .ok stats ∧
        ∀ st ∈ stats, st.transmittedBytes =
          Int64.ofNat (bytesSince Traffic.produced? st.publicKey s.history) := by
  have h : (Library.run Metered.step (Metered.start World.init) replacedUnderSend).map
      (fun s => (s.pending .cleartext ++ s.pending .encrypted ++ s.pending .periodic,
        (peerStats s.world.guarded).map (List.map VpnPeerStats.transmittedBytes))) =
          some ([], .ok [3]) := by
    decide +kernel
  obtain ⟨s, hrun, hs⟩ := Option.map_eq_some_iff.mp h
  obtain ⟨hpending, hstats⟩ := Prod.mk.inj hs
  cases hresult : peerStats s.world.guarded with
  | error throwable =>
      rw [hresult] at hstats
      cases hstats
  | ok stats =>
      have hexact := statistics_exact ⟨[], rfl⟩ ⟨_, hrun⟩ (quiet_of_pending hpending)
      exact ⟨s, hrun, stats, hresult, fun st hst => ((hexact.1 stats hresult).2.2 st hst).2⟩

/-- The peer `b` is removed and added again while its datagram waits to be sent. -/
def readdedUnderSend : List MeteredLabel :=
  bringUp 1 ++ [.manager (.advance (.returned true)), keepalive,
    .manager (.reconcile (exampleConfig "k" [])), .manager (.advance (.returned true))] ++
    finishCall ++ bringUp 1 ++ [.manager (.advance (.returned true)), .send .periodic]

/-- The datagram is put on the pipe after the peer was added again, and its bytes were
dropped with the counters of the peer that was removed. -/
theorem readdedUnderSend_not_counted :
    ∃ s, Library.run Metered.step (Metered.start World.init) readdedUnderSend = some s ∧
      (∀ loop, s.pending loop = []) ∧
      (peerStats s.world.guarded).map (List.map fun st => (st.publicKey, st.transmittedBytes)) =
        .ok [("b", 0)] ∧
      bytesSince Traffic.put? "b" s.history = 3 := by
  have h : (Library.run Metered.step (Metered.start World.init) readdedUnderSend).map
      (fun s => (s.pending .cleartext ++ s.pending .encrypted ++ s.pending .periodic,
        (peerStats s.world.guarded).map (List.map fun st => (st.publicKey, st.transmittedBytes)),
        bytesSince Traffic.put? "b" s.history)) = some ([], .ok [("b", 0)], 3) := by
    decide +kernel
  obtain ⟨s, hrun, hs⟩ := Option.map_eq_some_iff.mp h
  simp only [Prod.mk.injEq] at hs
  obtain ⟨hpending, hstats, hput⟩ := hs
  exact ⟨s, hrun, quiet_of_pending hpending, hstats, hput⟩

end Crypto
end WgKotlin
