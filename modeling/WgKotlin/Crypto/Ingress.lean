import WgKotlin.Crypto.Manager
import WgKotlin.Crypto.Flush

/-!
# Sources of incoming packets

The loop for encrypted datagrams chooses a session by the endpoint and hands every
packet that the session decrypts to the TUN device.  Outgoing packets are routed by
the allowed IPs; the source of an incoming one is compared with nothing.
-/

namespace WgKotlin
namespace Crypto

open Proto Util Kotlin Library

/-- The source address in the header of a packet. -/
def packetSource (packet : Bytes) : Option Ip :=
  match packet with
  | [] => none
  | first :: _ =>
    let version := (first.toNat >>> 4) &&& 0x0f
    if version = 4 ∧ 20 ≤ packet.length then
      some { value := some (.v4 (copyOfRange packet 12 16)) }
    else if version = 6 ∧ 40 ≤ packet.length then
      some { value := some (.v6 (copyOfRange packet 8 24)) }
    else none

/-- The rule for destinations, applied to the source: the peer owns a longest allowed IP that
contains it. -/
def SourceOwned (entries : List PeerSessionEntry) (owner : PeerSessionEntry) (packet : Bytes) :
    Prop :=
  ∃ source c, packetSource packet = some source ∧ IsRoute entries source (owner, c)

/-- What an iteration for a datagram puts on `tunPipe`.  One that throws puts nothing there. -/
def forwarded (datagram : UdpDatagram) (replies : Nat → Reply) (guarded : Guarded) : List Bytes :=
  match encryptedIteration datagram replies guarded with
  | (it, .ok ()) => it.pendingTun
  | (_, .error _) => []

/-! ### Everything is forwarded -/

section Forwarded

variable {datagram : UdpDatagram} {replies : Nat → Reply} {guarded : Guarded}
  {selected : PeerSessionEntry}

/-- The packets of all results up to `Done` are forwarded, if there are at most 255. -/
theorem forwarded_of_drains {writes : List PacketAction}
    (hselected : firstMatch datagram.remoteEndpoint guarded.sessionEntriesByPeer.values =
      .ok (some selected))
    (hdrains : Drains replies 0 writes) (hlimit : writes.length ≤ 255) :
    forwarded datagram replies guarded = writes.filterMap PacketAction.tunPacket? := by
  obtain ⟨it, hit, hgains, _⟩ :=
    encryptedIteration_drains hselected hdrains (Nat.lt_succ_of_le hlimit)
  rw [forwarded, hit]
  exact hgains.tun

/-- Any other results end in an exception. -/
theorem forwarded_of_not_drains
    (hselected : firstMatch datagram.remoteEndpoint guarded.sessionEntriesByPeer.values =
      .ok (some selected))
    (hnone : ¬ ∃ writes, Drains replies 0 writes ∧ writes.length ≤ 255) :
    forwarded datagram replies guarded = [] := by
  obtain ⟨it, throwable, hit⟩ := encryptedIteration_fails hselected fun writes hdrains => by
    by_contra hshort
    exact hnone ⟨writes, hdrains, Nat.le_of_lt_succ (Nat.lt_of_not_le hshort)⟩
  rw [forwarded, hit]

/-- Without a session there is nothing to forward. -/
theorem forwarded_of_no_session
    (h : ∀ selected, firstMatch datagram.remoteEndpoint guarded.sessionEntriesByPeer.values ≠
      .ok (some selected)) : forwarded datagram replies guarded = [] := by
  unfold forwarded encryptedIteration
  cases hmatch : firstMatch datagram.remoteEndpoint guarded.sessionEntriesByPeer.values with
  | error throwable => rfl
  | ok found =>
      cases found with
      | none => rfl
      | some selected => exact absurd hmatch (h selected)

/-- The packets that are forwarded come from peers that own their sources exactly when, in
every answer of at most 255 writes and `Done`, each packet for the TUN does: the loop compares
no source with the allowed IPs.  Any other answer makes it throw, and nothing is forwarded. -/
theorem forwarded_sources_owned_iff (datagram : UdpDatagram) (replies : Nat → Reply)
    (guarded : Guarded) :
    (∀ packet ∈ forwarded datagram replies guarded, ∃ selected,
        firstMatch datagram.remoteEndpoint guarded.sessionEntriesByPeer.values =
          .ok (some selected) ∧
        SourceOwned guarded.sessionEntriesByPeer.values selected packet) ↔
      ∀ selected, firstMatch datagram.remoteEndpoint guarded.sessionEntriesByPeer.values =
          .ok (some selected) →
        ∀ writes, Drains replies 0 writes → writes.length ≤ 255 →
          ∀ packet ∈ writes.filterMap PacketAction.tunPacket?,
            SourceOwned guarded.sessionEntriesByPeer.values selected packet := by
  constructor
  · intro howned selected hselected writes hdrains hlimit packet hpacket
    rw [← forwarded_of_drains hselected hdrains hlimit] at hpacket
    obtain ⟨selected', hselected', hsource⟩ := howned packet hpacket
    rw [hselected, Except.ok.injEq, Option.some.injEq] at hselected'
    rw [hselected']
    exact hsource
  · intro howned packet hpacket
    by_cases hsession : ∃ selected,
        firstMatch datagram.remoteEndpoint guarded.sessionEntriesByPeer.values =
          .ok (some selected)
    · obtain ⟨selected, hselected⟩ := hsession
      refine ⟨selected, hselected, ?_⟩
      by_cases hdrains : ∃ writes, Drains replies 0 writes ∧ writes.length ≤ 255
      · obtain ⟨writes, hdrains, hlimit⟩ := hdrains
        rw [forwarded_of_drains hselected hdrains hlimit] at hpacket
        exact howned selected hselected writes hdrains hlimit packet hpacket
      · rw [forwarded_of_not_drains hselected hdrains] at hpacket
        cases hpacket
    · rw [forwarded_of_no_session fun selected h => hsession ⟨selected, h⟩] at hpacket
      cases hpacket

end Forwarded

/-! ### A source that belongs to another peer -/

/-- Two peers with an endpoint and a network each. -/
def twoPeers : ParsedVpnConfiguration where
  interfaceName := "utun0"
  privateKey := "k"
  peers :=
    [{ endpointPort := some 1
       endpointAddress := some { value := some (.v4 [192, 0, 2, 1]) }
       publicKey := "a"
       allowedIps := [exampleCidr 10 2 16] },
      { endpointPort := some 2
        endpointAddress := some { value := some (.v4 [192, 0, 2, 1]) }
        publicKey := "b"
        allowedIps := [exampleCidr 10 1 16] }]

/-- One step for each peer, one for the swap and one for the return. -/
def twoPeersLabels : List Label :=
  .reconcile twoPeers :: List.replicate 4 (.advance (.returned true))

/-- A datagram of the first peer. -/
def spoofingDatagram : UdpDatagram :=
  { payload := [4], remoteEndpoint := { address := "192.0.2.1", port := 1 } }

/-- A packet from 10.1.9.9. -/
def spoofedPacket : Bytes :=
  [0x45, 0, 0, 20, 0, 0, 0, 0, 64, 17, 0, 0, 10, 1, 9, 9, 10, 2, 0, 1]

def spoofingReplies (i : Nat) : Reply :=
  if i = 0 then .ok (.writeToTunIpv4 spoofedPacket) else .ok .done

def spoofedSource : Ip := { value := some (.v4 [10, 1, 9, 9]) }

/-- The entries of the example. -/
def twoPeersEntries : List PeerSessionEntry :=
  ((run step World.init twoPeersLabels).map fun w => w.sessionEntriesByPeer.values).getD []

def twoPeersEntry (i : Nat) : PeerSessionEntry :=
  twoPeersEntries.getD i (exampleEntry 0 "" [])

theorem spoofedPacket_owner :
    IsRoute twoPeersEntries spoofedSource (twoPeersEntry 1, exampleCidr 10 1 16) where
  mem := by decide +kernel
  covered := by decide +kernel
  longest := by decide +kernel

theorem spoofedPacket_not_owned :
    ¬ SourceOwned twoPeersEntries (twoPeersEntry 0) spoofedPacket := by
  intro h
  obtain ⟨source, c, hsource, hroute⟩ := h
  have hspoofed : packetSource spoofedPacket = some spoofedSource := by decide
  rw [hspoofed, Option.some.injEq] at hsource
  subst hsource
  have hnone : ∀ r ∈ ownedRoutes twoPeersEntries, r.1 = twoPeersEntry 0 →
      ¬ r.2.Contains spoofedSource := by
    decide +kernel
  exact hnone _ hroute.mem rfl hroute.covered

/-- The session of the first peer returns a packet in the name of the second, and the packet
goes to the TUN device. -/
theorem spoofed_source_forwarded :
    ∃ w, run step World.init twoPeersLabels = some w ∧ w.outcome = some (.ok ()) ∧
      firstMatch spoofingDatagram.remoteEndpoint w.sessionEntriesByPeer.values =
        .ok (some (twoPeersEntry 0)) ∧
      forwarded spoofingDatagram spoofingReplies w.guarded = [spoofedPacket] ∧
      SourceOwned w.sessionEntriesByPeer.values (twoPeersEntry 1) spoofedPacket ∧
      ¬ SourceOwned w.sessionEntriesByPeer.values (twoPeersEntry 0) spoofedPacket ∧
      (twoPeersEntry 0).peer.publicKey = "a" ∧ (twoPeersEntry 1).peer.publicKey = "b" := by
  have hend : (run step World.init twoPeersLabels).map (fun w => (w.outcome,
      firstMatch spoofingDatagram.remoteEndpoint w.sessionEntriesByPeer.values,
      forwarded spoofingDatagram spoofingReplies w.guarded)) =
      some (some (.ok ()), .ok (some (twoPeersEntry 0)), [spoofedPacket]) := by
    decide +kernel
  obtain ⟨w, hrun, hw⟩ := Option.map_eq_some_iff.mp hend
  simp only [Prod.mk.injEq] at hw
  obtain ⟨houtcome, hmatch, hforwarded⟩ := hw
  have hentries : w.sessionEntriesByPeer.values = twoPeersEntries := by
    rw [twoPeersEntries, hrun]
    rfl
  refine ⟨w, hrun, houtcome, hmatch, hforwarded, ?_⟩
  rw [hentries]
  exact ⟨⟨spoofedSource, exampleCidr 10 1 16, by decide, spoofedPacket_owner⟩,
    spoofedPacket_not_owned, by decide +kernel, by decide +kernel⟩

end Crypto
end WgKotlin
