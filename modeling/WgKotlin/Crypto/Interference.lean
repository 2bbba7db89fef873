import WgKotlin.Crypto.TwoIterations
import WgKotlin.Crypto.Ingress
import WgKotlin.Library.Unwinding

/-!
# Interference between peers

The three loops as a function of their inputs: the packets, the datagrams and what the
sessions answer.  Two runs are compared that differ in the datagrams of one peer and in
the answers of its session.  The other peers see no difference as long as that session
returns no error; one error ends the loops for all.
-/

namespace WgKotlin
namespace Crypto

open Proto Util Kotlin Library

/-! ### The loops -/

/-- What the loops share, and what they have put on the pipes.  A packet for the TUN device
is kept with the peer whose session has returned it. -/
structure Plane where
  guarded : Guarded
  stopped : Bool
  sent : List UdpDatagram
  delivered : List (Option PeerSessionEntry × Bytes)

/-- The datagram goes to the peer. -/
def toPeer (peer : PeerSessionEntry) (datagram : UdpDatagram) : Bool :=
  decide (peerEndpoint peer = .ok datagram.remoteEndpoint)

namespace Plane

def start (guarded : Guarded) : Plane :=
  { guarded := guarded, stopped := false, sent := [], delivered := [] }

def entries (p : Plane) : List PeerSessionEntry := p.guarded.sessionEntriesByPeer.values

/-- One iteration.  An exception goes to `onFailure`, which stops the VPN. -/
def step (p : Plane) (label : LoopLabel) : Plane :=
  if p.stopped then p
  else
    match label.iteration p.guarded with
    | (_, .error _) => { p with stopped := true }
    | (it, .ok ()) =>
      { p with
        guarded := loopEffect p.guarded label
        sent := p.sent ++ it.pendingNetwork
        delivered := p.delivered ++
          it.pendingTun.map fun packet => (label.selected p.entries, packet) }

/-- The datagrams that were sent to a peer. -/
def sentTo (peer : PeerSessionEntry) (p : Plane) : List UdpDatagram :=
  p.sent.filter (toPeer peer)

/-- The packets that the session of a peer has returned. -/
def deliveredFrom (peer : PeerSessionEntry) (p : Plane) : List Bytes :=
  (p.delivered.filter fun packet => decide (packet.1 = some peer)).map Prod.snd

end Plane

/-! ### Inputs -/

/-- Every peer has an endpoint, and no two have the same. -/
structure Separate (entries : List PeerSessionEntry) : Prop where
  endpoint : ∀ e ∈ entries, ∃ endpoint, peerEndpoint e = .ok endpoint
  different : ∀ e ∈ entries, ∀ e' ∈ entries, peerEndpoint e = peerEndpoint e' → e = e'

section Inputs

variable (entries : List PeerSessionEntry) (peer : PeerSessionEntry)

/-- A datagram from the endpoint of the peer. -/
def FromPeer : LoopLabel → Prop
  | .encrypted datagram _ => firstMatch datagram.remoteEndpoint entries = .ok (some peer)
  | .cleartext _ _ | .periodic _ => False

/-- The same input, up to what the session of the peer answers. -/
def SameInput : LoopLabel → LoopLabel → Prop
  | .cleartext packet reply, .cleartext packet' reply' =>
    packet = packet' ∧ (selectSessionForPacket packet entries ≠ .ok (some peer) → reply = reply')
  | .encrypted datagram replies, .encrypted datagram' replies' =>
    datagram = datagram' ∧ replies = replies'
  | .periodic replies, .periodic replies' =>
    ∀ i e, entries[i]? = some e → e ≠ peer → replies i = replies' i
  | _, _ => False

/-- The session of the peer returns no error, and `Done` within the flush limit. -/
def NoError : LoopLabel → Prop
  | .cleartext packet reply =>
    selectSessionForPacket packet entries = .ok (some peer) →
      ∃ action, reply = .ok action ∧ action.serves = true
  | .encrypted datagram replies =>
    firstMatch datagram.remoteEndpoint entries = .ok (some peer) → ∃ n, Serves replies n
  | .periodic replies =>
    ∀ i, entries[i]? = some peer → ∃ action, replies i = .ok action ∧ action.serves = true

/-- What the other peers see is the same. -/
structure Alike (p q : Plane) : Prop where
  left : p.entries = entries
  right : q.entries = entries
  stopped : p.stopped = q.stopped
  sent : ∀ other ∈ entries, other ≠ peer → p.sentTo other = q.sentTo other
  delivered : ∀ other ∈ entries, other ≠ peer → p.deliveredFrom other = q.deliveredFrom other

end Inputs

section Alike

variable {entries : List PeerSessionEntry} {peer : PeerSessionEntry} {p q : Plane}

theorem Alike.symm (h : Alike entries peer p q) : Alike entries peer q p where
  left := h.right
  right := h.left
  stopped := h.stopped.symm
  sent := fun other hmem hne => (h.sent other hmem hne).symm
  delivered := fun other hmem hne => (h.delivered other hmem hne).symm

theorem Plane.step_stopped (hstopped : p.stopped = true) (label : LoopLabel) :
    p.step label = p := by
  rw [Plane.step, if_pos hstopped]

theorem Plane.step_error (hrunning : p.stopped = false) {label : LoopLabel} {throwable : Throwable}
    (h : (label.iteration p.guarded).2 = .error throwable) :
    p.step label = { p with stopped := true } := by
  have hit : label.iteration p.guarded = ((label.iteration p.guarded).1, .error throwable) :=
    Prod.ext rfl h
  rw [Plane.step, hrunning, hit]
  rfl

theorem Plane.step_ok (hrunning : p.stopped = false) {label : LoopLabel}
    (h : (label.iteration p.guarded).2 = .ok ()) :
    p.step label =
      { p with
        guarded := loopEffect p.guarded label
        sent := p.sent ++ (label.iteration p.guarded).1.pendingNetwork
        delivered := p.delivered ++ (label.iteration p.guarded).1.pendingTun.map
          fun packet => (label.selected p.entries, packet) } := by
  have hit : label.iteration p.guarded = ((label.iteration p.guarded).1, .ok ()) :=
    Prod.ext rfl h
  rw [Plane.step, hrunning, hit]
  rfl

theorem toPeer_eq_false (hseparate : Separate entries) {other : PeerSessionEntry}
    {endpoint : UdpEndpoint} (hpeer : peer ∈ entries) (hother : other ∈ entries)
    (hne : other ≠ peer) (hendpoint : peerEndpoint peer = .ok endpoint) (datagram : UdpDatagram)
    (hremote : datagram.remoteEndpoint = endpoint) : toPeer other datagram = false := by
  refine decide_eq_false fun htarget => hne ?_
  refine hseparate.different other hother peer hpeer ?_
  rw [htarget, hendpoint, hremote]

/-- Two iterations that agree for the others. -/
theorem Alike.agreeing (h : Alike entries peer p q) (hrunning : p.stopped = false)
    {l m : LoopLabel} (hselected : l.selected entries = m.selected entries)
    (hagree : ∀ keep : UdpDatagram → Bool, (∀ datagram endpoint, peerEndpoint peer = .ok endpoint →
      datagram.remoteEndpoint = endpoint → keep datagram = false) →
      AgreeResult keep (l.iteration p.guarded) (m.iteration q.guarded))
    (hkeep : ∀ other ∈ entries, other ≠ peer → ∀ datagram endpoint,
      peerEndpoint peer = .ok endpoint → datagram.remoteEndpoint = endpoint →
      toPeer other datagram = false) :
    Alike entries peer (p.step l) (q.step m) := by
  have hrunning' : q.stopped = false := h.stopped ▸ hrunning
  have hresult := (hagree (fun _ => false) fun _ _ _ _ => rfl).result
  cases hl : (l.iteration p.guarded).2 with
  | error throwable =>
      rw [Plane.step_error hrunning hl, Plane.step_error hrunning' (hresult ▸ hl)]
      exact ⟨h.left, h.right, rfl, h.sent, h.delivered⟩
  | ok u =>
      rw [Plane.step_ok hrunning hl, Plane.step_ok hrunning' (hresult ▸ hl)]
      refine ⟨h.left, h.right, h.stopped, fun other hother hne => ?_, fun other hother hne => ?_⟩
      · have hsent := h.sent other hother hne
        have hnew := (hagree (toPeer other) (hkeep other hother hne)).agree.network
        simp only [Plane.sentTo, List.filter_append] at hsent ⊢
        rw [hsent, hnew]
      · have hdelivered := h.delivered other hother hne
        have hnew := (hagree (toPeer other) (hkeep other hother hne)).agree.tun
        simp only [Plane.deliveredFrom, List.filter_append, List.map_append] at hdelivered ⊢
        rw [hdelivered, hnew, h.left, h.right, hselected]

/-- An iteration that the others do not see. -/
theorem Alike.unseen (h : Alike entries peer p q) (hrunning : p.stopped = false)
    {l : LoopLabel} (hselected : l.selected entries = some peer)
    (hok : (l.iteration p.guarded).2 = .ok ())
    (hsent : ∀ other ∈ entries, other ≠ peer →
      (l.iteration p.guarded).1.pendingNetwork.filter (toPeer other) = []) :
    Alike entries peer (p.step l) q := by
  rw [Plane.step_ok hrunning hok]
  refine ⟨h.left, h.right, h.stopped, fun other hother hne => ?_, fun other hother hne => ?_⟩
  · have hbefore := h.sent other hother hne
    simp only [Plane.sentTo, List.filter_append] at hbefore ⊢
    rw [hsent other hother hne, List.append_nil]
    exact hbefore
  · have hbefore := h.delivered other hother hne
    have hnone : (((l.iteration p.guarded).1.pendingTun.map
        fun packet => (l.selected p.entries, packet)).filter
          fun packet => decide (packet.1 = some other)) = [] := by
      refine List.filter_eq_nil_iff.mpr fun packet hpacket htag => ?_
      obtain ⟨bytes, _, rfl⟩ := List.mem_map.mp hpacket
      have hpeer := of_decide_eq_true htag
      rw [h.left, hselected, Option.some.injEq] at hpeer
      exact hne hpeer.symm
    simp only [Plane.deliveredFrom, List.filter_append, List.map_append] at hbefore ⊢
    rw [hnone, List.map_nil, List.append_nil]
    exact hbefore

theorem join_toOption {found : Except Throwable (Option PeerSessionEntry)} :
    found.toOption.join = some peer ↔ found = .ok (some peer) := by
  cases found with
  | error throwable => exact ⟨fun h => (by cases h), fun h => (by cases h)⟩
  | ok found =>
      rw [Except.ok.injEq]
      exact Iff.rfl

theorem selected_cleartext {packet : Bytes} {reply : Reply} :
    (LoopLabel.cleartext packet reply).selected entries = some peer ↔
      selectSessionForPacket packet entries = .ok (some peer) := join_toOption

theorem selected_encrypted {datagram : UdpDatagram} {replies : Nat → Reply} :
    (LoopLabel.encrypted datagram replies).selected entries = some peer ↔
      firstMatch datagram.remoteEndpoint entries = .ok (some peer) := join_toOption

variable (hseparate : Separate entries) (hpeer : peer ∈ entries)
include hseparate hpeer

/-- An iteration of an ingress loop that calls the session of the peer, without an error. -/
theorem Alike.own (h : Alike entries peer p q) {l : LoopLabel} (hnoError : NoError entries peer l)
    (hselected : l.selected entries = some peer) : Alike entries peer (p.step l) q := by
  cases hrunning : p.stopped with
  | true =>
      rw [Plane.step_stopped hrunning]
      exact h
  | false =>
      obtain ⟨endpoint, hendpoint⟩ := hseparate.endpoint peer hpeer
      -- It has not thrown, and each datagram goes to the peer.
      have hquiet : ∀ keep : UdpDatagram → Bool,
          (∀ datagram, datagram.remoteEndpoint = endpoint → keep datagram = false) →
          Quiet keep (Iteration.start p.guarded) (l.iteration p.guarded) := by
        intro keep hkeep
        cases l with
        | cleartext packet reply =>
            have hselect := selected_cleartext.mp hselected
            obtain ⟨action, rfl, hserves⟩ := hnoError hselect
            rw [← h.left] at hselect
            exact cleartext_quiet hendpoint hkeep hselect hserves
        | encrypted datagram replies =>
            have hmatch := selected_encrypted.mp hselected
            obtain ⟨n, hserves⟩ := hnoError hmatch
            rw [← h.left] at hmatch
            exact encrypted_quiet hendpoint hkeep hmatch hserves
        | periodic replies => cases hselected
      refine h.unseen hrunning hselected (hquiet (fun _ => false) fun _ _ => rfl).result ?_
      intro other hother hne
      exact (hquiet (toPeer other)
        (toPeer_eq_false hseparate hpeer hother hne hendpoint)).network

theorem alike_both (h : Alike entries peer p q) {l m : LoopLabel} (hl : NoError entries peer l)
    (hm : NoError entries peer m) (hsame : SameInput entries peer l m) :
    Alike entries peer (p.step l) (q.step m) := by
  cases hrunning : p.stopped with
  | true =>
      rw [Plane.step_stopped hrunning, Plane.step_stopped (h.stopped ▸ hrunning)]
      exact h
  | false =>
      have hentries : p.guarded.sessionEntriesByPeer.values =
          q.guarded.sessionEntriesByPeer.values := h.left.trans h.right.symm
      have hkeep : ∀ other ∈ entries, other ≠ peer → ∀ datagram endpoint,
          peerEndpoint peer = .ok endpoint → datagram.remoteEndpoint = endpoint →
          toPeer other datagram = false :=
        fun other hother hne datagram endpoint hendpoint hremote =>
          toPeer_eq_false hseparate hpeer hother hne hendpoint datagram hremote
      cases l with
      | cleartext packet reply =>
          cases m with
          | cleartext packet' reply' =>
              obtain ⟨rfl, hreply⟩ := hsame
              by_cases hselect : selectSessionForPacket packet entries = .ok (some peer)
              · have hleft := h.own hseparate hpeer hl (selected_cleartext.mpr hselect)
                have hright := hleft.symm.own hseparate hpeer hm (selected_cleartext.mpr hselect)
                exact hright.symm
              · rw [hreply hselect]
                exact h.agreeing hrunning rfl
                  (fun keep _ => cleartext_agree hentries packet reply') hkeep
          | encrypted | periodic => cases hsame
      | encrypted datagram replies =>
          cases m with
          | encrypted datagram' replies' =>
              obtain ⟨rfl, rfl⟩ := hsame
              exact h.agreeing hrunning rfl
                (fun keep _ => encrypted_agree hentries datagram replies) hkeep
          | cleartext | periodic => cases hsame
      | periodic replies =>
          cases m with
          | periodic replies' =>
              obtain ⟨endpoint, hendpoint⟩ := hseparate.endpoint peer hpeer
              refine h.agreeing hrunning rfl (fun keep hfalse => ?_) hkeep
              have hstart : Agree keep (Iteration.start p.guarded) (Iteration.start q.guarded) :=
                ⟨rfl, rfl⟩
              show AgreeResult keep (periodicEntries replies 0 _ _) (periodicEntries replies' 0 _ _)
              rw [hentries, show q.guarded.sessionEntriesByPeer.values = entries from h.right]
              refine periodic_agree hendpoint
                (fun datagram hremote => hfalse datagram endpoint hendpoint hremote) ?_ ?_ ?_ hstart
              · intro k e he hne
                rw [Nat.zero_add]
                exact hsame k e he hne
              · intro k he
                rw [Nat.zero_add]
                exact hl k he
              · intro k he
                rw [Nat.zero_add]
                exact hm k he
          | cleartext | encrypted => cases hsame

end Alike

/-! ### Two runs -/

/-- Two runs of the loops on peers with different endpoints, with the same inputs except for
the datagrams from the endpoint of one peer and the answers of its session.  If that session
returns no error, then what is sent to and delivered from the others is the same, and both
runs go on or both have stopped. -/
theorem peers_do_not_interfere {guarded : Guarded} {peer other : PeerSessionEntry}
    (hseparate : Separate guarded.sessionEntriesByPeer.values)
    (hpeer : peer ∈ guarded.sessionEntriesByPeer.values)
    (hother : other ∈ guarded.sessionEntriesByPeer.values) (hne : other ≠ peer)
    {ls ms : List LoopLabel}
    (haligned : Aligned (SameInput guarded.sessionEntriesByPeer.values peer)
      (FromPeer guarded.sessionEntriesByPeer.values peer) ls ms)
    (hls : ∀ l ∈ ls, NoError guarded.sessionEntriesByPeer.values peer l)
    (hms : ∀ m ∈ ms, NoError guarded.sessionEntriesByPeer.values peer m) :
    (ls.foldl Plane.step (.start guarded)).sentTo other =
        (ms.foldl Plane.step (.start guarded)).sentTo other ∧
      (ls.foldl Plane.step (.start guarded)).deliveredFrom other =
        (ms.foldl Plane.step (.start guarded)).deliveredFrom other ∧
      (ls.foldl Plane.step (.start guarded)).stopped =
        (ms.foldl Plane.step (.start guarded)).stopped := by
  have hstart : Alike guarded.sessionEntriesByPeer.values peer (.start guarded) (.start guarded) :=
    ⟨rfl, rfl, rfl, fun _ _ _ => rfl, fun _ _ _ => rfl⟩
  have hfrom : ∀ l, FromPeer guarded.sessionEntriesByPeer.values peer l →
      l.selected guarded.sessionEntriesByPeer.values = some peer := by
    intro l hl
    cases l with
    | encrypted datagram replies => exact selected_encrypted.mpr hl
    | cleartext | periodic => cases hl
  have hend := unwinding (R := Alike guarded.sessionEntriesByPeer.values peer)
    (P := NoError guarded.sessionEntriesByPeer.values peer)
    (fun _ _ _ _ h hl hm hsame => alike_both hseparate hpeer h hl hm hsame)
    (fun _ _ l h hl hhidden => h.own hseparate hpeer hl (hfrom l hhidden))
    (fun _ _ m h hm hhidden => (h.symm.own hseparate hpeer hm (hfrom m hhidden)).symm)
    haligned hls hms hstart
  exact ⟨hend.sent other hother hne, hend.delivered other hother hne, hend.stopped⟩

/-! ### Examples -/

/-- The session map of the two peers. -/
def twoPeersGuarded : Guarded :=
  ((run step World.init twoPeersLabels).map World.guarded).getD
    { sessionEntriesByPeer := LinkedMap.empty, peerStatsByPublicKey := LinkedMap.empty }

/-- A datagram of the second peer, and a packet in it. -/
def servedLabel : LoopLabel :=
  .encrypted { payload := [4], remoteEndpoint := { address := "192.0.2.1", port := 2 } } fun i =>
    if i = 0 then .ok (.writeToTunIpv4 spoofedPacket) else .ok .done

/-- A datagram of the first peer that its session answers with a keepalive. -/
def answeredLabel : LoopLabel :=
  .encrypted spoofingDatagram fun i => if i = 0 then .ok (.writeToNetwork [1]) else .ok .done

theorem twoPeers_separate : Separate twoPeersGuarded.sessionEntriesByPeer.values where
  endpoint := by
    have hsome : ∀ e ∈ twoPeersGuarded.sessionEntriesByPeer.values,
        (peerEndpoint e).toOption.isSome = true := by
      decide +kernel
    intro e he
    have h := hsome e he
    cases hendpoint : peerEndpoint e with
    | error throwable =>
        rw [hendpoint] at h
        cases h
    | ok endpoint => exact ⟨endpoint, rfl⟩
  different := by decide +kernel

theorem firstMatch_spoofingDatagram :
    firstMatch spoofingDatagram.remoteEndpoint twoPeersGuarded.sessionEntriesByPeer.values =
      .ok (some (twoPeersEntry 0)) := by
  decide +kernel

theorem peers_do_not_interfere_answered :
    ([answeredLabel, servedLabel].foldl Plane.step (.start twoPeersGuarded)).deliveredFrom
        (twoPeersEntry 1) = [spoofedPacket] ∧
      ([answeredLabel, servedLabel].foldl Plane.step (.start twoPeersGuarded)).deliveredFrom
          (twoPeersEntry 1) =
        ([servedLabel].foldl Plane.step (.start twoPeersGuarded)).deliveredFrom
          (twoPeersEntry 1) := by
  have hserved : NoError twoPeersGuarded.sessionEntriesByPeer.values (twoPeersEntry 0)
      servedLabel := by
    intro hmatch
    exact absurd hmatch (by decide +kernel)
  have hanswered : NoError twoPeersGuarded.sessionEntriesByPeer.values (twoPeersEntry 0)
      answeredLabel := by
    refine fun _ => ⟨1, ⟨fun i hi => ?_, rfl, by decide⟩⟩
    obtain rfl : i = 0 := by omega
    exact ⟨_, rfl, rfl⟩
  have haligned : Aligned
      (SameInput twoPeersGuarded.sessionEntriesByPeer.values (twoPeersEntry 0))
      (FromPeer twoPeersGuarded.sessionEntriesByPeer.values (twoPeersEntry 0))
      [answeredLabel, servedLabel] [servedLabel] :=
    .left firstMatch_spoofingDatagram (.both ⟨rfl, rfl⟩ .nil)
  have hother : twoPeersEntry 1 ∈ twoPeersGuarded.sessionEntriesByPeer.values ∧
      twoPeersEntry 1 ≠ twoPeersEntry 0 := by
    decide +kernel
  have hsame := peers_do_not_interfere twoPeers_separate (by decide +kernel) hother.1 hother.2
    haligned
    (by
      intro l hl
      rcases List.mem_cons.mp hl with rfl | hl
      · exact hanswered
      · rw [List.mem_singleton.mp hl]
        exact hserved)
    (by
      intro m hm
      rw [List.mem_singleton.mp hm]
      exact hserved)
  exact ⟨by decide +kernel, hsame.2.1⟩

/-- A malformed datagram of the first peer, with the code of `InvalidPacket`. -/
def malformedLabel : LoopLabel := .encrypted spoofingDatagram fun _ => .ok (.error 12)

/-- The datagram of the first peer ends the loops, and the packet of the second is not
delivered. -/
theorem malformed_datagram_stops_others :
    Separate twoPeersGuarded.sessionEntriesByPeer.values ∧
      Aligned (SameInput twoPeersGuarded.sessionEntriesByPeer.values (twoPeersEntry 0))
        (FromPeer twoPeersGuarded.sessionEntriesByPeer.values (twoPeersEntry 0))
        [malformedLabel, servedLabel] [servedLabel] ∧
      ([malformedLabel, servedLabel].foldl Plane.step (.start twoPeersGuarded)).stopped = true ∧
      ([malformedLabel, servedLabel].foldl Plane.step (.start twoPeersGuarded)).deliveredFrom
        (twoPeersEntry 1) = [] ∧
      ([servedLabel].foldl Plane.step (.start twoPeersGuarded)).deliveredFrom
        (twoPeersEntry 1) = [spoofedPacket] :=
  ⟨twoPeers_separate, .left firstMatch_spoofingDatagram (.both ⟨rfl, rfl⟩ .nil),
    by decide +kernel, by decide +kernel, by decide +kernel⟩

end Crypto
end WgKotlin
