import WgKotlin.Crypto.Flush

/-!
# Packets sent before the handshake

BoringTun keeps the packets of a peer without a session and hands them out after
the handshake, one for each call with an empty input.  The encrypted loop makes
these calls while it answers the handshake response.  The queue of BoringTun and
the flush limit have the same size, and the loop spends one result on the
keepalive and wants one more for `Done`.
-/

namespace WgKotlin
namespace Crypto

open Proto Util Kotlin Library

/-! ### The tunnel -/

/-- The two calls of `boringtun::noise::Tunn` that matter here. -/
structure Tunn (σ : Type) where
  encapsulate : σ → Bytes → PacketAction × σ
  decapsulate : σ → Bytes → PacketAction × σ

def maxQueueDepth : Nat := 256

/-- A full queue drops the packet. -/
def enqueue (queue : List Bytes) (packet : Bytes) : List Bytes :=
  if queue.length < maxQueueDepth then queue ++ [packet] else queue

/-- What is assumed of BoringTun: `waiting` holds without a session and `draining`
with one, each with the packets in the queue.  `Seals packet sealed` says that
`sealed` is an encryption of `packet`. -/
structure Queues {σ : Type} (tunn : Tunn σ) (response keepalive : Bytes)
    (Seals : Bytes → Bytes → Prop) where
  waiting : σ → List Bytes → Prop
  draining : σ → List Bytes → Prop
  encapsulate : ∀ s queue packet, waiting s queue →
    waiting (tunn.encapsulate s packet).2 (enqueue queue packet)
  answered : ∀ s queue, waiting s queue →
    (tunn.decapsulate s response).1 = .writeToNetwork keepalive ∧
      draining (tunn.decapsulate s response).2 queue
  drain : ∀ s packet queue, draining s (packet :: queue) →
    ∃ sealed, Seals packet sealed ∧ (tunn.decapsulate s []).1 = .writeToNetwork sealed ∧
      draining (tunn.decapsulate s []).2 queue
  drained : ∀ s, draining s [] → (tunn.decapsulate s []).1 = .done

section Calls

variable {σ : Type} (tunn : Tunn σ)

/-- The tunnel after the packets were sent. -/
def sendAll (s : σ) (packets : List Bytes) : σ :=
  packets.foldl (fun s packet => (tunn.encapsulate s packet).2) s

/-- The input of the `i`-th call of an iteration of the encrypted loop. -/
def callInput (payload : Bytes) (i : Nat) : Bytes := if i = 0 then payload else []

/-- The tunnel before that call. -/
def stateBefore (s : σ) (payload : Bytes) : Nat → σ
  | 0 => s
  | i + 1 => (tunn.decapsulate (stateBefore s payload i) (callInput payload i)).2

/-- What `decryptToRawPacket` returns to the calls. -/
def tunnReplies (s : σ) (payload : Bytes) (i : Nat) : Reply :=
  .ok (tunn.decapsulate (stateBefore tunn s payload i) (callInput payload i)).1

end Calls

theorem foldl_enqueue {queue : List Bytes} (h : queue.length ≤ maxQueueDepth)
    (packets : List Bytes) :
    packets.foldl enqueue queue = (queue ++ packets).take maxQueueDepth := by
  induction packets generalizing queue with
  | nil => rw [List.foldl_nil, List.append_nil, List.take_of_length_le h]
  | cons packet rest ih =>
      rw [List.foldl_cons, enqueue]
      by_cases hroom : queue.length < maxQueueDepth
      · rw [if_pos hroom, ih (by rw [List.length_append, List.length_singleton]; omega),
          List.append_assoc, List.singleton_append]
      · have hfull : queue.length = maxQueueDepth := by omega
        rw [if_neg hroom, ih h, ← hfull, List.take_left, List.take_left]

/-! ### The answers to the response -/

section Response

variable {σ : Type} {tunn : Tunn σ} {response keepalive : Bytes} {Seals : Bytes → Bytes → Prop}
  (queues : Queues tunn response keepalive Seals)

theorem waiting_sendAll {s : σ} {queue : List Bytes} (h : queues.waiting s queue)
    (packets : List Bytes) :
    queues.waiting (sendAll tunn s packets) (packets.foldl enqueue queue) := by
  induction packets generalizing s queue with
  | nil => exact h
  | cons packet rest ih => exact ih (queues.encapsulate s queue packet h)

/-- One write for each packet of the queue. -/
theorem drains_queue {s : σ} {payload : Bytes} {queue : List Bytes} {i : Nat}
    (h : queues.draining (stateBefore tunn s payload (i + 1)) queue) :
    ∃ sealed, List.Forall₂ Seals queue sealed ∧
      Drains (tunnReplies tunn s payload) (i + 1) (sealed.map .writeToNetwork) := by
  have hinput : callInput payload (i + 1) = [] := rfl
  induction queue generalizing i with
  | nil =>
      refine ⟨[], .nil, Drains.nil ?_⟩
      rw [tunnReplies, hinput, queues.drained _ h]
  | cons packet rest ih =>
      obtain ⟨c, hseals, hreply, hrest⟩ := queues.drain _ packet rest h
      obtain ⟨sealed, hsealed, hdrains⟩ := ih (i := i + 1) hrest rfl
      refine ⟨c :: sealed, .cons hseals hsealed, Drains.cons rfl ?_ hdrains⟩
      rw [tunnReplies, hinput, hreply]

/-- The keepalive comes first. -/
theorem drains_response {s : σ} {queue : List Bytes} (h : queues.waiting s queue) :
    ∃ sealed, List.Forall₂ Seals queue sealed ∧
      Drains (tunnReplies tunn s response) 0 ((keepalive :: sealed).map .writeToNetwork) := by
  obtain ⟨hreply, hdraining⟩ := queues.answered s queue h
  obtain ⟨sealed, hsealed, hdrains⟩ := drains_queue queues (i := 0) hdraining
  refine ⟨sealed, hsealed, Drains.cons rfl ?_ hdrains⟩
  show Except.ok (tunn.decapsulate s response).1 = _
  rw [hreply]

end Response

/-- A list of writes that ends with `Done` is determined by the answers. -/
theorem Drains.unique {replies : Nat → Reply} {handled : Nat} {writes writes' : List PacketAction}
    (h : Drains replies handled writes) (h' : Drains replies handled writes') :
    writes = writes' := by
  induction writes generalizing handled writes' with
  | nil =>
      cases writes' with
      | nil => rfl
      | cons action rest =>
          have hsame := h.done.symm.trans h'.head.2
          have hwrite := h'.head.1
          rw [← Except.ok.inj hsame] at hwrite
          cases hwrite
  | cons action rest ih =>
      cases writes' with
      | nil =>
          have hsame := h'.done.symm.trans h.head.2
          have hwrite := h.head.1
          rw [← Except.ok.inj hsame] at hwrite
          cases hwrite
      | cons action' rest' =>
          have hsame := h.head.2.symm.trans h'.head.2
          rw [Except.ok.inj hsame, ih h.tail h'.tail]

/-! ### The response in the encrypted loop -/

theorem filterMap_networkPacket (packets : List Bytes) :
    (packets.map PacketAction.writeToNetwork).filterMap PacketAction.networkPacket? = packets := by
  rw [List.filterMap_map]
  exact List.filterMap_some

theorem filterMap_tunPacket (packets : List Bytes) :
    (packets.map PacketAction.writeToNetwork).filterMap PacketAction.tunPacket? = [] := by
  rw [List.filterMap_map]
  exact List.filterMap_eq_nil_iff.mpr fun _ _ => rfl

section Loop

variable {σ : Type} {tunn : Tunn σ} {keepalive : Bytes} {Seals : Bytes → Bytes → Prop}
  {datagram : UdpDatagram} {guarded : Guarded} {selected : PeerSessionEntry}

/-- The response is answered with the keepalive and the whole queue, in order. -/
def AnswersInFull (tunn : Tunn σ) (keepalive : Bytes) (Seals : Bytes → Bytes → Prop)
    (datagram : UdpDatagram) (guarded : Guarded) (s : σ) (queue : List Bytes) : Prop :=
  ∃ sealed, List.Forall₂ Seals queue sealed ∧
    sends (encryptedIteration datagram (tunnReplies tunn s datagram.payload) guarded) = {
      network := (keepalive :: sealed).map fun packet =>
        { payload := packet, remoteEndpoint := datagram.remoteEndpoint }
      tun := []
      failure := none }

theorem answersInFull_of_short (queues : Queues tunn datagram.payload keepalive Seals) {s : σ}
    {queue : List Bytes} (h : queues.waiting s queue) (hshort : queue.length ≤ 254)
    (hselected : firstMatch datagram.remoteEndpoint guarded.sessionEntriesByPeer.values =
      .ok (some selected)) :
    AnswersInFull tunn keepalive Seals datagram guarded s queue := by
  obtain ⟨sealed, hsealed, hdrains⟩ := drains_response queues h
  have hlimit : ((keepalive :: sealed).map PacketAction.writeToNetwork).length <
      defaultMaxFlushIterations := by
    rw [List.length_map, List.length_cons, ← hsealed.length_eq, defaultMaxFlushIterations]
    omega
  obtain ⟨it, hresult, hgains, _⟩ := encryptedIteration_drains hselected hdrains hlimit
  refine ⟨sealed, hsealed, ?_⟩
  rw [hresult, sends, hgains.network, hgains.tun, filterMap_networkPacket, filterMap_tunPacket]
  rfl

/-- A longer queue runs into the flush limit, and nothing is sent. -/
theorem fails_of_long (queues : Queues tunn datagram.payload keepalive Seals) {s : σ}
    {queue : List Bytes} (h : queues.waiting s queue) (hlong : 254 < queue.length)
    (hselected : firstMatch datagram.remoteEndpoint guarded.sessionEntriesByPeer.values =
      .ok (some selected)) :
    ∃ throwable,
      sends (encryptedIteration datagram (tunnReplies tunn s datagram.payload) guarded) =
        { network := [], tun := [], failure := some throwable } := by
  obtain ⟨sealed, hsealed, hdrains⟩ := drains_response queues h
  have hlimit : ∀ writes, Drains (tunnReplies tunn s datagram.payload) 0 writes →
      defaultMaxFlushIterations ≤ writes.length := by
    intro writes hwrites
    rw [hwrites.unique hdrains, List.length_map, List.length_cons, ← hsealed.length_eq,
      defaultMaxFlushIterations]
    omega
  obtain ⟨it, throwable, hresult⟩ := encryptedIteration_fails hselected hlimit
  rw [hresult]
  exact ⟨throwable, rfl⟩

/-- What was sent before the handshake response survives it exactly when it was at
most 254 packets. -/
theorem handshake_answered_iff (queues : Queues tunn datagram.payload keepalive Seals) {s : σ}
    (hs : queues.waiting s []) (packets : List Bytes)
    (hselected : firstMatch datagram.remoteEndpoint guarded.sessionEntriesByPeer.values =
      .ok (some selected)) :
    AnswersInFull tunn keepalive Seals datagram guarded (sendAll tunn s packets)
      (packets.take maxQueueDepth) ↔ packets.length ≤ 254 := by
  have hwaiting := waiting_sendAll queues hs packets
  rw [foldl_enqueue (Nat.zero_le _), List.nil_append] at hwaiting
  have hlength : (packets.take maxQueueDepth).length = min 256 packets.length :=
    List.length_take
  constructor
  · intro hfull
    by_contra hlong
    obtain ⟨throwable, hfails⟩ := fails_of_long queues hwaiting (by omega) hselected
    obtain ⟨_, _, hsends⟩ := hfull
    rw [hfails] at hsends
    cases congrArg Sends.failure hsends
  · intro hshort
    exact answersInFull_of_short queues hwaiting (by omega) hselected

end Loop

/-! ### A queue as the tunnel -/

/-- A tunnel that is nothing but its queue, and whether it has a session. -/
def queueTunn : Tunn (Bool × List Bytes) where
  encapsulate := fun s packet => (.done, (s.1, enqueue s.2 packet))
  decapsulate := fun s _ =>
    match s with
    | (false, queue) => (.writeToNetwork [], (true, queue))
    | (true, packet :: queue) => (.writeToNetwork packet, (true, queue))
    | (true, []) => (.done, (true, []))

def queueTunnQueues (response : Bytes) : Queues queueTunn response [] (· = ·) where
  waiting := fun s queue => s = (false, queue)
  draining := fun s queue => s = (true, queue)
  encapsulate := fun s queue packet h => by rw [h]; rfl
  answered := fun s queue h => by rw [h]; exact ⟨rfl, rfl⟩
  drain := fun s packet queue h => ⟨packet, rfl, by rw [h]; rfl, by rw [h]; rfl⟩
  drained := fun s h => by rw [h]; rfl

/-- Two packets are forwarded after the keepalive. -/
theorem two_packets_survive :
    AnswersInFull queueTunn [] (· = ·) onePeerDatagram onePeerGuarded
      (sendAll queueTunn (false, []) [[1], [2]]) [[1], [2]] :=
  (handshake_answered_iff (queueTunnQueues onePeerDatagram.payload) rfl [[1], [2]]
    firstMatch_onePeer).mpr (by decide)

/-- The 255th packet makes the response fail, and none of them is sent. -/
theorem packets_lost_at_handshake :
    ∃ throwable,
      sends (encryptedIteration onePeerDatagram (tunnReplies queueTunn
        (sendAll queueTunn (false, []) (List.replicate 255 [1])) onePeerDatagram.payload)
        onePeerGuarded) = { network := [], tun := [], failure := some throwable } := by
  have hwaiting : (queueTunnQueues onePeerDatagram.payload).waiting
      (sendAll queueTunn (false, []) (List.replicate 255 [1]))
      ((List.replicate 255 [1]).foldl enqueue []) :=
    waiting_sendAll (queueTunnQueues onePeerDatagram.payload) rfl (List.replicate 255 [1])
  refine fails_of_long (queueTunnQueues onePeerDatagram.payload) hwaiting ?_ firstMatch_onePeer
  rw [foldl_enqueue (Nat.zero_le _), List.nil_append, List.length_take, List.length_replicate]
  decide

end Crypto
end WgKotlin
