import WgKotlin.Uniffi.Tunnel
import WgKotlin.Library.Run

/-!
# The buffer of a session

Each operation either refuses its arguments before it takes the lock, or lends the
tunnel a slice of the buffer that has the room the operation needs.  The packets
that a tunnel queues came in through `encrypt_raw_packet` and are no longer than an
IP packet can be, so the slice for an empty input, which is the whole buffer, has
room for each of them.  That is why no sequence of calls poisons a session.
-/

namespace WgKotlin
namespace Uniffi

open Library
open Daemon (IpAddr)

section Session

variable {σ : Type} {tunn : Tunn σ} {parseIp : String → Option IpAddr} {s : TunnelSession σ}

/-! ### One call -/

/-- The call is refused, with nothing changed, or the tunnel is called with a slice
of at least `need` bytes that lies in the buffer. -/
structure Lends (s : TunnelSession σ) (refused : Prop) (need : Nat)
    (call : σ → (dst : Bytes) → Option (Answer σ dst.length))
    (outcome : TunnelSession σ × Ending) : Prop where
  error_iff : (∃ e, outcome.2 = .returned (.error e)) ↔ refused
  unchanged : refused → outcome.1 = s
  lends : ¬ refused → ∃ n, need ≤ n ∧ n ≤ maxPacketBufferSize ∧
    (s.state.buffer.take n).length = n ∧
    outcome = s.settle n (call s.state.tunnel (s.state.buffer.take n))

theorem length_take_buffer {n : Nat} (h : n ≤ maxPacketBufferSize) :
    (s.state.buffer.take n).length = n := by
  rw [List.length_take, s.state.size, Nat.min_eq_left h]

theorem lends_of_refused {refused : Prop} {need : Nat}
    {call : σ → (dst : Bytes) → Option (Answer σ dst.length)} (h : refused) (e : TunnelError) :
    Lends s refused need call (s, .returned (.error e)) where
  error_iff := ⟨fun _ => h, fun _ => ⟨e, rfl⟩⟩
  unchanged := fun _ => rfl
  lends := fun hnot => absurd h hnot

/-- The part that the operations share, behind the checks of their own. -/
theorem lends_packetBufferSize (hs : s.poisoned = false) {refused : Prop} {need : Nat}
    (hneed : need ≤ maxPacketBufferSize) {dstSize : UInt32}
    (hrefused : refused ↔ maxPacketBufferSize < dstSize.toNat)
    (call : σ → (dst : Bytes) → Option (Answer σ dst.length)) :
    Lends s refused need call
      (match packetBufferSize dstSize need with
        | .error e => (s, .returned (.error e))
        | .ok n => s.lend n call) := by
  unfold packetBufferSize
  by_cases hlarge : maxPacketBufferSize < dstSize.toNat
  · rw [if_pos hlarge]
    exact lends_of_refused (hrefused.mpr hlarge) .bufferTooLarge
  · have hn : max dstSize.toNat need ≤ maxPacketBufferSize := by omega
    have hfits : ¬ s.state.buffer.length < max dstSize.toNat need := by
      rw [s.state.size]
      omega
    have hlend : s.lend (max dstSize.toNat need) call = s.settle (max dstSize.toNat need)
        (call s.state.tunnel (s.state.buffer.take (max dstSize.toNat need))) := by
      rw [TunnelSession.lend, hs, if_neg Bool.false_ne_true, if_neg hfits]
    have haccepted : ¬ refused := fun h => hlarge (hrefused.mp h)
    rw [if_neg hlarge]
    simp only [hlend]
    exact {
      error_iff := ⟨fun ⟨_, h⟩ => absurd h settle_ne_error, fun h => absurd h haccepted⟩
      unchanged := fun h => absurd h haccepted
      lends := fun _ => ⟨_, Nat.le_max_right _ _, hn, length_take_buffer hn, rfl⟩ }

theorem lends_encrypt (hs : s.poisoned = false) (src : Bytes) (dstSize : UInt32) :
    Lends s (maxIpPacketSize < src.length ∨ maxPacketBufferSize < dstSize.toNat)
      (max (src.length + dataPacketOverhead) minPacketBufferSize)
      (fun tunnel dst => tunn.encapsulate tunnel src dst)
      (encryptRawPacket tunn s src dstSize) := by
  unfold encryptRawPacket
  by_cases hlarge : maxIpPacketSize < src.length
  · rw [if_pos hlarge]
    exact lends_of_refused (Or.inl hlarge) .packetTooLarge
  · rw [if_neg hlarge]
    have hneed : max (src.length + dataPacketOverhead) minPacketBufferSize ≤
        maxPacketBufferSize := by
      simp only [maxIpPacketSize, dataPacketOverhead, minPacketBufferSize,
        maxPacketBufferSize] at hlarge ⊢
      omega
    exact lends_packetBufferSize hs hneed (or_iff_right hlarge) _

/-- The room that `decrypt_to_raw_packet` asks for. -/
def decryptRoom (src : Bytes) : Nat :=
  if src.isEmpty then maxPacketBufferSize else max src.length minPacketBufferSize

theorem lends_decrypt (hs : s.poisoned = false) (src : Bytes) (dstSize : UInt32)
    (sourceIp : String) :
    Lends s (maxPacketBufferSize < src.length ∨ maxPacketBufferSize < dstSize.toNat ∨
        parseIp sourceIp = none) (decryptRoom src)
      (fun tunnel dst => tunn.decapsulate tunnel (parseIp sourceIp) src dst)
      (decryptToRawPacket tunn s parseIp src dstSize sourceIp) := by
  unfold decryptToRawPacket
  by_cases hlarge : maxPacketBufferSize < src.length
  · rw [if_pos hlarge]
    exact lends_of_refused (Or.inl hlarge) .packetTooLarge
  · rw [if_neg hlarge]
    cases hip : parseIp sourceIp with
    | none => exact lends_of_refused (Or.inr (Or.inr rfl)) .invalidSourceIp
    | some ip =>
        have hneed : decryptRoom src ≤ maxPacketBufferSize := by
          unfold decryptRoom
          split
          · exact Nat.le_refl _
          · exact Nat.max_le.mpr ⟨Nat.le_of_not_lt hlarge, by decide⟩
        have hrefused : (maxPacketBufferSize < src.length ∨
            maxPacketBufferSize < dstSize.toNat ∨ some ip = none) ↔
            maxPacketBufferSize < dstSize.toNat := by
          rw [or_iff_right hlarge, or_iff_left (by simp)]
        exact lends_packetBufferSize hs hneed hrefused _

theorem lends_periodic (hs : s.poisoned = false) (dstSize : UInt32) :
    Lends s (maxPacketBufferSize < dstSize.toNat) minPacketBufferSize tunn.updateTimers
      (runPeriodicTask tunn s dstSize) :=
  lends_packetBufferSize hs (by decide) Iff.rfl _

/-! ### Every call -/

inductive Call
  | encrypt (src : Bytes) (dstSize : UInt32)
  | decrypt (src : Bytes) (dstSize : UInt32) (sourceIp : String)
  | periodic (dstSize : UInt32)

def answerCall (tunn : Tunn σ) (parseIp : String → Option IpAddr) (s : TunnelSession σ) :
    Call → TunnelSession σ × Ending
  | .encrypt src dstSize => encryptRawPacket tunn s src dstSize
  | .decrypt src dstSize sourceIp => decryptToRawPacket tunn s parseIp src dstSize sourceIp
  | .periodic dstSize => runPeriodicTask tunn s dstSize

/-- Calls one after another.  A caller can go on after a panic. -/
def stepCall (tunn : Tunn σ) (parseIp : String → Option IpAddr) (s : TunnelSession σ)
    (call : Call) : Option (TunnelSession σ) :=
  some (answerCall tunn parseIp s call).1

/-- What is assumed of BoringTun: with the room that it needs a call does not panic,
and a packet is queued by `encapsulate` only.  An empty input sends a queued packet. -/
structure Fits (tunn : Tunn σ) (queue : σ → List Bytes) : Prop where
  new : ∀ privateKey publicKey preshared keepAlive index,
    queue (tunn.new privateKey publicKey preshared keepAlive index) = []
  encapsulate : ∀ tunnel src dst,
    max (src.length + dataPacketOverhead) minPacketBufferSize ≤ dst.length →
    ∃ answer, tunn.encapsulate tunnel src dst = some answer ∧
      ∀ packet ∈ queue answer.tunnel, packet ∈ queue tunnel ∨ packet = src
  decapsulate : ∀ tunnel ip src dst, src ≠ [] → max src.length minPacketBufferSize ≤ dst.length →
    ∃ answer, tunn.decapsulate tunnel ip src dst = some answer ∧
      ∀ packet ∈ queue answer.tunnel, packet ∈ queue tunnel
  drain : ∀ tunnel ip dst, minPacketBufferSize ≤ dst.length →
    (∀ packet ∈ queue tunnel, packet.length + dataPacketOverhead ≤ dst.length) →
    ∃ answer, tunn.decapsulate tunnel ip [] dst = some answer ∧
      ∀ packet ∈ queue answer.tunnel, packet ∈ queue tunnel
  updateTimers : ∀ tunnel dst, minPacketBufferSize ≤ dst.length →
    ∃ answer, tunn.updateTimers tunnel dst = some answer ∧
      ∀ packet ∈ queue answer.tunnel, packet ∈ queue tunnel

/-- The session can be used, and what its tunnel has queued are IP packets. -/
structure Usable (queue : σ → List Bytes) (s : TunnelSession σ) : Prop where
  healthy : s.poisoned = false
  queued : ∀ packet ∈ queue s.state.tunnel, packet.length ≤ maxIpPacketSize

variable {queue : σ → List Bytes}

/-- A call that has the room it needs leaves the session usable. -/
theorem Lends.usable {refused : Prop} {need : Nat}
    {call : σ → (dst : Bytes) → Option (Answer σ dst.length)} {outcome : TunnelSession σ × Ending}
    (h : Lends s refused need call outcome) (hs : Usable queue s)
    (hcall : ¬ refused → ∀ dst, need ≤ dst.length → ∃ answer,
      call s.state.tunnel dst = some answer ∧
        ∀ packet ∈ queue answer.tunnel, packet.length ≤ maxIpPacketSize) :
    Usable queue outcome.1 ∧ outcome.2 ≠ .panicked := by
  by_cases hrefused : refused
  · obtain ⟨e, he⟩ := h.error_iff.mpr hrefused
    rw [h.unchanged hrefused, he]
    exact ⟨hs, fun hpanic => (by cases hpanic)⟩
  · obtain ⟨n, hneed, _, hlength, houtcome⟩ := h.lends hrefused
    obtain ⟨answer, hanswer, hqueue⟩ := hcall hrefused (s.state.buffer.take n)
      (by rw [hlength]; exact hneed)
    rw [houtcome, hanswer]
    exact ⟨⟨hs.healthy, hqueue⟩, fun hpanic => (by cases hpanic)⟩

theorem usable_answerCall (hfits : Fits tunn queue) (hs : Usable queue s) (call : Call) :
    Usable queue (answerCall tunn parseIp s call).1 ∧
      (answerCall tunn parseIp s call).2 ≠ .panicked := by
  cases call with
  | encrypt src dstSize =>
      refine (lends_encrypt hs.healthy src dstSize).usable hs fun haccepted dst hroom => ?_
      obtain ⟨answer, hanswer, hqueue⟩ := hfits.encapsulate s.state.tunnel src dst hroom
      refine ⟨answer, hanswer, fun packet hpacket => ?_⟩
      rcases hqueue packet hpacket with hold | rfl
      · exact hs.queued packet hold
      · exact Nat.le_of_not_lt fun hlarge => haccepted (Or.inl hlarge)
  | decrypt src dstSize sourceIp =>
      refine (lends_decrypt hs.healthy src dstSize sourceIp).usable hs fun _ dst hroom => ?_
      have hanswer : ∃ answer,
          tunn.decapsulate s.state.tunnel (parseIp sourceIp) src dst = some answer ∧
            ∀ packet ∈ queue answer.tunnel, packet ∈ queue s.state.tunnel := by
        cases src with
        | nil =>
            have hwhole : maxPacketBufferSize ≤ dst.length := hroom
            refine hfits.drain _ _ dst (Nat.le_trans (by decide) hwhole) fun packet hpacket => ?_
            exact Nat.le_trans (Nat.add_le_add_right (hs.queued packet hpacket) _) hwhole
        | cons b rest => exact hfits.decapsulate _ _ _ dst (List.cons_ne_nil b rest) hroom
      obtain ⟨answer, hanswer, hqueue⟩ := hanswer
      exact ⟨answer, hanswer, fun packet hpacket => hs.queued packet (hqueue packet hpacket)⟩
  | periodic dstSize =>
      refine (lends_periodic hs.healthy dstSize).usable hs fun _ dst hroom => ?_
      obtain ⟨answer, hanswer, hqueue⟩ := hfits.updateTimers s.state.tunnel dst hroom
      exact ⟨answer, hanswer, fun packet hpacket => hs.queued packet (hqueue packet hpacket)⟩

theorem usable_createNewTunnel (hfits : Fits tunn queue) {engine : Base64Engine}
    {secretKey publicKey : String} {presharedKey : Option String} {keepAlive : UInt16}
    {index : UInt32}
    (h : createNewTunnel engine tunn secretKey publicKey presharedKey keepAlive index = .ok s) :
    Usable queue s := by
  unfold createNewTunnel at h
  split at h
  · cases h
  · obtain ⟨secret, _, h⟩ := bind_eq_ok.mp h
    obtain ⟨peer, _, h⟩ := bind_eq_ok.mp h
    obtain ⟨preshared, _, h⟩ := bind_eq_ok.mp h
    cases h
    refine ⟨rfl, fun packet hpacket => ?_⟩
    rw [hfits.new] at hpacket
    cases hpacket

/-- No sequence of calls poisons the mutex of a session, whatever the arguments. -/
theorem never_poisoned (hfits : Fits tunn queue) {engine : Base64Engine}
    {secretKey publicKey : String} {presharedKey : Option String} {keepAlive : UInt16}
    {index : UInt32} {start : TunnelSession σ}
    (hstart : createNewTunnel engine tunn secretKey publicKey presharedKey keepAlive index =
      .ok start)
    (hs : Reachable (stepCall tunn parseIp) start s) :
    s.poisoned = false ∧ ∀ call, (answerCall tunn parseIp s call).2 ≠ .panicked := by
  have husable : Usable queue s := by
    refine reachable_invariant (usable_createNewTunnel hfits hstart) (fun s call s' hs hstep => ?_)
      hs
    obtain rfl := Option.some.inj hstep
    exact (usable_answerCall hfits hs call).1
  exact ⟨husable.healthy, fun call => (usable_answerCall hfits husable call).2⟩

end Session

/-- An operation on a session that is not poisoned refuses a packet or a slice that is
too large, or a source that is no address, without a change, and in every other case
the tunnel gets a slice that lies in the buffer and has the room it needs. -/
theorem buffer_in_bounds {σ : Type} (tunn : Tunn σ) (parseIp : String → Option IpAddr)
    (s : TunnelSession σ) (hs : s.poisoned = false) :
    maxPacketBufferSize = 65567 ∧
    (∀ src dstSize, Lends s (65535 < src.length ∨ 65567 < dstSize.toNat)
      (max (src.length + 32) 148) (fun tunnel dst => tunn.encapsulate tunnel src dst)
      (encryptRawPacket tunn s src dstSize)) ∧
    (∀ src dstSize sourceIp,
      Lends s (65567 < src.length ∨ 65567 < dstSize.toNat ∨ parseIp sourceIp = none)
        (if src.isEmpty then 65567 else max src.length 148)
        (fun tunnel dst => tunn.decapsulate tunnel (parseIp sourceIp) src dst)
        (decryptToRawPacket tunn s parseIp src dstSize sourceIp)) ∧
    ∀ dstSize, Lends s (65567 < dstSize.toNat) 148 tunn.updateTimers
      (runPeriodicTask tunn s dstSize) :=
  ⟨rfl, lends_encrypt hs, lends_decrypt hs, lends_periodic hs⟩

/-! ### A tunnel that only queues -/

/-- The packets that wait for a session that never comes. -/
def queueTunn : Tunn (List Bytes) where
  new := fun _ _ _ _ _ => []
  encapsulate := fun queue src dst =>
    if dst.length < max (src.length + dataPacketOverhead) minPacketBufferSize then none
    else some { tunnel := queue ++ [src], dst := dst, size := rfl, result := .done }
  decapsulate := fun queue _ src dst =>
    if src.isEmpty then
      match queue with
      | [] => some { tunnel := [], dst := dst, size := rfl, result := .done }
      | packet :: rest =>
        if dst.length < packet.length + dataPacketOverhead then none
        else some { tunnel := rest, dst := dst, size := rfl, result := .writeToNetwork packet }
    else if dst.length < max src.length minPacketBufferSize then none
    else some { tunnel := queue, dst := dst, size := rfl, result := .done }
  updateTimers := fun queue dst =>
    if dst.length < minPacketBufferSize then none
    else some { tunnel := queue, dst := dst, size := rfl, result := .done }

theorem fits_queueTunn : Fits queueTunn id where
  new := fun _ _ _ _ _ => rfl
  encapsulate := by
    intro queue src dst hroom
    refine ⟨_, if_neg (Nat.not_lt.mpr hroom), fun packet hpacket => ?_⟩
    rcases List.mem_append.mp hpacket with hpacket | hpacket
    · exact Or.inl hpacket
    · exact Or.inr (List.mem_singleton.mp hpacket)
  decapsulate := by
    intro queue ip src dst hne hroom
    have hsrc : ¬ src.isEmpty = true := fun h => hne (List.isEmpty_iff.mp h)
    refine ⟨_, (if_neg hsrc).trans (if_neg (Nat.not_lt.mpr hroom)), fun _ hpacket => hpacket⟩
  drain := by
    intro queue ip dst _ hroom
    cases queue with
    | nil => exact ⟨_, rfl, fun _ hpacket => hpacket⟩
    | cons packet rest =>
        refine ⟨_, if_neg (Nat.not_lt.mpr (hroom packet List.mem_cons_self)), ?_⟩
        exact fun _ hpacket => List.mem_cons_of_mem packet hpacket
  updateTimers := by
    intro queue dst hroom
    exact ⟨_, if_neg (Nat.not_lt.mpr hroom), fun _ hpacket => hpacket⟩

example {engine : Base64Engine} {start s : TunnelSession (List Bytes)} {key : String}
    (hstart : createNewTunnel engine queueTunn key key none 25 1 = .ok start)
    (hs : Reachable (stepCall queueTunn fun _ => none) start s) : s.poisoned = false :=
  (never_poisoned fits_queueTunn hstart hs).1

theorem length_clearBuffer : (List.replicate maxPacketBufferSize (0 : UInt8)).length =
    maxPacketBufferSize := List.length_replicate

/-- A session of that tunnel with one packet in its queue. -/
def queueSession : TunnelSession (List Bytes) where
  state := {
    tunnel := [[0x45]]
    buffer := List.replicate maxPacketBufferSize 0
    size := length_clearBuffer }

def exampleSource : IpAddr where
  family := .v4
  octets := List.replicate 4 1
  size := List.length_replicate

/-- An empty input gets the whole buffer, although no size was asked for. -/
theorem queueSession_drains : queueSession.poisoned = false ∧
    decryptToRawPacket queueTunn queueSession (fun _ => some exampleSource) [] 0 "1.1.1.1" =
      queueSession.settle 65567 (queueTunn.decapsulate [[0x45]] (some exampleSource) []
        (queueSession.state.buffer.take 65567)) := by
  have hlends := (buffer_in_bounds queueTunn (fun _ => some exampleSource) queueSession
    rfl).2.2.1 [] 0 "1.1.1.1"
  have haccepted : ¬ (65567 < ([] : Bytes).length ∨ 65567 < (0 : UInt32).toNat ∨
      some exampleSource = none) := by
    decide
  obtain ⟨n, hneed, hmax, _, houtcome⟩ := hlends.lends haccepted
  obtain rfl : n = 65567 := Nat.le_antisymm hmax hneed
  exact ⟨rfl, houtcome⟩

end Uniffi
end WgKotlin
