import WgKotlin.Daemon.Validation

/-!
# The binding of BoringTun

`lib.rs` of the UniFFI module: keys as text, and sessions that lend one fixed
buffer to a tunnel.  The tunnel and the buffer are behind a mutex.  A panic while
the mutex is held poisons it, and every later call then fails, so a slice that is
out of bounds or too short would end the session for good.
-/

namespace WgKotlin
namespace Uniffi

open Library
open Daemon (IpAddr utf8Len)

def maxIpPacketSize : Nat := 65535
def dataPacketOverhead : Nat := 32
def minPacketBufferSize : Nat := 148
def maxPacketBufferSize : Nat := maxIpPacketSize + dataPacketOverhead
def maxPeerIndex : UInt32 := 0x00ffffff

/-! ### Keys -/

def keySize : Nat := 32

/-- `[u8; 32]` -/
structure Key where
  bytes : Bytes
  size : bytes.length = keySize
  deriving DecidableEq

/-- `base64::Engine` -/
structure Base64Engine where
  encode : Bytes → String
  decode : String → Option Bytes

def convertX25519KeyToBase64 (engine : Base64Engine) (key : Bytes) : Option String :=
  if key.length ≠ keySize then none else some (engine.encode key)

/-- `[0u8; 32]` -/
def Key.zero : Key where
  bytes := List.replicate keySize 0
  size := List.length_replicate

/-- Overwrite the first bytes. -/
def Key.write (decoded : Bytes) (h : decoded.length ≤ keySize) (key : Key) : Key where
  bytes := decoded ++ key.bytes.drop decoded.length
  size := by
    rw [List.length_append, List.length_drop, key.size]
    omega

/-- `BASE64_ENGINE.decode_slice`, which fails if the output has no room. -/
def decodeSlice (engine : Base64Engine) (encoded : String) (output : Key) : Option (Nat × Key) :=
  match engine.decode encoded with
  | none => none
  | some decoded =>
    if h : decoded.length ≤ keySize then some (decoded.length, output.write decoded h) else none

def parseKeyBytes (engine : Base64Engine) (encoded : String) : Option Key :=
  if ¬ (43 ≤ utf8Len encoded.toList ∧ utf8Len encoded.toList ≤ 44) then none
  else
    match decodeSlice engine encoded Key.zero with
    | none => none
    | some (decodedSize, key) => if decodedSize ≠ keySize then none else some key

/-! ### Sessions -/

inductive TunnelError
  | invalidIndex
  | invalidBase64Key
  | packetTooLarge
  | bufferTooLarge
  | invalidSourceIp
  | internal
  deriving DecidableEq, Repr

/-- `boringtun::noise::TunnResult`, with the code of its error. -/
inductive TunnResult
  | done
  | err (code : UInt32)
  | writeToNetwork (packet : Bytes)
  | writeToTunnelV4 (packet : Bytes) (source : IpAddr)
  | writeToTunnelV6 (packet : Bytes) (source : IpAddr)

inductive TunnelPacketResult
  | done
  | error (code : UInt32)
  | writeToNetwork (packet : Bytes)
  | writeToTunnelV4 (packet : Bytes)
  | writeToTunnelV6 (packet : Bytes)
  deriving DecidableEq, Repr

def mapTunnResult : TunnResult → TunnelPacketResult
  | .done => .done
  | .err code => .error code
  | .writeToNetwork packet => .writeToNetwork packet
  | .writeToTunnelV4 packet _ => .writeToTunnelV4 packet
  | .writeToTunnelV6 packet _ => .writeToTunnelV6 packet

/-- What a call leaves behind in the tunnel and in a slice of `n` bytes. -/
structure Answer (σ : Type) (n : Nat) where
  tunnel : σ
  dst : Bytes
  size : dst.length = n
  result : TunnResult

/-- `boringtun::noise::Tunn`.  No answer is a panic. -/
structure Tunn (σ : Type) where
  new : Key → Key → Option Key → Option UInt16 → UInt32 → σ
  encapsulate : σ → Bytes → (dst : Bytes) → Option (Answer σ dst.length)
  decapsulate : σ → Option IpAddr → Bytes → (dst : Bytes) → Option (Answer σ dst.length)
  updateTimers : σ → (dst : Bytes) → Option (Answer σ dst.length)

/-- The buffer is allocated once. -/
structure TunnelState (σ : Type) where
  tunnel : σ
  buffer : Bytes
  size : buffer.length = maxPacketBufferSize

structure TunnelSession (σ : Type) where
  state : TunnelState σ
  poisoned : Bool := false

/-- How a call ends. -/
inductive Ending
  | returned (result : Except TunnelError TunnelPacketResult)
  | panicked

/-- `parse_key_bytes(key).ok_or(TunnelError::InvalidBase64Key)` -/
def requireKey (engine : Base64Engine) (encoded : String) : Except TunnelError Key :=
  match parseKeyBytes engine encoded with
  | some key => .ok key
  | none => .error .invalidBase64Key

def requirePresharedKey (engine : Base64Engine) : Option String → Except TunnelError (Option Key)
  | some v => (requireKey engine v).map some
  | none => .ok none

def packetBufferSize (requestedSize : UInt32) (minimumSize : Nat) : Except TunnelError Nat :=
  if maxPacketBufferSize < requestedSize.toNat then .error .bufferTooLarge
  else .ok (max requestedSize.toNat minimumSize)

section Session

variable {σ : Type}

def createNewTunnel (engine : Base64Engine) (tunn : Tunn σ)
    (argSecretKey argPublicKey : String) (argPresharedKey : Option String) (keepAlive : UInt16)
    (index : UInt32) : Except TunnelError (TunnelSession σ) :=
  if maxPeerIndex < index then .error .invalidIndex
  else do
    let privateKey ← requireKey engine argSecretKey
    let publicKey ← requireKey engine argPublicKey
    let preshared ← requirePresharedKey engine argPresharedKey
    let keepAlive := if keepAlive = 0 then none else some keepAlive
    .ok {
      state := {
        tunnel := tunn.new privateKey publicKey preshared keepAlive index
        buffer := List.replicate maxPacketBufferSize 0
        size := List.length_replicate } }

/-- What becomes of the answer to a call on the first `dstSize` bytes of the buffer. -/
def TunnelSession.settle (s : TunnelSession σ) (dstSize : Nat) :
    Option (Answer σ (s.state.buffer.take dstSize).length) → TunnelSession σ × Ending
  | none => ({ s with poisoned := true }, .panicked)
  | some answer => ({
      s with
      state := {
        tunnel := answer.tunnel
        buffer := answer.dst ++ s.state.buffer.drop dstSize
        size := by
          rw [List.length_append, answer.size, ← List.length_append, List.take_append_drop,
            s.state.size] } }, .returned (.ok (mapTunnResult answer.result)))

/-- An answer is no error of this library. -/
theorem settle_ne_error {s : TunnelSession σ} {n : Nat}
    {answer : Option (Answer σ (s.state.buffer.take n).length)}
    {e : TunnelError} : (s.settle n answer).2 ≠ .returned (.error e) := by
  cases answer with
  | none => exact fun h => (by cases h)
  | some answer => exact fun h => (by cases h)

/-- `self.state.lock()` and a call on `&mut buffer[..dst_size]`. -/
def TunnelSession.lend (s : TunnelSession σ) (dstSize : Nat)
    (call : σ → (dst : Bytes) → Option (Answer σ dst.length)) : TunnelSession σ × Ending :=
  if s.poisoned then (s, .returned (.error .internal))
  else if s.state.buffer.length < dstSize then ({ s with poisoned := true }, .panicked)
  else s.settle dstSize (call s.state.tunnel (s.state.buffer.take dstSize))

variable (tunn : Tunn σ) (s : TunnelSession σ)

def encryptRawPacket (src : Bytes) (dstSize : UInt32) : TunnelSession σ × Ending :=
  if maxIpPacketSize < src.length then (s, .returned (.error .packetTooLarge))
  else
    let minimumSize := max (src.length + dataPacketOverhead) minPacketBufferSize
    match packetBufferSize dstSize minimumSize with
    | .error e => (s, .returned (.error e))
    | .ok dstSize => s.lend dstSize fun tunnel dst => tunn.encapsulate tunnel src dst

/-- The parameter `parseIp` is `IpAddr::from_str`. -/
def decryptToRawPacket (parseIp : String → Option IpAddr) (src : Bytes) (dstSize : UInt32)
    (sourceIp : String) : TunnelSession σ × Ending :=
  if maxPacketBufferSize < src.length then (s, .returned (.error .packetTooLarge))
  else
    match parseIp sourceIp with
    | none => (s, .returned (.error .invalidSourceIp))
    | some ip =>
      -- an empty input drains plaintext that was queued by earlier calls
      let minimumSize :=
        if src.isEmpty then maxPacketBufferSize else max src.length minPacketBufferSize
      match packetBufferSize dstSize minimumSize with
      | .error e => (s, .returned (.error e))
      | .ok dstSize => s.lend dstSize fun tunnel dst => tunn.decapsulate tunnel (some ip) src dst

def runPeriodicTask (dstSize : UInt32) : TunnelSession σ × Ending :=
  match packetBufferSize dstSize minPacketBufferSize with
  | .error e => (s, .returned (.error e))
  | .ok dstSize => s.lend dstSize tunn.updateTimers

end Session

end Uniffi
end WgKotlin
