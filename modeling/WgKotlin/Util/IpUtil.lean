import WgKotlin.Kotlin
import WgKotlin.Network

/-!
# Addresses and prefixes of the client

The functions of `IpUtil.kt`: reading and printing addresses, the destination of
a packet, the prefix test `matches` and the key `normalizedKey` under which two
prefixes count as the same network.

The last two are compared with `Cidr.Contains` and `Cidr.SameNetwork`, which
speak of leading bits.  Both functions mask the same byte in the same way, which
is why equal keys and equal matches go together.
-/

namespace WgKotlin
namespace Util

open Proto Kotlin Library

/-! ### Reading an address -/

/-- `resolveToIp`.  The parameter is `InetAddress.getByName(this).address`. -/
def resolveToIp (getByName : String → Except Throwable Bytes) (host : String) :
    Except Throwable Ip := do
  let bytes ← getByName host
  if bytes.length = 4 then .ok { value := some (.v4 bytes) }
  else if bytes.length = 16 then .ok { value := some (.v6 bytes) }
  else Kotlin.error ("Unexpected address length: " ++ toString bytes.length)

def valueName : Option IpValue → String
  | some (.v4 _) => "V4"
  | some (.v6 _) => "V6"
  | none => "null"

/-- The longest prefix of an address, by family. -/
def maxPrefix (ip : Ip) : Except Throwable UInt32 :=
  match ip.value with
  | some (.v4 _) => .ok 32
  | some (.v6 _) => .ok 128
  | none => Kotlin.error "Unknown IP type"

def toCidr (getByName : String → Except Throwable Bytes) (text : String) :
    Except Throwable Cidr := do
  let parts := splitSlash text
  let ip ← resolveToIp getByName parts.1
  let longest ← maxPrefix ip
  match parts.2 with
  | none => .ok { ip := some ip, prefixLen := longest }
  | some part =>
    match toUIntOrNull part with
    | none => .error (.illegalArgument ("Invalid prefix: '" ++ part ++ "'"))
    | some p =>
      require (p ≤ longest)
        ("Prefix " ++ toString p.toNat ++ " out of range for " ++ valueName ip.value)
      .ok { ip := some ip, prefixLen := p }

/-! ### Printing an address -/

def chunkedPairs : Bytes → Except Throwable (List (UInt8 × UInt8))
  | [] => .ok []
  | [_] => .error .indexOutOfBounds
  | hi :: lo :: rest => do
    let pairs ← chunkedPairs rest
    .ok ((hi, lo) :: pairs)

def segmentString (pair : UInt8 × UInt8) : String :=
  toString16 ((pair.1.toNat <<< 8) ||| pair.2.toNat)

def toPlainString (ip : Ip) : Except Throwable String :=
  match ip.value with
  | none => Kotlin.error "Ip without value field"
  | some (.v4 bytes) => .ok (joinToString '.' (bytes.map fun b => toString b.toNat))
  | some (.v6 bytes) => do
    let pairs ← chunkedPairs bytes
    .ok (joinToString ':' (pairs.map segmentString))

def toCidrString (cidr : Cidr) : Except Throwable String := do
  let plain ← toPlainString cidr.getIp
  .ok (plain ++ "/" ++ toString cidr.prefixLen.toNat)

/-! ### Destinations, prefix tests and network keys -/

/-- The destination address of a raw packet.  The sign extension of the first
byte does not reach the four bits of the version. -/
def parsePacketDestination (packet : Bytes) : Except Throwable Ip :=
  match packet with
  | [] => Kotlin.error "packet is empty"
  | first :: _ =>
    let version := (first.toNat >>> 4) &&& 0x0f
    if version = 4 then do
      require (20 ≤ packet.length)
        ("IPv4 packet too short: " ++ toString packet.length ++ " bytes")
      .ok { value := some (.v4 (copyOfRange packet 16 20)) }
    else if version = 6 then do
      require (40 ≤ packet.length)
        ("IPv6 packet too short: " ++ toString packet.length ++ " bytes")
      .ok { value := some (.v6 (copyOfRange packet 24 40)) }
    else Kotlin.error ("unsupported IP version: " ++ toString version)

def ipBytes (ip : Ip) : Option Bytes :=
  match ip.value with
  | some (.v4 bytes) => some bytes
  | some (.v6 bytes) => some bytes
  | none => none

/-- Whether `value?.javaClass` is the same for both addresses. -/
def sameClass (a b : Ip) : Bool :=
  match a.value, b.value with
  | some (.v4 _), some (.v4 _) => true
  | some (.v6 _), some (.v6 _) => true
  | none, none => true
  | _, _ => false

/-- The loop of `matches` over the whole bytes of the prefix. -/
def fullBytesMatch (cidrBytes dstBytes : Bytes) (index : Int) : Nat → Except Throwable Bool
  | 0 => .ok true
  | count + 1 => do
    let left ← byteAt cidrBytes index
    let right ← byteAt dstBytes index
    if left ≠ right then .ok false else fullBytesMatch cidrBytes dstBytes (index + 1) count

/-- `(0xff shl (8 - remainingBits)) and 0xff` -/
def prefixMask (remainingBits : Int) : Nat := (0xff <<< (8 - remainingBits).toNat) &&& 0xff

/-- The comparison of `matches` once the two addresses are of one class. -/
def bytesMatch (cidrBytes dstBytes : Bytes) (prefixLen : Int) : Except Throwable Bool := do
  let equal ← fullBytesMatch cidrBytes dstBytes 0 (prefixLen.tdiv 8).toNat
  if !equal then .ok false
  else if prefixLen.tmod 8 = 0 then .ok true
  else do
    let left ← byteAt cidrBytes (prefixLen.tdiv 8)
    let right ← byteAt dstBytes (prefixLen.tdiv 8)
    .ok ((left.toNat &&& prefixMask (prefixLen.tmod 8)) ==
      (right.toNat &&& prefixMask (prefixLen.tmod 8)))

def cidrMatches (cidr : Cidr) (destination : Ip) : Except Throwable Bool :=
  match ipBytes cidr.getIp with
  | none => .ok false
  | some cidrBytes =>
    match ipBytes destination with
    | none => .ok false
    | some dstBytes =>
      if sameClass cidr.getIp destination then
        bytesMatch cidrBytes dstBytes (toInt cidr.prefixLen)
      else .ok false

/-- The loop of `normalizeNetworkBytes` that clears `count` bytes from `index` on. -/
def clearBytes (bytes : Bytes) (index : Int) : Nat → Except Throwable Bytes
  | 0 => .ok bytes
  | count + 1 => do
    let bytes ← setByte bytes index 0
    clearBytes bytes (index + 1) count

def normalizeNetworkBytes (bytes : Bytes) (prefixLength : Int) : Except Throwable Bytes :=
  let fullBytes := prefixLength.tdiv 8
  let remainingBits := prefixLength.tmod 8
  if fullBytes < bytes.length then do
    let masked ←
      if 0 < remainingBits then do
        let b ← byteAt bytes fullBytes
        setByte bytes fullBytes (UInt8.ofNat (b.toNat &&& prefixMask remainingBits))
      else .ok bytes
    let zeroFrom := if remainingBits = 0 then fullBytes else fullBytes + 1
    clearBytes masked zeroFrom (bytes.length - zeroFrom).toNat
  else .ok bytes

def familyName (ip : Ip) : Except Throwable String :=
  match ip.value with
  | some (.v4 _) => .ok "v4"
  | some (.v6 _) => .ok "v6"
  | none => Kotlin.error "Unknown IP type"

def hexByte (b : UInt8) : String := padStart (toString16 b.toNat) 2 '0'

def normalizedKey (cidr : Cidr) : Except Throwable String :=
  match ipBytes cidr.getIp with
  | none => Kotlin.error "Cidr without ip"
  | some bytes => do
    let prefixLen := toInt cidr.prefixLen
    let normalized ← normalizeNetworkBytes bytes prefixLen
    let family ← familyName cidr.getIp
    .ok (family ++ "/" ++ toString prefixLen ++ ":" ++ appendAll (normalized.map hexByte))

end Util
end WgKotlin
