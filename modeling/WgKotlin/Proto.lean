import Mathlib.Init

/-!
# Messages of the daemon protocol

The protobuf messages that the client and the daemon exchange.  A message field
of another message is optional, as on the wire.  Repeated fields are lists and
an unset one is empty.  The field `prefix` of `Cidr` is called `prefixLen`.
-/

namespace WgKotlin

abbrev Bytes := List UInt8

namespace Proto

inductive IpValue
  | v4 (bytes : Bytes)
  | v6 (bytes : Bytes)
  deriving DecidableEq, Repr

structure Ip where
  value : Option IpValue
  deriving DecidableEq, Repr

structure Cidr where
  ip : Option Ip
  prefixLen : UInt32
  deriving DecidableEq, Repr

structure DnsConfig where
  servers : List Ip := []
  searchDomains : List String := []
  deriving DecidableEq, Repr

structure TunSessionConfig where
  interfaceName : String
  mtu : Int32
  addresses : List Cidr
  peerAllowedIps : List Cidr
  peerEndpoints : List Ip
  dns : Option DnsConfig
  deriving DecidableEq, Repr

end Proto
end WgKotlin
