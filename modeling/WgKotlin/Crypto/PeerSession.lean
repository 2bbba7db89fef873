import WgKotlin.Config

/-!
# Peer sessions

A session is an object with an identity, the properties of the interface
`PeerSession`, and the call of the factory that made it.  Whether it is active
changes over time and lives in the state of the manager.
-/

namespace WgKotlin
namespace Crypto

open Proto Util Kotlin

/-- The arguments of one call of `PeerSessionFactory.create`. -/
structure CreateCall where
  config : ParsedVpnConfiguration
  peer : ParsedVpnPeer
  peerIndex : Nat
  deriving DecidableEq, Repr

structure PeerSession where
  id : Nat
  peerPublicKey : String
  peerIndex : Nat
  createdBy : CreateCall
  deriving DecidableEq, Repr

structure PeerSessionEntry where
  peer : ParsedVpnPeer
  session : PeerSession
  deriving DecidableEq, Repr

structure UdpEndpoint where
  address : String
  port : Int32
  deriving DecidableEq, Repr

structure UdpDatagram where
  payload : Bytes
  remoteEndpoint : UdpEndpoint
  deriving DecidableEq, Repr

/-- `PeerSessionEntry.peerEndpoint` -/
def peerEndpoint (entry : PeerSessionEntry) : Except Throwable UdpEndpoint := do
  let address ←
    match entry.peer.endpointAddress with
    | some ip => toPlainString ip
    | none => Kotlin.error ("Peer `" ++ entry.peer.publicKey ++ "` is missing endpointAddress")
  let port ←
    match entry.peer.endpointPort with
    | some port => .ok port
    | none => Kotlin.error ("Peer `" ++ entry.peer.publicKey ++ "` is missing endpointPort")
  .ok { address := address, port := port }

inductive PacketAction
  | done
  | writeToNetwork (packet : Bytes)
  | writeToTunIpv4 (packet : Bytes)
  | writeToTunIpv6 (packet : Bytes)
  | error (code : UInt32)
  | notSupported (operation : String)
  deriving DecidableEq, Repr

end Crypto
end WgKotlin
