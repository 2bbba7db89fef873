import WgKotlin.Util.IpUtil

/-!
# Configurations of the client

The public configuration, the parsed one and the parsing between them.
-/

namespace WgKotlin

open Proto Util Library

structure DnsConfig where
  searchDomains : List String := []
  servers : List String := []
  deriving DecidableEq, Repr

structure VpnPeer where
  endpointPort : Option Int32 := none
  endpointAddress : Option String := none
  publicKey : String
  allowedIps : List String := []
  persistentKeepalive : Option Int32 := none
  presharedKey : Option String := none
  deriving DecidableEq, Repr

structure VpnConfiguration where
  interfaceName : String
  dns : DnsConfig := {}
  mtu : Option Int32 := none
  addresses : List String := []
  listenPort : Option Int32 := none
  privateKey : String
  peers : List VpnPeer := []
  deriving DecidableEq, Repr

structure ParsedDnsConfig where
  searchDomains : List String := []
  servers : List Ip := []
  deriving DecidableEq, Repr

structure ParsedVpnPeer where
  endpointPort : Option Int32 := none
  endpointAddress : Option Ip := none
  endpointHost : Option String := none
  publicKey : String
  allowedIps : List Cidr := []
  persistentKeepalive : Option Int32 := none
  presharedKey : Option String := none
  deriving DecidableEq, Repr

structure ParsedVpnConfiguration where
  interfaceName : String
  dns : ParsedDnsConfig := {}
  mtu : Option Int32 := none
  addresses : List Cidr := []
  listenPort : Option Int32 := none
  privateKey : String
  peers : List ParsedVpnPeer := []
  deriving DecidableEq, Repr

section Parse

variable (getByName : String → Except Throwable Bytes)

def toParsedDnsConfig (dns : DnsConfig) : Except Throwable ParsedDnsConfig := do
  let servers ← mapAll (resolveToIp getByName) dns.servers
  .ok { searchDomains := dns.searchDomains, servers := servers }

/-- `endpointAddress?.let { it.resolveToIp() }` -/
def resolveEndpoint : Option String → Except Throwable (Option Ip)
  | none => .ok none
  | some host => do
    let ip ← resolveToIp getByName host
    .ok (some ip)

def toParsedVpnPeer (peer : VpnPeer) : Except Throwable ParsedVpnPeer := do
  let parsedIp ← resolveEndpoint getByName peer.endpointAddress
  let allowedIps ← mapAll (toCidr getByName) peer.allowedIps
  .ok {
    endpointPort := peer.endpointPort
    endpointAddress := parsedIp
    endpointHost := none
    publicKey := peer.publicKey
    allowedIps := allowedIps
    persistentKeepalive := peer.persistentKeepalive
    presharedKey := peer.presharedKey }

def toParsedVpnConfiguration (config : VpnConfiguration) :
    Except Throwable ParsedVpnConfiguration := do
  let dns ← toParsedDnsConfig getByName config.dns
  let addresses ← mapAll (toCidr getByName) config.addresses
  let peers ← mapAll (toParsedVpnPeer getByName) config.peers
  .ok {
    interfaceName := config.interfaceName
    dns := dns
    mtu := config.mtu
    addresses := addresses
    listenPort := config.listenPort
    privateKey := config.privateKey
    peers := peers }

end Parse

end WgKotlin
