import WgKotlin.Config
import WgKotlin.Util.IpText
import WgKotlin.Daemon.Validation

/-!
# Translating a configuration for the daemon

`toTunSessionConfig` copies a parsed configuration into the message that opens a
session, and `JvmInterfaceManager.information` reads it back.  The set of routes
and the set of endpoints are those of the peers, and the routes come in an order
that does not depend on the peers.  The DNS search domains are left out, so the
translation is lossless exactly for configurations without any.
-/

namespace WgKotlin

open Proto Util Kotlin Library Daemon

/-- `sortedBy { it.toCidrString() }`.  A list of at most one element is returned
without looking at its key. -/
def sortedByCidrString (cidrs : List Cidr) : Except Throwable (List Cidr) :=
  if cidrs.length ≤ 1 then .ok cidrs
  else do
    let keyed ← mapAll (fun cidr => do
      let text ← toCidrString cidr
      .ok (text, cidr)) cidrs
    .ok ((sortedBy Prod.fst keyed).map Prod.snd)

def toTunSessionConfig (config : ParsedVpnConfiguration) : Except Throwable TunSessionConfig := do
  let routes ← sortedByCidrString (config.peers.flatMap ParsedVpnPeer.allowedIps).eraseDups
  let endpoints := (config.peers.filterMap ParsedVpnPeer.endpointAddress).eraseDups
  .ok {
    interfaceName := config.interfaceName
    mtu := config.mtu.getD 0
    addresses := config.addresses
    peerAllowedIps := routes
    dns := some { servers := config.dns.servers }
    peerEndpoints := endpoints }

structure VpnInterfaceInformation where
  interfaceName : String
  isUp : Bool
  addresses : List String
  dns : DnsConfig
  mtu : Option Int32
  deriving DecidableEq

/-- `JvmInterfaceManager.information()` for a manager with this `currentConfig`. -/
def information (isRunning : Bool) (currentConfig : Option TunSessionConfig) :
    Except Throwable (Option VpnInterfaceInformation) :=
  match currentConfig with
  | none => .ok none
  | some config => do
    let dns := config.dns.getD {}
    let addresses ← mapAll toCidrString config.addresses
    let servers ← mapAll toPlainString dns.servers
    .ok (some {
      interfaceName := config.interfaceName
      isUp := isRunning
      addresses := addresses
      dns := { searchDomains := dns.searchDomains, servers := servers }
      mtu := if config.mtu = 0 then none else some config.mtu })

/-! ### The routes -/

theorem toCidrString_total {c : Cidr} (h : c.WellFormed) : ∃ text, toCidrString c = .ok text := by
  obtain ⟨plain, _, _, htext⟩ := toCidrString_eq h
  exact ⟨_, htext⟩

/-- The text of a prefix that has one. -/
def cidrText (c : Cidr) : String :=
  match toCidrString c with
  | .ok text => text
  | .error _ => ""

theorem toCidrString_eq_cidrText {c : Cidr} (h : c.WellFormed) :
    toCidrString c = .ok (cidrText c) := by
  obtain ⟨text, htext⟩ := toCidrString_total h
  rw [cidrText, htext]

/-- Well-formed prefixes are sorted by their texts, whatever their number. -/
theorem sortedByCidrString_eq {cidrs : List Cidr} (h : ∀ c ∈ cidrs, c.WellFormed) :
    sortedByCidrString cidrs =
      .ok ((sortedBy Prod.fst (cidrs.map fun c => (cidrText c, c))).map Prod.snd) := by
  unfold sortedByCidrString
  split
  next hlen =>
    match cidrs, hlen with
    | [], _ => rfl
    | [c], _ => rfl
  next =>
    have hkeyed := mapAll_of_ok (l := cidrs) (g := fun c => (cidrText c, c))
      (f := fun cidr => do
        let text ← toCidrString cidr
        Except.ok (text, cidr)) (fun c hc => by
          rw [toCidrString_eq_cidrText (h c hc)]
          rfl)
    rw [hkeyed]
    rfl

section Parsed

variable {getByName : String → Except Throwable Bytes} {config : VpnConfiguration}
  {parsed : ParsedVpnConfiguration}

/-- What parsing leaves as it is and what it parses. -/
structure ParsedFrom (getByName : String → Except Throwable Bytes) (config : VpnConfiguration)
    (parsed : ParsedVpnConfiguration) : Prop where
  interfaceName : parsed.interfaceName = config.interfaceName
  mtu : parsed.mtu = config.mtu
  addresses : mapAll (toCidr getByName) config.addresses = .ok parsed.addresses
  servers : mapAll (resolveToIp getByName) config.dns.servers = .ok parsed.dns.servers
  peers : mapAll (toParsedVpnPeer getByName) config.peers = .ok parsed.peers

theorem parsedFrom_of_ok (h : toParsedVpnConfiguration getByName config = .ok parsed) :
    ParsedFrom getByName config parsed := by
  obtain ⟨dns, hdns, h⟩ := bind_eq_ok.mp h
  obtain ⟨addresses, haddresses, h⟩ := bind_eq_ok.mp h
  obtain ⟨peers, hpeers, h⟩ := bind_eq_ok.mp h
  obtain ⟨servers, hservers, hdns⟩ := bind_eq_ok.mp hdns
  cases hdns
  cases h
  exact ⟨rfl, rfl, haddresses, hservers, hpeers⟩

theorem toParsedVpnPeer_eq_ok {peer : VpnPeer} {p : ParsedVpnPeer}
    (h : toParsedVpnPeer getByName peer = .ok p) :
    mapAll (toCidr getByName) peer.allowedIps = .ok p.allowedIps ∧
      resolveEndpoint getByName peer.endpointAddress = .ok p.endpointAddress := by
  obtain ⟨endpoint, hendpoint, h⟩ := bind_eq_ok.mp h
  obtain ⟨allowedIps, hallowedIps, h⟩ := bind_eq_ok.mp h
  cases h
  exact ⟨hallowedIps, hendpoint⟩

theorem resolveEndpoint_eq_some {address : Option String} {ip : Ip} :
    resolveEndpoint getByName address = .ok (some ip) ↔
      ∃ host, address = some host ∧ resolveToIp getByName host = .ok ip := by
  cases address with
  | none => simp [resolveEndpoint]
  | some host =>
      rw [resolveEndpoint, bind_eq_ok]
      simp

namespace ParsedFrom

theorem mem_allowedIps (h : ParsedFrom getByName config parsed) {c : Cidr} :
    c ∈ parsed.peers.flatMap ParsedVpnPeer.allowedIps ↔
      ∃ peer ∈ config.peers, ∃ text ∈ peer.allowedIps, toCidr getByName text = .ok c := by
  rw [List.mem_flatMap]
  constructor
  · intro hc
    obtain ⟨p, hp, hc⟩ := hc
    obtain ⟨peer, hpeer, hparse⟩ := (mem_mapAll h.peers).mp hp
    exact ⟨peer, hpeer, (mem_mapAll (toParsedVpnPeer_eq_ok hparse).1).mp hc⟩
  · intro hc
    obtain ⟨peer, hpeer, hc⟩ := hc
    obtain ⟨p, hparse⟩ := exists_of_mapAll h.peers hpeer
    exact ⟨p, (mem_mapAll h.peers).mpr ⟨peer, hpeer, hparse⟩,
      (mem_mapAll (toParsedVpnPeer_eq_ok hparse).1).mpr hc⟩

theorem mem_endpoints (h : ParsedFrom getByName config parsed) {ip : Ip} :
    ip ∈ parsed.peers.filterMap ParsedVpnPeer.endpointAddress ↔
      ∃ peer ∈ config.peers, ∃ host, peer.endpointAddress = some host ∧
        resolveToIp getByName host = .ok ip := by
  rw [List.mem_filterMap]
  constructor
  · intro hip
    obtain ⟨p, hp, hip⟩ := hip
    obtain ⟨peer, hpeer, hparse⟩ := (mem_mapAll h.peers).mp hp
    have hendpoint := (toParsedVpnPeer_eq_ok hparse).2
    rw [hip] at hendpoint
    exact ⟨peer, hpeer, resolveEndpoint_eq_some.mp hendpoint⟩
  · intro hip
    obtain ⟨peer, hpeer, hhost⟩ := hip
    obtain ⟨p, hparse⟩ := exists_of_mapAll h.peers hpeer
    refine ⟨p, (mem_mapAll h.peers).mpr ⟨peer, hpeer, hparse⟩, ?_⟩
    have hendpoint := (toParsedVpnPeer_eq_ok hparse).2
    rw [resolveEndpoint_eq_some.mpr hhost, Except.ok.injEq] at hendpoint
    exact hendpoint.symm

theorem wellFormed (h : ParsedFrom getByName config parsed) {c : Cidr}
    (hc : c ∈ parsed.peers.flatMap ParsedVpnPeer.allowedIps) : c.WellFormed := by
  obtain ⟨_, _, _, _, htext⟩ := h.mem_allowedIps.mp hc
  exact toCidr_wellFormed htext

end ParsedFrom

/-- The routes of the message, as a function of the allowed IPs. -/
def routesOf (cidrs : List Cidr) : List Cidr :=
  (sortedBy Prod.fst (cidrs.eraseDups.map fun c => (cidrText c, c))).map Prod.snd

theorem routesOf_perm (cidrs : List Cidr) : (routesOf cidrs).Perm cidrs.eraseDups := by
  have hperm := (sortedBy_perm Prod.fst (cidrs.eraseDups.map fun c => (cidrText c, c))).map Prod.snd
  rw [List.map_map] at hperm
  exact hperm.trans (by rw [show (Prod.snd ∘ fun c : Cidr => (cidrText c, c)) = id from rfl,
    List.map_id])

/-- Routes do not depend on the order of the allowed IPs, nor on repetitions. -/
theorem routesOf_congr {l m : List Cidr} (hl : ∀ c ∈ l, c.WellFormed)
    (hlm : ∀ c, c ∈ l ↔ c ∈ m) : routesOf l = routesOf m := by
  have hperm : l.eraseDups.Perm m.eraseDups := by
    rw [List.perm_ext_iff_of_nodup (nodup_eraseDups l) (nodup_eraseDups m)]
    intro c
    rw [List.mem_eraseDups, List.mem_eraseDups, hlm]
  unfold routesOf
  refine congrArg _ (sortedBy_eq_of_perm Prod.fst (hperm.map _) ?_)
  intro p hp q hq hpq
  obtain ⟨c, hc, rfl⟩ := List.mem_map.mp hp
  obtain ⟨d, hd, rfl⟩ := List.mem_map.mp hq
  have hcwf := hl c (List.mem_eraseDups.mp hc)
  have hdwf := hl d (List.mem_eraseDups.mp hd)
  have htext : toCidrString c = toCidrString d := by
    rw [toCidrString_eq_cidrText hcwf, toCidrString_eq_cidrText hdwf]
    exact congrArg _ hpq
  rw [toCidrString_inj hcwf hdwf htext]

theorem toTunSessionConfig_eq (h : ParsedFrom getByName config parsed) :
    toTunSessionConfig parsed = .ok {
      interfaceName := config.interfaceName
      mtu := config.mtu.getD 0
      addresses := parsed.addresses
      peerAllowedIps := routesOf (parsed.peers.flatMap ParsedVpnPeer.allowedIps)
      peerEndpoints := (parsed.peers.filterMap ParsedVpnPeer.endpointAddress).eraseDups
      dns := some { servers := parsed.dns.servers } } := by
  have hroutes : sortedByCidrString (parsed.peers.flatMap ParsedVpnPeer.allowedIps).eraseDups =
      .ok (routesOf (parsed.peers.flatMap ParsedVpnPeer.allowedIps)) :=
    sortedByCidrString_eq fun c hc => h.wellFormed (List.mem_eraseDups.mp hc)
  unfold toTunSessionConfig
  rw [hroutes, h.interfaceName, h.mtu]
  rfl

end Parsed

/-! ### What the message carries -/

/-- The message carries the configuration, its DNS search domains apart. -/
structure CarriesNetwork (getByName : String → Except Throwable Bytes)
    (config : VpnConfiguration) (tun : TunSessionConfig) : Prop where
  interfaceName : tun.interfaceName = config.interfaceName
  mtu : tun.mtu = config.mtu.getD 0
  addresses : mapAll (toCidr getByName) config.addresses = .ok tun.addresses
  mem_allowedIps : ∀ c, c ∈ tun.peerAllowedIps ↔
    ∃ peer ∈ config.peers, ∃ text ∈ peer.allowedIps, toCidr getByName text = .ok c
  nodup_allowedIps : tun.peerAllowedIps.Nodup
  order : ∀ peers parsed tun', config.peers.Perm peers →
    toParsedVpnConfiguration getByName { config with peers := peers } = .ok parsed →
    toTunSessionConfig parsed = .ok tun' → tun'.peerAllowedIps = tun.peerAllowedIps
  mem_endpoints : ∀ ip, ip ∈ tun.peerEndpoints ↔
    ∃ peer ∈ config.peers, ∃ host, peer.endpointAddress = some host ∧
      resolveToIp getByName host = .ok ip
  nodup_endpoints : tun.peerEndpoints.Nodup
  servers : mapAll (resolveToIp getByName) config.dns.servers = .ok (tun.dns.getD {}).servers

/-- The DNS settings arrive: the search domains are there, what the daemon would
accept of the configuration it accepts of the message, and the client reports
what was asked for. -/
structure DnsKept (getByName : String → Except Throwable Bytes) (config : VpnConfiguration)
    (tun : TunSessionConfig) : Prop where
  searchDomains : (tun.dns.getD {}).searchDomains = config.dns.searchDomains
  validated : ∀ servers, mapAll (resolveToIp getByName) config.dns.servers = .ok servers →
    validateDns { servers := servers, searchDomains := config.dns.searchDomains } = .ok () →
    validateDns (tun.dns.getD {}) = .ok ()
  reported : ∀ isRunning, ∃ info, information isRunning (some tun) = .ok (some info) ∧
    info.dns.searchDomains = config.dns.searchDomains ∧
    mapAll (fun host => do
      let ip ← resolveToIp getByName host
      toPlainString ip) config.dns.servers = .ok info.dns.servers

section Carries

variable {getByName : String → Except Throwable Bytes} {config : VpnConfiguration}
  {parsed : ParsedVpnConfiguration} {tun : TunSessionConfig}

theorem carriesNetwork (h : ParsedFrom getByName config parsed)
    (htun : toTunSessionConfig parsed = .ok tun) : CarriesNetwork getByName config tun := by
  rw [toTunSessionConfig_eq h, Except.ok.injEq] at htun
  subst htun
  have hmem : ∀ c, c ∈ routesOf (parsed.peers.flatMap ParsedVpnPeer.allowedIps) ↔
      c ∈ parsed.peers.flatMap ParsedVpnPeer.allowedIps := by
    intro c
    rw [(routesOf_perm _).mem_iff, List.mem_eraseDups]
  refine ⟨rfl, rfl, h.addresses, fun c => (hmem c).trans h.mem_allowedIps,
    (routesOf_perm _).nodup_iff.mpr (nodup_eraseDups _), ?_,
    fun ip => List.mem_eraseDups.trans h.mem_endpoints, nodup_eraseDups _, h.servers⟩
  intro peers parsed' tun' hperm hparsed' htun'
  have h' := parsedFrom_of_ok hparsed'
  rw [toTunSessionConfig_eq h', Except.ok.injEq] at htun'
  subst htun'
  refine routesOf_congr (fun c hc => h'.wellFormed hc) fun c => ?_
  rw [h'.mem_allowedIps, h.mem_allowedIps]
  constructor
  · intro hc
    obtain ⟨peer, hpeer, hc⟩ := hc
    exact ⟨peer, hperm.mem_iff.mpr hpeer, hc⟩
  · intro hc
    obtain ⟨peer, hpeer, hc⟩ := hc
    exact ⟨peer, hperm.mem_iff.mp hpeer, hc⟩

theorem mapAll_toPlainString {hosts : List String} {servers : List Ip}
    (h : mapAll (resolveToIp getByName) hosts = .ok servers) :
    ∃ texts, mapAll toPlainString servers = .ok texts ∧
      mapAll (fun host => do
        let ip ← resolveToIp getByName host
        toPlainString ip) hosts = .ok texts := by
  have hall := mapAll_eq_ok.mp h
  clear h
  induction hall with
  | nil => exact ⟨[], rfl, rfl⟩
  | cons hip _ ih =>
      obtain ⟨texts, hservers, hhosts⟩ := ih
      obtain ⟨text, htext, _⟩ := toPlainString_total (resolveToIp_wellFormed hip)
      refine ⟨text :: texts, ?_, ?_⟩
      · rw [mapAll, htext, hservers]
        rfl
      · rw [mapAll, hip, hhosts]
        show (toPlainString _ >>= _) = _
        rw [htext]
        rfl

theorem information_of_ok {isRunning : Bool} {addresses servers : List String}
    (haddresses : mapAll toCidrString tun.addresses = .ok addresses)
    (hservers : mapAll toPlainString (tun.dns.getD {}).servers = .ok servers) :
    information isRunning (some tun) = .ok (some {
      interfaceName := tun.interfaceName
      isUp := isRunning
      addresses := addresses
      dns := { searchDomains := (tun.dns.getD {}).searchDomains, servers := servers }
      mtu := if tun.mtu = 0 then none else some tun.mtu }) := by
  rw [information, haddresses]
  show (mapAll toPlainString (tun.dns.getD {}).servers >>= _) = _
  rw [hservers]
  rfl

/-- The client can always report on the message, without search domains. -/
theorem information_eq (h : ParsedFrom getByName config parsed)
    (htun : toTunSessionConfig parsed = .ok tun) (isRunning : Bool) :
    ∃ info, information isRunning (some tun) = .ok (some info) ∧ info.dns.searchDomains = [] ∧
      mapAll (fun host => do
        let ip ← resolveToIp getByName host
        toPlainString ip) config.dns.servers = .ok info.dns.servers := by
  rw [toTunSessionConfig_eq h, Except.ok.injEq] at htun
  subst htun
  have haddresses : mapAll toCidrString parsed.addresses = .ok (parsed.addresses.map cidrText) := by
    refine mapAll_of_ok fun c hc => toCidrString_eq_cidrText ?_
    obtain ⟨text, _, htext⟩ := (mem_mapAll h.addresses).mp hc
    exact toCidr_wellFormed htext
  obtain ⟨texts, hservers, hhosts⟩ := mapAll_toPlainString h.servers
  exact ⟨_, information_of_ok haddresses hservers, rfl, hhosts⟩

/-- A configuration that parses is translated, and the message carries all of it
except the DNS search domains.  The DNS settings arrive exactly if there are no
search domains to carry. -/
theorem toTunSessionConfig_lossless_iff
    (h : toParsedVpnConfiguration getByName config = .ok parsed) :
    ∃ tun, toTunSessionConfig parsed = .ok tun ∧ CarriesNetwork getByName config tun ∧
      (DnsKept getByName config tun ↔ config.dns.searchDomains = []) := by
  have hfrom := parsedFrom_of_ok h
  have htun := toTunSessionConfig_eq hfrom
  refine ⟨_, htun, carriesNetwork hfrom htun, ?_⟩
  constructor
  · intro hkept
    exact hkept.searchDomains.symm
  · intro hnone
    refine ⟨hnone.symm, ?_, ?_⟩
    · intro servers hservers hvalid
      rw [hfrom.servers, Except.ok.injEq] at hservers
      subst hservers
      rw [hnone] at hvalid
      exact hvalid
    · intro isRunning
      rw [hnone]
      exact information_eq hfrom htun isRunning

end Carries

/-- Name resolution for the examples: one name, one address. -/
def exampleGetByName (host : String) : Except Throwable Bytes :=
  if host = "1.1.1.1" then .ok [1, 1, 1, 1]
  else if host = "10.0.0.0" then .ok [10, 0, 0, 0]
  else .error (.unknownHost host)

def exampleVpn (searchDomains : List String) : VpnConfiguration :=
  { interfaceName := "utun0"
    privateKey := "k"
    dns := { searchDomains := searchDomains, servers := ["1.1.1.1"] }
    addresses := ["10.0.0.0/24"]
    peers := [{ publicKey := "b", allowedIps := ["10.0.0.0/8"] }] }

theorem toTunSessionConfig_without_search_domains :
    ∃ parsed tun, toParsedVpnConfiguration exampleGetByName (exampleVpn []) = .ok parsed ∧
      toTunSessionConfig parsed = .ok tun ∧ CarriesNetwork exampleGetByName (exampleVpn []) tun ∧
      DnsKept exampleGetByName (exampleVpn []) tun := by
  have hparsed : ∃ parsed, toParsedVpnConfiguration exampleGetByName (exampleVpn []) = .ok parsed :=
    ⟨_, rfl⟩
  obtain ⟨parsed, hparsed⟩ := hparsed
  obtain ⟨tun, htun, hcarries, hiff⟩ := toTunSessionConfig_lossless_iff hparsed
  exact ⟨parsed, tun, hparsed, htun, hcarries, hiff.mpr rfl⟩

/-- One server and one search domain: the daemon would accept the settings and
rejects the message. -/
theorem toTunSessionConfig_drops_search_domains :
    ∃ parsed tun, toParsedVpnConfiguration exampleGetByName (exampleVpn ["corp.local"]) =
        .ok parsed ∧
      toTunSessionConfig parsed = .ok tun ∧
      validateDns { servers := parsed.dns.servers, searchDomains := ["corp.local"] } = .ok () ∧
      validateDns (tun.dns.getD {}) =
        .error "dns must provide both searchDomains and servers, or neither" ∧
      ¬ DnsKept exampleGetByName (exampleVpn ["corp.local"]) tun := by
  refine ⟨_, _, rfl, rfl, by decide, by decide, ?_⟩
  intro hkept
  cases hkept.searchDomains

end WgKotlin
