import WgKotlin.Daemon.Route
import WgKotlin.Daemon.Macos.Requests
import WgKotlin.Library.LongestMatch

/-!
# Split routing

`resolve_endpoint_routes` and `build_and_filter_routes` of `platform/mod.rs`.  A
session installs a host route off the TUN for every peer endpoint and a TUN route
for every allowed IP that is not such a host.  An address is then routed by the
longest of these routes that covers it, and `Splits` says where it goes: an
endpoint keeps its own way out, everything else that was allowed enters the TUN.
-/

namespace WgKotlin
namespace Daemon

open Proto Library

/-! ### The routes of a configuration -/

/-- `EndpointRoute` of a platform: a host route that leaves the TUN aside, with
the lookup that makes it from the way the kernel routes an address. -/
structure EndpointLookup where
  EndpointRoute : Type
  destination : EndpointRoute → IpAddr
  lookup : IpAddr → Except String EndpointRoute
  lookup_destination : ∀ {ip route}, lookup ip = .ok route → destination route = ip

/-- The lookup of macOS over one exchange with the kernel. -/
def Macos.endpointLookup (exchange : Bytes → Except Macos.IoError Bytes)
    (render : Macos.IoError → String) : EndpointLookup where
  EndpointRoute := Macos.EndpointRoute
  destination := Macos.EndpointRoute.destination
  lookup := fun ip => (Macos.EndpointRoute.lookup exchange ip).mapError render
  lookup_destination := by
    intro ip route h
    exact (Macos.EndpointRoute.lookup_spec (mapError_eq_ok.mp h)).1

section Build

variable (platform : EndpointLookup) (display : IpAddr → String)

def resolveEndpoint (addr : Ip) : Except String platform.EndpointRoute :=
  match parseProtoIp addr with
  | none => .error "invalid peer endpoint address"
  | some ip => (platform.lookup ip).mapError fun error =>
      "failed to resolve route for endpoint " ++ display ip ++ ": " ++ error

def resolveEndpointRoutes (config : TunSessionConfig) :
    Except String (List platform.EndpointRoute) :=
  mapAll (resolveEndpoint platform display) config.peerEndpoints

/-- `u8::try_from(prefix).ok()` -/
def tryU8 (n : UInt32) : Option UInt8 :=
  if n.toNat < 256 then some (UInt8.ofNat n.toNat) else none

def allowedRoute (interfaceName : String) (addr : Cidr) : Option Route := do
  let (ip, p) ← parseProtoCidr addr
  let p ← tryU8 p
  some { destination := ip, prefixLen := p, ifName := some interfaceName }

def endpointIps (config : TunSessionConfig) : List IpAddr :=
  config.peerEndpoints.filterMap parseProtoIp

/-- Only the host route of an endpoint is left out. -/
def keepsRoute (endpointIps : List IpAddr) (route : Route) : Bool :=
  decide (route.prefixLen.toNat ≠ route.hostPrefix) || !endpointIps.contains route.destination

/-- The TUN routes that `build_and_filter_routes` returns. -/
def filteredRoutes (config : TunSessionConfig) (interfaceName : String) : List Route :=
  (config.peerAllowedIps.filterMap (allowedRoute interfaceName)).filter
    (keepsRoute (endpointIps config))

/-- `newManager` is what `RouteManager::new` returns. -/
def buildAndFilterRoutes {μ ρ : Type} (newManager : Except String μ) (config : TunSessionConfig)
    (interfaceName : String) (endpointRoutes : List ρ) :
    Except String (μ × List Route × List ρ) := do
  let mgr ← newManager.mapError fun e => "route manager: " ++ e
  .ok (mgr, filteredRoutes config interfaceName, endpointRoutes)

end Build

/-! ### Addresses and prefixes -/

namespace IpAddr

/-- The address as the message `Ip`. -/
def protoIp (ip : IpAddr) : Ip where
  value := match ip.family with
    | .v4 => some (.v4 ip.octets)
    | .v6 => some (.v6 ip.octets)

/-- Two addresses of one family with the same first `p` bits. -/
def SharesPrefix (p : Nat) (a b : IpAddr) : Prop :=
  a.family = b.family ∧ (bits a.octets).take p = (bits b.octets).take p

instance (p : Nat) (a b : IpAddr) : Decidable (SharesPrefix p a b) :=
  inferInstanceAs (Decidable (_ ∧ _))

theorem exists_protoIp_value (ip : IpAddr) :
    ∃ a, ip.protoIp.value = some a ∧ a.family = ip.family ∧ a.bytes = ip.octets := by
  unfold protoIp
  cases hfamily : ip.family with
  | v4 => exact ⟨.v4 ip.octets, rfl, rfl, rfl⟩
  | v6 => exact ⟨.v6 ip.octets, rfl, rfl, rfl⟩

/-- The longest prefix of a family fixes the whole address. -/
theorem sharesPrefix_maxPrefix {a b : IpAddr} : SharesPrefix (maxPrefix a) a b ↔ a = b := by
  constructor
  · intro h
    obtain ⟨hfamily, hbits⟩ := h
    have hlen : a.octets.length = b.octets.length := by rw [a.size, b.size, hfamily]
    rw [maxPrefix, ← a.size] at hbits
    exact IpAddr.ext hfamily (eq_of_take_bits hlen hbits)
  · intro h
    rw [h]
    exact ⟨rfl, rfl⟩

end IpAddr

/-- Containment in a prefix, read off its parsed form. -/
theorem contains_protoIp_iff {c : Cidr} {ip d : IpAddr} {p : UInt32}
    (h : parseProtoCidr c = some (ip, p)) :
    c.Contains d.protoIp ↔ IpAddr.SharesPrefix p.toNat ip d := by
  obtain ⟨i, hi, hip, rfl⟩ := parseProtoCidr_eq_some_iff.mp h
  obtain ⟨a, ha, hfamily, hbytes⟩ := parseProtoIp_eq_some_iff.mp hip
  obtain ⟨b, hb, hfamily', hbytes'⟩ := d.exists_protoIp_value
  have hget : c.getIp.value = some a := by
    rw [Cidr.getIp, hi]
    exact ha
  rw [Cidr.contains_iff hget hb, hfamily, hbytes, hfamily', hbytes']
  rfl

/-! ### What the functions return -/

section Results

variable {platform : EndpointLookup} {display : IpAddr → String} {config : TunSessionConfig}
  {interfaceName : String}

theorem peerAllowedIps_wellFormed {macos : Bool} (h : validateConfig macos config = .ok ()) :
    ∀ c ∈ config.peerAllowedIps, c.WellFormed := by
  obtain ⟨_, _, h⟩ := bind_eq_ok.mp h
  obtain ⟨_, _, h⟩ := bind_eq_ok.mp h
  obtain ⟨_, _, h⟩ := bind_eq_ok.mp h
  obtain ⟨_, _, h⟩ := bind_eq_ok.mp h
  obtain ⟨_, hallowed, _⟩ := bind_eq_ok.mp h
  exact validateCidrList_eq_ok.mp hallowed

theorem resolveEndpoint_eq_ok {addr : Ip} {route : platform.EndpointRoute} :
    resolveEndpoint platform display addr = .ok route ↔
      ∃ ip, parseProtoIp addr = some ip ∧ platform.lookup ip = .ok route := by
  unfold resolveEndpoint
  cases parseProtoIp addr with
  | none => simp
  | some ip => simp [mapError_eq_ok]

/-- The resolved routes are host routes to the endpoints, in their order. -/
theorem map_destination_resolveEndpointRoutes {routes : List platform.EndpointRoute}
    (h : resolveEndpointRoutes platform display config = .ok routes) :
    routes.map platform.destination = endpointIps config := by
  have hall := mapAll_eq_ok.mp h
  unfold endpointIps
  clear h
  generalize config.peerEndpoints = endpoints at hall ⊢
  induction hall with
  | nil => rfl
  | cons hroute _ ih =>
      obtain ⟨ip, hparse, hlookup⟩ := resolveEndpoint_eq_ok.mp hroute
      rw [List.map_cons, ih, List.filterMap_cons, hparse, platform.lookup_destination hlookup]

/-- Endpoints that parse and have a route are all resolved. -/
theorem exists_resolveEndpointRoutes
    (hparse : ∀ e ∈ config.peerEndpoints, ∃ ip, parseProtoIp e = some ip)
    (hlookup : ∀ ip ∈ endpointIps config, ∃ route, platform.lookup ip = .ok route) :
    ∃ routes, resolveEndpointRoutes platform display config = .ok routes := by
  have hone : ∀ e ∈ config.peerEndpoints, ∃ route,
      resolveEndpoint platform display e = .ok route := by
    intro e he
    obtain ⟨ip, hip⟩ := hparse e he
    obtain ⟨route, hroute⟩ := hlookup ip (List.mem_filterMap.mpr ⟨e, he, hip⟩)
    exact ⟨route, resolveEndpoint_eq_ok.mpr ⟨ip, hip, hroute⟩⟩
  exact exists_mapAll hone

/-- A route stands for an allowed IP: its address, its length and the TUN. -/
def Stands (interfaceName : String) (c : Cidr) (t : Route) : Prop :=
  parseProtoCidr c = some (t.destination, c.prefixLen) ∧
    t.prefixLen.toNat = c.prefixLen.toNat ∧ t.ifName = some interfaceName

/-- The conversion of a validated length to eight bits drops nothing. -/
theorem tryU8_eq_some_iff {n : UInt32} (hn : n.toNat < 256) {p : UInt8} :
    tryU8 n = some p ↔ p.toNat = n.toNat := by
  rw [tryU8, if_pos hn, Option.some.injEq, ← UInt8.toNat_inj, UInt8.toNat_ofNat_of_lt' hn]
  exact eq_comm

theorem allowedRoute_eq_some_iff {c : Cidr} (hc : c.WellFormed) {t : Route} :
    allowedRoute interfaceName c = some t ↔ Stands interfaceName c t := by
  obtain ⟨ip, hip⟩ := exists_parseProtoIp_iff.mpr hc.1
  have hparse := parseProtoCidr_eq_some_iff.mpr ⟨c.getIp, hc.ip_eq, hip, rfl⟩
  have hlt : c.prefixLen.toNat < 256 := by
    have hle := hc.prefixLen_le
    omega
  simp only [allowedRoute, Stands, hparse, Option.bind_eq_bind, Option.bind_some,
    Option.bind_eq_some_iff, tryU8_eq_some_iff hlt]
  constructor
  · intro h
    obtain ⟨p, hp, h⟩ := h
    cases h
    exact ⟨rfl, hp, rfl⟩
  · intro h
    obtain ⟨hdest, hlen, hname⟩ := h
    refine ⟨t.prefixLen, hlen, ?_⟩
    cases t
    cases hdest
    cases hname
    rfl

theorem exists_stands {c : Cidr} (hc : c.WellFormed) : ∃ t, Stands interfaceName c t := by
  obtain ⟨ip, hip⟩ := exists_parseProtoIp_iff.mpr hc.1
  have hlt : c.prefixLen.toNat < 256 := by
    have hle := hc.prefixLen_le
    omega
  exact ⟨{ destination := ip
           prefixLen := UInt8.ofNat c.prefixLen.toNat
           ifName := some interfaceName },
    parseProtoCidr_eq_some_iff.mpr ⟨c.getIp, hc.ip_eq, hip, rfl⟩,
    UInt8.toNat_ofNat_of_lt' hlt, rfl⟩

theorem keepsRoute_iff {ips : List IpAddr} {route : Route} :
    keepsRoute ips route = true ↔
      (route.prefixLen.toNat = route.hostPrefix → route.destination ∉ ips) := by
  unfold keepsRoute
  by_cases h : route.prefixLen.toNat = route.hostPrefix
  · simp [h]
  · simp [h]

theorem mem_filteredRoutes (hwf : ∀ c ∈ config.peerAllowedIps, c.WellFormed) {t : Route} :
    t ∈ filteredRoutes config interfaceName ↔
      (∃ c ∈ config.peerAllowedIps, Stands interfaceName c t) ∧
        keepsRoute (endpointIps config) t = true := by
  rw [filteredRoutes, List.mem_filter, List.mem_filterMap]
  refine and_congr_left fun _ => exists_congr fun c => and_congr_right fun hc => ?_
  exact allowedRoute_eq_some_iff (hwf c hc)

end Results

/-! ### The routes of a session -/

/-- A route that a session installs. -/
inductive SessionRoute (platform : EndpointLookup)
  | endpoint (route : platform.EndpointRoute)
  | tun (route : Route)

namespace SessionRoute

variable {platform : EndpointLookup}

def destination : SessionRoute platform → IpAddr
  | .endpoint route => platform.destination route
  | .tun route => route.destination

def prefixLen : SessionRoute platform → Nat
  | .endpoint route => maxPrefix (platform.destination route)
  | .tun route => route.prefixLen.toNat

def Covers (d : IpAddr) (route : SessionRoute platform) : Prop :=
  IpAddr.SharesPrefix route.prefixLen route.destination d

theorem covers_endpoint {d : IpAddr} {route : platform.EndpointRoute} :
    Covers d (.endpoint route) ↔ platform.destination route = d :=
  IpAddr.sharesPrefix_maxPrefix

end SessionRoute

def sessionRoutes {platform : EndpointLookup} (endpointRoutes : List platform.EndpointRoute)
    (tunRoutes : List Route) : List (SessionRoute platform) :=
  endpointRoutes.map .endpoint ++ tunRoutes.map .tun

/-- The route that an address takes: a longest match. -/
def IsRouteTo {platform : EndpointLookup} (routes : List (SessionRoute platform)) (d : IpAddr)
    (route : SessionRoute platform) : Prop :=
  IsLongestMatch (SessionRoute.Covers d) SessionRoute.prefixLen routes route

/-- Where the routes of a session send each address. -/
structure Splits {platform : EndpointLookup} (config : TunSessionConfig) (interfaceName : String)
    (routes : List (SessionRoute platform)) : Prop where
  endpoint : ∀ d ∈ endpointIps config, (∃ r, IsRouteTo routes d r) ∧
    ∀ r, IsRouteTo routes d r → ∃ e, r = .endpoint e ∧ platform.destination e = d
  tun : ∀ d, d ∉ endpointIps config → (∃ c ∈ config.peerAllowedIps, c.Contains d.protoIp) →
    (∃ r, IsRouteTo routes d r) ∧
      ∀ r, IsRouteTo routes d r → ∃ t, r = .tun t ∧ t.ifName = some interfaceName
  nothing : ∀ d, d ∉ endpointIps config →
    (¬ ∃ c ∈ config.peerAllowedIps, c.Contains d.protoIp) → ¬ ∃ r, IsRouteTo routes d r
  subnet : ∀ c ∈ config.peerAllowedIps, ∀ ip p, parseProtoCidr c = some (ip, p) →
    p.toNat ≠ maxPrefix ip →
      ∃ t, .tun t ∈ routes ∧ t.destination = ip ∧ t.prefixLen.toNat = p.toNat

section Splits

variable {platform : EndpointLookup} {config : TunSessionConfig} {interfaceName : String}
  {endpointRoutes : List platform.EndpointRoute}

theorem mem_sessionRoutes {tunRoutes : List Route} {r : SessionRoute platform} :
    r ∈ sessionRoutes endpointRoutes tunRoutes ↔
      (∃ e ∈ endpointRoutes, r = .endpoint e) ∨ ∃ t ∈ tunRoutes, r = .tun t := by
  simp [sessionRoutes, eq_comm]

/-- Off the endpoints only TUN routes cover an address. -/
theorem tun_of_covers (hend : endpointRoutes.map platform.destination = endpointIps config)
    {tunRoutes : List Route} {d : IpAddr} (hd : d ∉ endpointIps config)
    {r : SessionRoute platform} (hr : r ∈ sessionRoutes endpointRoutes tunRoutes)
    (hcovers : SessionRoute.Covers d r) : ∃ t ∈ tunRoutes, r = .tun t := by
  rcases mem_sessionRoutes.mp hr with ⟨e, he, rfl⟩ | htun
  · rw [← hend, ← SessionRoute.covers_endpoint.mp hcovers] at hd
    exact absurd (List.mem_map_of_mem he) hd
  · exact htun

theorem parseProtoCidr_le {c : Cidr} (hc : c.WellFormed) {ip : IpAddr} {p : UInt32}
    (h : parseProtoCidr c = some (ip, p)) : p.toNat ≤ maxPrefix ip := by
  have hok : validateCidr "" 0 c = .ok () := validateCidr_eq_ok.mpr hc
  rw [validateCidr, h] at hok
  by_contra hlt
  rw [Nat.not_le] at hlt
  simp [hlt] at hok

variable (hwf : ∀ c ∈ config.peerAllowedIps, c.WellFormed)

include hwf

/-- A TUN route that covers an endpoint is shorter than a host route, since the
host route of the endpoint is left out. -/
theorem prefixLen_lt_of_mem_filteredRoutes {t : Route} {d : IpAddr}
    (ht : t ∈ filteredRoutes config interfaceName)
    (hcovers : IpAddr.SharesPrefix t.prefixLen.toNat t.destination d)
    (hd : d ∈ endpointIps config) : t.prefixLen.toNat < maxPrefix d := by
  obtain ⟨⟨c, hc, hstands⟩, hkeeps⟩ := (mem_filteredRoutes hwf).mp ht
  have hmax : maxPrefix t.destination = maxPrefix d := by
    rw [maxPrefix, maxPrefix, hcovers.1]
  have hle := parseProtoCidr_le (hwf c hc) hstands.1
  have hlen := hstands.2.1
  -- At full length the route would be the host route of `d`, which the filter drops.
  have hne : t.prefixLen.toNat ≠ maxPrefix t.destination := by
    intro heq
    rw [heq] at hcovers
    have hdest := IpAddr.sharesPrefix_maxPrefix.mp hcovers
    exact keepsRoute_iff.mp hkeeps heq (hdest ▸ hd)
  omega

/-- Off the endpoints the filter loses nothing: the TUN routes cover what the
allowed IPs contain. -/
theorem exists_covering_filteredRoute_iff {d : IpAddr} (hd : d ∉ endpointIps config) :
    (∃ t ∈ filteredRoutes config interfaceName,
      IpAddr.SharesPrefix t.prefixLen.toNat t.destination d) ↔
      ∃ c ∈ config.peerAllowedIps, c.Contains d.protoIp := by
  constructor
  · intro h
    obtain ⟨t, ht, hcovers⟩ := h
    obtain ⟨⟨c, hc, hstands⟩, _⟩ := (mem_filteredRoutes hwf).mp ht
    rw [hstands.2.1] at hcovers
    exact ⟨c, hc, (contains_protoIp_iff hstands.1).mpr hcovers⟩
  · intro h
    obtain ⟨c, hc, hcontains⟩ := h
    obtain ⟨t, hstands⟩ : ∃ t, Stands interfaceName c t := exists_stands (hwf c hc)
    have hcovers := (contains_protoIp_iff hstands.1).mp hcontains
    rw [← hstands.2.1] at hcovers
    refine ⟨t, (mem_filteredRoutes hwf).mpr ⟨⟨c, hc, hstands⟩, ?_⟩, hcovers⟩
    -- A dropped route covers its own endpoint only, and `d` is none.
    refine keepsRoute_iff.mpr fun heq hmem => ?_
    rw [heq] at hcovers
    exact hd (IpAddr.sharesPrefix_maxPrefix.mp hcovers ▸ hmem)

/-- The routes of a session split the addresses. -/
theorem sessionRoutes_splits (hend : endpointRoutes.map platform.destination = endpointIps config) :
    Splits config interfaceName
      (sessionRoutes endpointRoutes (filteredRoutes config interfaceName)) where
  endpoint := by
    intro d hd
    obtain ⟨e, he, rfl⟩ := List.mem_map.mp (hend ▸ hd)
    have hmem : SessionRoute.endpoint e ∈
        sessionRoutes endpointRoutes (filteredRoutes config interfaceName) :=
      mem_sessionRoutes.mpr (.inl ⟨e, he, rfl⟩)
    have hcovers := SessionRoute.covers_endpoint.mpr (Eq.refl (platform.destination e))
    refine ⟨exists_isLongestMatch_iff.mpr ⟨_, hmem, hcovers⟩, fun r hr => ?_⟩
    refine IsLongestMatch.kind (fun r => ∃ e', r = .endpoint e' ∧ platform.destination e' = _)
      hr hmem hcovers fun r' hr' hcovers' hother => ?_
    rcases mem_sessionRoutes.mp hr' with ⟨e', _, rfl⟩ | ⟨t, ht, rfl⟩
    · exact absurd ⟨e', rfl, SessionRoute.covers_endpoint.mp hcovers'⟩ hother
    · exact prefixLen_lt_of_mem_filteredRoutes hwf ht hcovers' hd
  tun := by
    intro d hd hallowed
    obtain ⟨t, ht, hcovers⟩ := (exists_covering_filteredRoute_iff hwf hd).mpr hallowed
    refine ⟨exists_isLongestMatch_iff.mpr
      ⟨.tun t, mem_sessionRoutes.mpr (.inr ⟨t, ht, rfl⟩), hcovers⟩, fun r hr => ?_⟩
    obtain ⟨t', ht', rfl⟩ := tun_of_covers hend hd hr.mem hr.covered
    obtain ⟨⟨c, _, hstands⟩, _⟩ := (mem_filteredRoutes hwf).mp ht'
    exact ⟨t', rfl, hstands.2.2⟩
  nothing := by
    intro d hd hallowed h
    obtain ⟨r, hr⟩ := h
    obtain ⟨t, ht, rfl⟩ := tun_of_covers hend hd hr.mem hr.covered
    exact hallowed ((exists_covering_filteredRoute_iff hwf hd).mp ⟨t, ht, hr.covered⟩)
  subnet := by
    intro c hc ip p hparse hne
    obtain ⟨t, hstands⟩ : ∃ t, Stands interfaceName c t := exists_stands (hwf c hc)
    rw [hstands.1] at hparse
    cases hparse
    refine ⟨t, mem_sessionRoutes.mpr (.inr ⟨t, ?_, rfl⟩), rfl, hstands.2.1⟩
    refine (mem_filteredRoutes hwf).mpr ⟨⟨c, hc, hstands⟩, keepsRoute_iff.mpr fun heq => ?_⟩
    rw [hstands.2.1] at heq
    exact absurd heq hne

end Splits

/-- A valid configuration whose endpoints parse and have a route is split: the
transport of the tunnel stays outside, and all else that was allowed enters. -/
theorem validated_session_splits {macos : Bool} {config : TunSessionConfig}
    (hvalid : validateConfig macos config = .ok ())
    (hparse : ∀ e ∈ config.peerEndpoints, ∃ ip, parseProtoIp e = some ip)
    (platform : EndpointLookup) (display : IpAddr → String)
    (hlookup : ∀ ip ∈ endpointIps config, ∃ route, platform.lookup ip = .ok route)
    {μ : Type} (mgr : μ) (interfaceName : String) :
    ∃ endpointRoutes tunRoutes,
      resolveEndpointRoutes platform display config = .ok endpointRoutes ∧
      buildAndFilterRoutes (.ok mgr) config interfaceName endpointRoutes =
        .ok (mgr, tunRoutes, endpointRoutes) ∧
      endpointRoutes.map platform.destination = endpointIps config ∧
      Splits config interfaceName (sessionRoutes endpointRoutes tunRoutes) := by
  obtain ⟨endpointRoutes, hresolve⟩ :=
    @exists_resolveEndpointRoutes platform display config hparse hlookup
  have hend := map_destination_resolveEndpointRoutes hresolve
  have hwf := peerAllowedIps_wellFormed hvalid
  exact ⟨endpointRoutes, filteredRoutes config interfaceName, hresolve, rfl, hend,
    sessionRoutes_splits hwf hend⟩

/-- `203.0.113.0`, both a peer endpoint and the address of an allowed subnet. -/
def endpointAddress : IpAddr := { family := .v4, octets := [203, 0, 113, 0], size := rfl }

/-- The subnet, the endpoint as a host and another host. -/
def endpointInSubnet : TunSessionConfig where
  interfaceName := "utun7"
  mtu := 0
  addresses := [{ ip := some { value := some (.v4 [10, 0, 0, 1]) }, prefixLen := 24 }]
  peerAllowedIps := [
    { ip := some endpointAddress.protoIp, prefixLen := 24 },
    { ip := some endpointAddress.protoIp, prefixLen := 32 },
    { ip := some { value := some (.v4 [203, 0, 113, 1]) }, prefixLen := 32 }]
  peerEndpoints := [endpointAddress.protoIp]
  dns := none

def gatewayIp : IpAddr := { family := .v4, octets := [192, 0, 2, 254], size := rfl }

/-- The way out over the gateway `192.0.2.254`. -/
def gatewayRoute : Macos.EndpointRoute where
  destination := endpointAddress
  interface := 4
  gateway := Macos.ipAddress gatewayIp
  viaGateway := true
  source := none
  mtu := 0
  hopcount := 0

/-- A kernel that answers every lookup with the gateway. -/
def gatewayLookup : EndpointLookup :=
  Macos.endpointLookup (fun _ => gatewayRoute.message .add) (fun _ => "")

theorem validated_session_splits_endpoint_in_subnet :
    ∃ endpointRoutes tunRoutes,
      resolveEndpointRoutes gatewayLookup (fun _ => "") endpointInSubnet = .ok endpointRoutes ∧
      buildAndFilterRoutes (.ok ()) endpointInSubnet "utun7" endpointRoutes =
        .ok ((), tunRoutes, endpointRoutes) ∧
      endpointRoutes.map gatewayLookup.destination = endpointIps endpointInSubnet ∧
      Splits endpointInSubnet "utun7" (sessionRoutes endpointRoutes tunRoutes) := by
  have hvalid : validateConfig true endpointInSubnet = .ok () := by decide +kernel
  have hlookup : (gatewayLookup.lookup endpointAddress).toBool = true := by decide +kernel
  refine validated_session_splits hvalid ?_ gatewayLookup (fun _ => "") ?_ () "utun7"
  · intro e he
    rw [List.mem_singleton.mp he]
    exact ⟨endpointAddress, rfl⟩
  · intro ip hip
    have hip : ip = endpointAddress := List.mem_singleton.mp hip
    rw [hip]
    cases hroute : gatewayLookup.lookup endpointAddress with
    | error error =>
        rw [hroute] at hlookup
        cases hlookup
    | ok route => exact ⟨route, rfl⟩

end Daemon
end WgKotlin
