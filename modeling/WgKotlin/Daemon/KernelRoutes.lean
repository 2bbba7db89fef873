import WgKotlin.Daemon.SplitRouting

/-!
# Routes of Linux and Windows

`endpoint_linux.rs` and `endpoint_windows.rs`: the host route of an endpoint is a
copy of the way the kernel routes the endpoint now.  It keeps the table and the
metric of that way, and with its own destination they make the key under which
the kernel files it.  `Platform` collects what the session setup needs of either
system, with the commands for its DNS.
-/

namespace WgKotlin
namespace Daemon

open Proto Library

/-- The key of an entry of the kernel's table. -/
structure TableKey where
  destination : IpAddr
  prefixLen : Nat
  table : Nat
  metric : Nat
  deriving DecidableEq

/-! ### Commands for the DNS of a session -/

/-- `ips_to_args`.  An address that does not parse does not get past
`validate_config`. -/
def ipsToArgs (display : IpAddr → String) (values : List Ip) : List String :=
  ((values.filterMap parseProtoIp).map display).eraseDups

def normalizeDomains (values : List String) : List String :=
  ((values.map fun value => String.ofList (trimStartMatches '.' (trim value.toList))).filter
    fun domain => !domain.isEmpty).eraseDups

inductive NrptScript
  | setRules
  | clearRules
  deriving DecidableEq

/-- A call of the DNS setup, with the label of the operation.  `GetProcessTimes`
is asked for the comment of the rules. -/
inductive DnsCall
  | resolvectl (operation : String) (arguments : List String)
  | powershell (operation : String) (script : NrptScript) (environment : List (String × String))
  | processTimes
  deriving DecidableEq

def DnsCall.describe : DnsCall → String → String
  | .processTimes, error => "failed to identify NRPT owner: " ++ error
  | _, error => error

def dnsServers (display : IpAddr → String) (config : TunSessionConfig) : List String :=
  ipsToArgs display ((config.dns.map (·.servers)).getD [])

def dnsDomains (mark : String) (config : TunSessionConfig) : List String :=
  (normalizeDomains ((config.dns.map (·.searchDomains)).getD [])).map (mark ++ ·)

/-- What the setup of a session needs of Linux and Windows. -/
structure Platform extends EndpointLookup where
  NextHop : Type
  table : EndpointRoute → Nat
  metric : EndpointRoute → Nat
  nextHop : EndpointRoute → NextHop
  /-- The table and the metric of a route that names none. -/
  defaultTable : Family → Nat
  defaultMetric : Family → Nat
  dnsSetup : TunSessionConfig → String → List DnsCall
  dnsTeardown : String → List DnsCall

namespace Platform

variable (platform : Platform)

/-- The key of the host route of an endpoint. -/
def endpointKey (route : platform.EndpointRoute) : TableKey where
  destination := platform.destination route
  prefixLen := maxPrefix (platform.destination route)
  table := platform.table route
  metric := platform.metric route

/-- The key of a route into the TUN. -/
def tunKey (route : Route) : TableKey where
  destination := route.destination
  prefixLen := route.prefixLen.toNat
  table := platform.defaultTable route.destination.family
  metric := platform.defaultMetric route.destination.family

/-- A TUN route under the key of an endpoint is a host route to it. -/
theorem host_of_tunKey_eq {route : Route} {endpoint : platform.EndpointRoute}
    (h : platform.tunKey route = platform.endpointKey endpoint) :
    route.destination = platform.destination endpoint ∧
      route.prefixLen.toNat = route.hostPrefix := by
  have hdestination : route.destination = platform.destination endpoint :=
    congrArg TableKey.destination h
  have hlength : route.prefixLen.toNat = maxPrefix (platform.destination endpoint) :=
    congrArg TableKey.prefixLen h
  rw [← hdestination] at hlength
  exact ⟨hdestination, hlength⟩

end Platform

/-! ### Linux -/

namespace Linux

inductive RouteType
  | unspec
  | unicast
  | localAddress
  | broadcast
  | anycast
  | multicast
  | blackHole
  | unreachable
  | prohibit
  | other (code : UInt8)
  deriving DecidableEq

inductive RouteProtocol
  | fixed
  | other (code : UInt8)
  deriving DecidableEq

/-- A hop of a multipath route.  Its own attributes, by kind and payload, are
passed on as they are. -/
structure RouteNextHop where
  interfaceIndex : UInt32
  hops : UInt8
  flags : UInt8
  attributes : List (UInt16 × Bytes)
  deriving DecidableEq

inductive RouteAttribute
  | destination (ip : IpAddr)
  | table (id : UInt32)
  | priority (metric : UInt32)
  | oif (index : UInt32)
  | gateway (ip : IpAddr)
  | multiPath (hops : List RouteNextHop)
  | cacheInfo (bytes : Bytes)
  | uid (id : UInt32)
  | mark (value : UInt32)
  | iif (index : UInt32)
  | expires (seconds : UInt32)
  | multicastExpires (seconds : UInt64)
  | other (code : UInt16) (bytes : Bytes)
  deriving DecidableEq

structure RouteMessage where
  addressFamily : UInt8
  destinationPrefixLength : UInt8
  sourcePrefixLength : UInt8
  tos : UInt8
  table : UInt8
  scope : UInt8
  protocol : RouteProtocol
  kind : RouteType
  flags : UInt32
  attributes : List RouteAttribute
  deriving DecidableEq

/-- `RTNH_F_DEAD`, `RTNH_F_PERVASIVE` and `RTNH_F_ONLINK`; a route and its hops
use the same bits. -/
def dead : UInt8 := 1
def pervasive : UInt8 := 2
def onlink : UInt8 := 4

namespace RouteAttribute

def destination? : RouteAttribute → Option IpAddr
  | .destination ip => some ip
  | _ => none

def table? : RouteAttribute → Option UInt32
  | .table id => some id
  | _ => none

def priority? : RouteAttribute → Option UInt32
  | .priority metric => some metric
  | _ => none

/-- The attributes that describe the route and not one lookup of it. -/
def isKept : RouteAttribute → Bool
  | .destination _ | .cacheInfo _ | .uid _ | .mark _ | .iif _ | .expires _
  | .multicastExpires _ => false
  | _ => true

/-- Dead hops go, and the others lose the flags that the kernel sets itself. -/
def liveHops : RouteAttribute → Except String RouteAttribute
  | .multiPath hops =>
    let live := hops.filter fun hop => hop.flags &&& dead == 0
    if live.isEmpty then .error "endpoint route has no live nexthops"
    else .ok (.multiPath
      (live.map fun hop => { hop with flags := hop.flags &&& (onlink ||| pervasive) }))
  | attr => .ok attr

/-- A multipath route that still has a way to go. -/
def HasLiveHop : RouteAttribute → Prop
  | .multiPath hops => ∃ hop ∈ hops, hop.flags &&& dead = 0
  | _ => True

/-- What the host route repeats of an attribute: of a multipath route the hops
that are alive, with the flags a route is created with. -/
def replayed : RouteAttribute → RouteAttribute
  | .multiPath hops => .multiPath ((hops.filter fun hop => hop.flags &&& dead == 0).map
      fun hop => { hop with flags := hop.flags &&& (onlink ||| pervasive) })
  | attr => attr

theorem isEmpty_live_iff {hops : List RouteNextHop} :
    (hops.filter fun hop => hop.flags &&& dead == 0).isEmpty = true ↔
      ¬ (RouteAttribute.multiPath hops).HasLiveHop := by
  rw [List.isEmpty_iff, List.filter_eq_nil_iff]
  simp only [HasLiveHop, beq_iff_eq, not_exists, not_and]

theorem liveHops_eq_ok {attr attr' : RouteAttribute} :
    attr.liveHops = .ok attr' ↔ attr.HasLiveHop ∧ attr' = attr.replayed := by
  cases attr with
  | multiPath hops =>
      by_cases hlive : (RouteAttribute.multiPath hops).HasLiveHop
      · rw [liveHops, if_neg (mt isEmpty_live_iff.mp (not_not.mpr hlive)), Except.ok.injEq]
        exact ⟨fun h => ⟨hlive, h.symm⟩, fun h => h.2.symm⟩
      · rw [liveHops, if_pos (isEmpty_live_iff.mpr hlive)]
        exact ⟨fun h => (by cases h), fun h => absurd h.1 hlive⟩
  | _ => exact ⟨fun h => (by cases h; exact ⟨trivial, rfl⟩), fun h => (by rw [h.2]; rfl)⟩

@[simp] theorem isKept_replayed (attr : RouteAttribute) : attr.replayed.isKept = attr.isKept := by
  cases attr <;> rfl

theorem live_of_restricted (hop : RouteNextHop) :
    (hop.flags &&& (onlink ||| pervasive)) &&& dead = 0 := by
  rw [UInt8.and_assoc, show (onlink ||| pervasive) &&& dead = 0 from rfl, UInt8.and_zero]

/-- Hops that were replayed are alive and have no other flags. -/
theorem replayed_replayed (attr : RouteAttribute) : attr.replayed.replayed = attr.replayed := by
  cases attr with
  | multiPath hops =>
      have hkeep : ∀ hop ∈ (hops.filter fun hop => hop.flags &&& dead == 0).map fun hop =>
          { hop with flags := hop.flags &&& (onlink ||| pervasive) },
          hop.flags &&& dead = 0 ∧ hop.flags &&& (onlink ||| pervasive) = hop.flags := by
        intro hop hmem
        obtain ⟨hop', _, rfl⟩ := List.mem_map.mp hmem
        exact ⟨live_of_restricted hop', by rw [UInt8.and_assoc, UInt8.and_self]⟩
      simp only [replayed]
      rw [List.filter_eq_self.mpr fun hop hmem => beq_iff_eq.mpr (hkeep hop hmem).1,
        RouteAttribute.multiPath.injEq]
      refine (List.map_congr_left fun hop hmem => ?_).trans (List.map_id _)
      rw [(hkeep hop hmem).2]
      rfl
  | _ => rfl

theorem hasLiveHop_replayed {attr : RouteAttribute} (h : attr.HasLiveHop) :
    attr.replayed.HasLiveHop := by
  cases attr with
  | multiPath hops =>
      obtain ⟨hop, hmem, hlive⟩ := h
      refine ⟨_, List.mem_map.mpr ⟨hop, List.mem_filter.mpr ⟨hmem, beq_iff_eq.mpr hlive⟩, rfl⟩, ?_⟩
      exact live_of_restricted hop
  | _ => trivial

theorem destination?_eq_none {attr : RouteAttribute} (h : attr.isKept = true) :
    attr.destination? = none := by
  cases attr with
  | destination ip => cases h
  | _ => rfl

end RouteAttribute

/-- `EndpointRoute(RouteMessage)`: a message to the endpoint. -/
structure EndpointRoute where
  message : RouteMessage
  destination : IpAddr
  destined : message.attributes.findSome? RouteAttribute.destination? = some destination

namespace EndpointRoute

theorem destined_kept (attributes : List RouteAttribute) (ip : IpAddr) :
    (attributes.filter RouteAttribute.isKept ++ [RouteAttribute.destination ip]).findSome?
      RouteAttribute.destination? = some ip := by
  have hnone : (attributes.filter RouteAttribute.isKept).findSome?
      RouteAttribute.destination? = none := by
    rw [List.findSome?_eq_none_iff]
    intro attr hmem
    exact RouteAttribute.destination?_eq_none (List.mem_filter.mp hmem).2
  rw [List.findSome?_append, hnone, Option.none_or]
  rfl

def fromRoute (ip : IpAddr) (found : RouteMessage) : Except String EndpointRoute :=
  if found.kind ≠ .unicast ∧ found.kind ≠ .localAddress then
    .error "endpoint route is not reachable"
  else do
    let attributes ← mapAll RouteAttribute.liveHops found.attributes
    .ok {
      message := { found with
        destinationPrefixLength := UInt8.ofNat (maxPrefix ip)
        protocol := .fixed
        flags := found.flags &&& (onlink ||| pervasive).toUInt32
        attributes := attributes.filter RouteAttribute.isKept ++ [.destination ip] }
      destination := ip
      destined := destined_kept attributes ip }

/-- `getRoute` asks the kernel for the entry that matches an address. -/
def lookup (getRoute : IpAddr → Except String (Option RouteMessage)) (ip : IpAddr) :
    Except String EndpointRoute := do
  match ← getRoute ip with
  | none => .error "no route to endpoint"
  | some found => fromRoute ip found

theorem fromRoute_destination {ip : IpAddr} {found : RouteMessage} {route : EndpointRoute}
    (h : fromRoute ip found = .ok route) : route.destination = ip := by
  unfold fromRoute at h
  split at h
  · cases h
  · obtain ⟨attributes, _, h⟩ := bind_eq_ok.mp h
    cases h
    rfl

/-- The destination of a host route is in its message. -/
theorem eq_of_message {a b : EndpointRoute} (h : a.message = b.message) : a = b := by
  have hdestination : a.destination = b.destination := by
    have hsame := a.destined.symm
    rw [h, b.destined] at hsame
    exact Option.some.inj hsame
  cases a
  cases b
  cases h
  cases hdestination
  rfl

theorem mapAll_liveHops {attributes attributes' : List RouteAttribute} :
    mapAll RouteAttribute.liveHops attributes = .ok attributes' ↔
      (∀ attr ∈ attributes, attr.HasLiveHop) ∧ attributes' = attributes.map .replayed := by
  rw [mapAll_eq_ok]
  simp only [RouteAttribute.liveHops_eq_ok]
  constructor
  · intro h
    induction h with
    | nil => exact ⟨fun _ hmem => (by cases hmem), rfl⟩
    | cons hhead _ ih =>
        refine ⟨List.forall_mem_cons.mpr ⟨hhead.1, ih.1⟩, ?_⟩
        rw [List.map_cons, hhead.2, ih.2]
  · rintro ⟨hlive, rfl⟩
    rw [List.forall₂_map_right_iff, List.forall₂_same]
    exact fun attr hmem => ⟨hlive attr hmem, rfl⟩

/-- The message of the host route to `ip` over the way that was found. -/
def hostMessage (ip : IpAddr) (found : RouteMessage) : RouteMessage :=
  { found with
    destinationPrefixLength := UInt8.ofNat (maxPrefix ip)
    protocol := .fixed
    flags := found.flags &&& (onlink ||| pervasive).toUInt32
    attributes := (found.attributes.filter RouteAttribute.isKept).map .replayed ++
      [.destination ip] }

theorem filter_isKept_map (attributes : List RouteAttribute) :
    (attributes.map RouteAttribute.replayed).filter RouteAttribute.isKept =
      (attributes.filter RouteAttribute.isKept).map .replayed := by
  rw [List.filter_map]
  congr 1
  exact List.filter_congr fun attr _ => RouteAttribute.isKept_replayed attr

theorem fromRoute_eq_ok {ip : IpAddr} {found : RouteMessage} {route : EndpointRoute} :
    fromRoute ip found = .ok route ↔
      (found.kind = .unicast ∨ found.kind = .localAddress) ∧
      (∀ attr ∈ found.attributes, attr.HasLiveHop) ∧ route.message = hostMessage ip found := by
  have hkind : ¬ (found.kind ≠ .unicast ∧ found.kind ≠ .localAddress) ↔
      found.kind = .unicast ∨ found.kind = .localAddress := by
    rw [not_and_or, not_not, not_not]
  constructor
  · intro h
    unfold fromRoute at h
    split at h
    · cases h
    · rename_i hreach
      obtain ⟨attributes, hall, h⟩ := bind_eq_ok.mp h
      obtain ⟨hlive, rfl⟩ := mapAll_liveHops.mp hall
      cases h
      refine ⟨hkind.mp hreach, hlive, ?_⟩
      rw [hostMessage, ← filter_isKept_map]
  · rintro ⟨hreach, hlive, hmessage⟩
    rw [fromRoute, if_neg (hkind.mpr hreach), mapAll_liveHops.mpr ⟨hlive, rfl⟩, ok_bind,
      Except.ok.injEq]
    refine eq_of_message ?_
    rw [hmessage, hostMessage, ← filter_isKept_map]

/-- Failing is not succeeding. -/
theorem fromRoute_eq_error {ip : IpAddr} {found : RouteMessage} :
    (∃ e, fromRoute ip found = .error e) ↔
      (found.kind ≠ .unicast ∧ found.kind ≠ .localAddress) ∨
      ∃ attr ∈ found.attributes, ¬ attr.HasLiveHop := by
  have hok : (∃ route, fromRoute ip found = .ok route) ↔
      (found.kind = .unicast ∨ found.kind = .localAddress) ∧
        ∀ attr ∈ found.attributes, attr.HasLiveHop := by
    constructor
    · rintro ⟨route, h⟩
      exact ⟨(fromRoute_eq_ok.mp h).1, (fromRoute_eq_ok.mp h).2.1⟩
    · rintro ⟨hreach, hlive⟩
      have hdestined := destined_kept (found.attributes.map RouteAttribute.replayed) ip
      rw [filter_isKept_map] at hdestined
      exact ⟨⟨hostMessage ip found, ip, hdestined⟩, fromRoute_eq_ok.mpr ⟨hreach, hlive, rfl⟩⟩
  have hnot : (∃ e, fromRoute ip found = .error e) ↔ ¬ ∃ route, fromRoute ip found = .ok route := by
    cases fromRoute ip found with
    | error e => exact ⟨fun _ ⟨_, h⟩ => (by cases h), fun _ => ⟨e, rfl⟩⟩
    | ok route => exact ⟨fun ⟨_, h⟩ => (by cases h), fun h => absurd ⟨route, rfl⟩ h⟩
  rw [hnot, hok, not_and_or, not_or]
  simp only [not_forall, exists_prop, ne_eq]

theorem hostMessage_idempotent (ip : IpAddr) (found : RouteMessage) :
    hostMessage ip (hostMessage ip found) = hostMessage ip found := by
  have hgone : [RouteAttribute.destination ip].filter RouteAttribute.isKept = [] := rfl
  have hkept : ((found.attributes.filter RouteAttribute.isKept).map RouteAttribute.replayed ++
      [RouteAttribute.destination ip]).filter RouteAttribute.isKept =
      (found.attributes.filter RouteAttribute.isKept).map .replayed := by
    rw [List.filter_append, filter_isKept_map, List.filter_filter, hgone, List.append_nil]
    simp only [Bool.and_self]
  have hreplayed : ((found.attributes.filter RouteAttribute.isKept).map .replayed).map
      RouteAttribute.replayed = (found.attributes.filter RouteAttribute.isKept).map .replayed := by
    rw [List.map_map]
    exact List.map_congr_left fun attr _ => RouteAttribute.replayed_replayed attr
  simp only [hostMessage, hkept, hreplayed, UInt32.and_assoc, UInt32.and_self]

/-- The destinations of a route that was found are not kept. -/
theorem destinations_hostMessage (ip : IpAddr) (found : RouteMessage) :
    (hostMessage ip found).attributes.filterMap RouteAttribute.destination? = [ip] := by
  have hnone : ((found.attributes.filter RouteAttribute.isKept).map
      RouteAttribute.replayed).filterMap RouteAttribute.destination? = [] := by
    rw [List.filterMap_eq_nil_iff]
    intro attr hmem
    obtain ⟨attr', hmem', rfl⟩ := List.mem_map.mp hmem
    refine RouteAttribute.destination?_eq_none ?_
    rw [RouteAttribute.isKept_replayed]
    exact (List.mem_filter.mp hmem').2
  rw [hostMessage, List.filterMap_append, hnone]
  rfl

theorem toNat_hostMessage_length (ip : IpAddr) (found : RouteMessage) :
    (hostMessage ip found).destinationPrefixLength.toNat = maxPrefix ip := by
  have hlength : maxPrefix ip < 256 := by
    rw [maxPrefix]
    cases ip.family <;> decide
  exact UInt8.toNat_ofNat_of_lt' hlength

/-- Each list of hops keeps its live ones. -/
theorem hasLiveHop_hostMessage {ip : IpAddr} {found : RouteMessage}
    (h : ∀ attr ∈ found.attributes, attr.HasLiveHop) :
    ∀ attr ∈ (hostMessage ip found).attributes, attr.HasLiveHop := by
  intro attr hmem
  rcases List.mem_append.mp hmem with hmem | hmem
  · obtain ⟨attr', hmem', rfl⟩ := List.mem_map.mp hmem
    exact RouteAttribute.hasLiveHop_replayed (h attr' (List.mem_filter.mp hmem').1)
  · cases List.mem_singleton.mp hmem
    trivial

/-- The host route of a host route is itself. -/
theorem fromRoute_message {ip : IpAddr} {found : RouteMessage} {route : EndpointRoute}
    (h : fromRoute ip found = .ok route) : fromRoute ip route.message = .ok route := by
  obtain ⟨hreach, hlive, hmessage⟩ := fromRoute_eq_ok.mp h
  rw [fromRoute_eq_ok, hmessage]
  exact ⟨hreach, hasLiveHop_hostMessage hlive, (hostMessage_idempotent ip found).symm⟩

/-- The host route goes the way that was found.  It is refused for a way that
leads nowhere; otherwise it is the message that was found with the destination,
the protocol and the flags of a new route, and without what only describes the
lookup.  Its own host route is itself. -/
theorem fromRoute_keeps_path (ip : IpAddr) (found : RouteMessage) :
    ((∃ e, fromRoute ip found = .error e) ↔
      (found.kind ≠ .unicast ∧ found.kind ≠ .localAddress) ∨
      ∃ hops, .multiPath hops ∈ found.attributes ∧ ∀ hop ∈ hops, hop.flags &&& dead ≠ 0) ∧
    ∀ route, fromRoute ip found = .ok route →
      route.message.destinationPrefixLength.toNat = maxPrefix ip ∧
      route.message.protocol = .fixed ∧
      route.message.flags = found.flags &&& (onlink ||| pervasive).toUInt32 ∧
      route.message.attributes =
        (found.attributes.filter RouteAttribute.isKept).map .replayed ++ [.destination ip] ∧
      route.message.attributes.filterMap RouteAttribute.destination? = [ip] ∧
      { route.message with
        destinationPrefixLength := found.destinationPrefixLength
        protocol := found.protocol
        flags := found.flags
        attributes := found.attributes } = found ∧
      fromRoute ip route.message = .ok route := by
  constructor
  · rw [fromRoute_eq_error]
    refine or_congr_right ⟨?_, ?_⟩
    · rintro ⟨attr, hmem, hdead⟩
      cases attr with
      | multiPath hops =>
          exact ⟨hops, hmem, fun hop hhop hlive => hdead ⟨hop, hhop, hlive⟩⟩
      | _ => exact absurd trivial hdead
    · rintro ⟨hops, hmem, hdead⟩
      exact ⟨_, hmem, fun ⟨hop, hhop, hlive⟩ => hdead hop hhop hlive⟩
  · intro route h
    have hagain := fromRoute_message h
    obtain ⟨_, _, hmessage⟩ := fromRoute_eq_ok.mp h
    refine ⟨?_, ?_, ?_, ?_, ?_, ?_, hagain⟩
    · rw [hmessage, toNat_hostMessage_length]
    · rw [hmessage, hostMessage]
    · rw [hmessage, hostMessage]
    · rw [hmessage, hostMessage]
    · rw [hmessage, destinations_hostMessage]
    · rw [hmessage, hostMessage]

/-- A route over two hops of which the first is dead. -/
def twoHops : RouteMessage where
  addressFamily := 2
  destinationPrefixLength := 0
  sourcePrefixLength := 0
  tos := 0
  table := 254
  scope := 0
  protocol := .other 3
  kind := .unicast
  flags := 0x2004
  attributes := [.table 254, .uid 0, .gateway gatewayIp, .oif 2, .cacheInfo [1, 0, 0, 0],
    .priority 100, .multiPath
      [{ interfaceIndex := 1, hops := 0, flags := dead, attributes := [] },
        { interfaceIndex := 2, hops := 7, flags := 20, attributes := [(5, [192, 0, 2, 1])] }]]

theorem fromRoute_twoHops : ∃ route, fromRoute gatewayIp twoHops = .ok route ∧
    route.message.attributes = [.table 254, .gateway gatewayIp, .oif 2, .priority 100, .multiPath
      [{ interfaceIndex := 2, hops := 7, flags := onlink, attributes := [(5, [192, 0, 2, 1])] }],
      .destination gatewayIp] ∧
    fromRoute gatewayIp route.message = .ok route := by
  cases h : fromRoute gatewayIp twoHops with
  | error e =>
      rcases (fromRoute_keeps_path gatewayIp twoHops).1.mp ⟨e, h⟩ with hkind | ⟨hops, hmem, hdead⟩
      · exact absurd rfl hkind.1
      · simp only [twoHops, List.mem_cons, List.not_mem_nil, reduceCtorEq, false_or,
          or_false] at hmem
        cases hmem
        exact absurd rfl (hdead _ (List.mem_cons_of_mem _ List.mem_cons_self))
  | ok route =>
      obtain ⟨_, _, _, hattributes, _, _, hagain⟩ :=
        (fromRoute_keeps_path gatewayIp twoHops).2 route h
      exact ⟨route, rfl, hattributes, hagain⟩

theorem lookup_destination {getRoute : IpAddr → Except String (Option RouteMessage)}
    {ip : IpAddr} {route : EndpointRoute} (h : lookup getRoute ip = .ok route) :
    route.destination = ip := by
  obtain ⟨found, _, h⟩ := bind_eq_ok.mp h
  cases found with
  | none => cases h
  | some found => exact fromRoute_destination h

/-- The attribute holds the whole id of the table, the header its last byte. -/
def table (route : EndpointRoute) : Nat :=
  match route.message.attributes.findSome? RouteAttribute.table? with
  | some id => id.toNat
  | none => route.message.table.toNat

def metric (route : EndpointRoute) : Nat :=
  match route.message.attributes.findSome? RouteAttribute.priority? with
  | some metric => metric.toNat
  | none => 0

end EndpointRoute

def revertDns (interfaceName : String) : DnsCall :=
  .resolvectl "revert-dns" ["revert", interfaceName]

def dnsSetup (display : IpAddr → String) (config : TunSessionConfig) (interfaceName : String) :
    List DnsCall :=
  let servers := dnsServers display config
  let domains := dnsDomains "~" config
  revertDns interfaceName ::
    if !servers.isEmpty && !domains.isEmpty then
      [.resolvectl "set-dns" (["dns", interfaceName] ++ servers),
        .resolvectl "set-domains" (["domain", interfaceName] ++ domains)]
    else []

/-- The main table is `254`; the kernel gives a metric to IPv6 routes only. -/
def platform (display : IpAddr → String)
    (getRoute : IpAddr → Except String (Option RouteMessage)) : Platform where
  EndpointRoute := EndpointRoute
  destination := EndpointRoute.destination
  lookup := EndpointRoute.lookup getRoute
  lookup_destination := EndpointRoute.lookup_destination
  NextHop := RouteMessage
  table := EndpointRoute.table
  metric := EndpointRoute.metric
  nextHop := EndpointRoute.message
  defaultTable := fun _ => 254
  defaultMetric := fun
    | .v4 => 0
    | .v6 => 1024
  dnsSetup := dnsSetup display
  dnsTeardown := fun interfaceName => [revertDns interfaceName]

end Linux

/-! ### Windows -/

namespace Windows

/-- `Route` as `find_route` returns it. -/
structure FoundRoute where
  gateway : Option IpAddr
  ifName : Option String
  ifIndex : Option UInt32
  metric : Option UInt32
  luid : Option UInt64
  deriving DecidableEq

/-- `EndpointRoute(Route)`: the way that was found, to the endpoint alone. -/
structure EndpointRoute where
  destination : IpAddr
  found : FoundRoute
  deriving DecidableEq

namespace EndpointRoute

def fromRoute (ip : IpAddr) (found : FoundRoute) : EndpointRoute where
  destination := ip
  found := found

def lookup (findRoute : IpAddr → Except String (Option FoundRoute)) (ip : IpAddr) :
    Except String EndpointRoute := do
  match ← findRoute ip with
  | none => .error "no route to endpoint"
  | some found => .ok (fromRoute ip found)

theorem lookup_destination {findRoute : IpAddr → Except String (Option FoundRoute)}
    {ip : IpAddr} {route : EndpointRoute} (h : lookup findRoute ip = .ok route) :
    route.destination = ip := by
  obtain ⟨found, _, h⟩ := bind_eq_ok.mp h
  cases found with
  | none => cases h
  | some found =>
      cases h
      rfl

end EndpointRoute

def nrptCommentPrefix : String := "kmpvpn-daemon:"

/-- `owner` is the process id and its time of creation. -/
def ruleComment (owner interfaceName : String) : String :=
  nrptCommentPrefix ++ owner ++ ":" ++ interfaceName

/-- The comment is made before the command is run. -/
def clearNrptRules (owner interfaceName : String) : List DnsCall :=
  [.processTimes,
    .powershell "clear-nrpt-rules" .clearRules
      [("WG_KOTLIN_NRPT_COMMENT", ruleComment owner interfaceName)]]

def dnsSetup (display : IpAddr → String) (owner : String) (config : TunSessionConfig)
    (interfaceName : String) : List DnsCall :=
  let servers := dnsServers display config
  let domains := dnsDomains "." config
  clearNrptRules owner interfaceName ++
    if !domains.isEmpty && !servers.isEmpty then
      [.processTimes,
        .powershell "set-nrpt-rules" .setRules
          [("WG_KOTLIN_DNS_NAMESPACES", "\n".intercalate domains),
            ("WG_KOTLIN_DNS_SERVERS", "\n".intercalate servers),
            ("WG_KOTLIN_NRPT_COMMENT", ruleComment owner interfaceName)]]
    else []

/-- There is one table, and a route that names no metric has the least. -/
def platform (display : IpAddr → String) (owner : String)
    (findRoute : IpAddr → Except String (Option FoundRoute)) : Platform where
  EndpointRoute := EndpointRoute
  destination := EndpointRoute.destination
  lookup := EndpointRoute.lookup findRoute
  lookup_destination := EndpointRoute.lookup_destination
  NextHop := FoundRoute
  table := fun _ => 0
  metric := fun route => (route.found.metric.map UInt32.toNat).getD 0
  nextHop := EndpointRoute.found
  defaultTable := fun _ => 0
  defaultMetric := fun _ => 0
  dnsSetup := dnsSetup display owner
  dnsTeardown := clearNrptRules owner

end Windows

end Daemon
end WgKotlin
