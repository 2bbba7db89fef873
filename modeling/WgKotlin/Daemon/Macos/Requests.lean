import WgKotlin.Daemon.Macos.Snapshot
import WgKotlin.Daemon.Route

/-!
# The routes a session asks for

The two sources of requests: the host route of a peer endpoint, as the kernel
answered for it before the TUN existed, and the routes into the TUN.  Both give
snapshots of the shape that `restore` can recognise again.
-/

namespace WgKotlin
namespace Daemon
namespace Macos

open Proto Library

/-! ### Endpoint routes -/

structure EndpointRoute where
  destination : IpAddr
  interface : UInt16
  gateway : Bytes
  viaGateway : Bool
  source : Option Bytes
  mtu : UInt32
  hopcount : UInt32
  deriving DecidableEq

/-- The mask of a host route. -/
def hostMask (family : Family) : IpAddr where
  family := family
  octets := List.replicate family.size 255
  size := List.length_replicate

namespace EndpointRoute

def flags (route : EndpointRoute) (operation : Operation) : Nat :=
  if operation ≠ .get ∧ route.viaGateway then rtfUp ||| rtfHost ||| rtfStatic ||| rtfGateway
  else rtfUp ||| rtfHost ||| rtfStatic

def addrs (route : EndpointRoute) (operation : Operation) : Nat :=
  if operation = .get then rta rtaxDst ||| rta rtaxIfp
  else
    let addrs := rta rtaxDst ||| (rta rtaxGateway ||| rta rtaxNetmask ||| rta rtaxIfp)
    match route.source with
    | some _ => addrs ||| rta rtaxIfa
    | none => addrs

def payload (route : EndpointRoute) (operation : Operation) : Bytes :=
  -- A query names no interface: an empty one asks for the source without restricting the lookup.
  if operation = .get then ipAddress route.destination ++ padded (linkAddress 0)
  else
    let payload := ipAddress route.destination ++ padded route.gateway ++
      padded (ipAddress (hostMask route.destination.family)) ++
      padded (linkAddress route.interface.toNat)
    match route.source with
    | some source => payload ++ padded source
    | none => payload

/-- The metrics of the route and the bits that say which of them are set. -/
def stampMetrics (route : EndpointRoute) (head : RtMsghdr) : RtMsghdr :=
  let head := if route.mtu ≠ 0 then rmxMtu.set route.mtu.toNat head else head
  let head := if route.hopcount ≠ 0 then rmxHopcount.set route.hopcount.toNat head else head
  rtmInits.set ((if route.mtu ≠ 0 then rtvMtu else 0) |||
    (if route.hopcount ≠ 0 then rtvHopcount else 0)) head

def stamp (route : EndpointRoute) (operation : Operation) (length : Nat) : RtMsghdr :=
  let head := rtmAddrs.set (route.addrs operation) (rtmFlags.set (route.flags operation)
    (rtmIndex.set route.interface.toNat (rtmType.set operation.code
      (rtmVersion.set rtmVersionNumber (rtmMsglen.set length zeroHeader)))))
  if operation = .add then route.stampMetrics head else head

/-- `message(operation)` -/
def message (route : EndpointRoute) (operation : Operation) : Except IoError Bytes :=
  let payload := route.payload operation
  let length := headerSize + payload.length
  if 2 ^ 16 ≤ length then .error (.other "out of range integral type conversion attempted")
  else .ok ((route.stamp operation length).bytes ++ payload)

/-- `lookup(destination)`, over an `exchange` with the kernel. -/
def lookup (exchange : Bytes → Except IoError Bytes) (destination : IpAddr) :
    Except IoError EndpointRoute := do
  let query : EndpointRoute := {
    destination := destination
    interface := 0
    gateway := []
    viaGateway := false
    source := none
    mtu := 0
    hopcount := 0 }
  let request ← query.message .get
  let reply ← exchange request
  let head ← header reply
  if rtmIndex.get head = 0 ∨ rtmFlags.get head &&& (rtfReject ||| rtfBlackhole) ≠ 0 then
    .error (.other "endpoint route is not reachable")
  else do
    let attrs ← addresses reply head
    let gateway :=
      match slot attrs rtaxGateway with
      | some gateway =>
        if gateway[1]? = some afInet ∨ gateway[1]? = some afInet6 then gateway
        else linkAddress (rtmIndex.get head)
      | none => linkAddress (rtmIndex.get head)
    .ok {
      destination := destination
      interface := UInt16.ofNat (rtmIndex.get head)
      gateway := gateway
      viaGateway := decide (rtmFlags.get head &&& rtfGateway ≠ 0)
      source := slot attrs rtaxIfa
      mtu := UInt32.ofNat (rmxMtu.get head)
      hopcount := UInt32.ofNat (rmxHopcount.get head) }

end EndpointRoute

/-! ### Routes into the TUN -/

/-- The header of a route into the TUN. -/
def stampTun (index length : Nat) (host : Bool) : RtMsghdr :=
  rtmFlags.set (rtfUp ||| rtfStatic ||| if host then rtfHost else 0)
    (rtmAddrs.set (rta rtaxDst ||| rta rtaxGateway ||| rta rtaxNetmask)
      (rtmIndex.set index (rtmVersion.set rtmVersionNumber (rtmMsglen.set length zeroHeader))))

/-- `tun_route(route)`, over `if_nametoindex` and the error it leaves behind.  The
mask has the family of the destination, and the message is at most 168 bytes. -/
def tunRoute (ifNametoindex : String → Nat) (lastOsError : IoError) (route : Route) :
    Except IoError Snapshot :=
  match route.ifName with
  | none => .error (.other "TUN route has no interface")
  | some name =>
    -- A C string cannot hold a NUL.
    if '\x00' ∈ name.toList then .error (.other "data provided contains a nul byte")
    else
      let index := ifNametoindex name
      if index = 0 then .error lastOsError
      else if 2 ^ 16 ≤ index then
        .error (.other "out of range integral type conversion attempted")
      else
        let payload := padded (ipAddress route.network) ++ padded (linkAddress index) ++
          padded (ipAddress route.mask)
        let host := decide (route.prefixLen.toNat = route.hostPrefix)
        .ok { bytes := (stampTun index (headerSize + payload.length) host).bytes ++ payload }

/-! ### The shape of the requests -/

theorem padded_of_paddedLength {address : Bytes}
    (h : paddedLength address.length = address.length) : padded address = address := by
  rw [padded, h, Nat.sub_self, List.replicate_zero, List.append_nil]

theorem padded_ipAddress (ip : IpAddr) : padded (ipAddress ip) = ipAddress ip := by
  have hsize := ip.size
  apply padded_of_paddedLength
  unfold ipAddress
  cases hf : ip.family with
  | v4 => simp [hsize, hf, Family.size, paddedLength]
  | v6 => simp [hsize, hf, Family.size, paddedLength]

/-- The addresses of a route into the TUN, each in its slot. -/
def tunSlots (network : IpAddr) (index : Nat) (mask : IpAddr) : List (Option Bytes) :=
  [some (ipAddress network), some (linkAddress index), some (ipAddress mask), none, none, none,
    none, none]

theorem reads_stampTun (network mask : IpAddr) (index length : Nat) (host : Bool) :
    Reads { bytes := (stampTun index length host).bytes ++ (padded (ipAddress network) ++
        padded (linkAddress index) ++ padded (ipAddress mask)) }
      (stampTun index length host) (tunSlots network index mask) := by
  have hpayload : padded (ipAddress network) ++ padded (linkAddress index) ++
      padded (ipAddress mask) = encodeSlots (tunSlots network index mask) := by
    simp [tunSlots, encodeSlots]
  rw [hpayload]
  refine reads_append rfl ?_ ?_
  · unfold stampTun
    rw [HeaderField.get_set_ne (by decide), HeaderField.get_set_of_lt (by decide)]
    simp only [tunSlots, slotMask]
    decide
  · intro address ha
    simp only [tunSlots, List.mem_cons, Option.some.injEq, List.not_mem_nil, or_false,
      reduceCtorEq] at ha
    rcases ha with rfl | rfl | rfl
    · exact (isIpSockaddr_ipAddress _).1
    · exact isSockaddr_linkAddress _
    · exact (isIpSockaddr_ipAddress _).1

/-- The addresses that `tun_route` appends are read back, each from its slot. -/
theorem reads_tunRoute {ifNametoindex : String → Nat} {lastOsError : IoError} {route : Route}
    {s : Snapshot} (h : tunRoute ifNametoindex lastOsError route = .ok s) :
    ∃ name head, route.ifName = some name ∧
      Reads s head (tunSlots route.network (ifNametoindex name) route.mask) := by
  unfold tunRoute at h
  split at h
  · cases h
  next name hname =>
    split at h
    · cases h
    · simp only at h
      split at h
      · cases h
      · split at h
        · cases h
        · cases h
          exact ⟨name, _, hname, reads_stampTun _ _ _ _ _⟩

/-- A route into the TUN is a request of the shape. -/
theorem isRequest_tunRoute {ifNametoindex : String → Nat} {lastOsError : IoError} {route : Route}
    {s : Snapshot} (h : tunRoute ifNametoindex lastOsError route = .ok s) : IsRequest s := by
  obtain ⟨name, head, _, hreads⟩ := reads_tunRoute h
  exact ⟨head, _, hreads, ⟨_, rfl, Or.inl rfl⟩, fun source h => (by cases h)⟩

/-- The addresses that a lookup can return for a route. -/
structure EndpointRoute.IsAddressed (route : EndpointRoute) : Prop where
  gateway : (∃ index, route.gateway = linkAddress index) ∨ IsIpSockaddr route.gateway
  source : ∀ source, route.source = some source → IsIpSockaddr source

theorem EndpointRoute.IsAddressed.isSockaddr {route : EndpointRoute} (h : route.IsAddressed) :
    IsSockaddr route.gateway := by
  rcases h.gateway with ⟨index, h⟩ | h
  · rw [h]
    exact isSockaddr_linkAddress index
  · exact h.1

theorem EndpointRoute.get_stamp_addrs (route : EndpointRoute) (operation : Operation)
    (length : Nat) : rtmAddrs.get (route.stamp operation length) = route.addrs operation := by
  have hlt : route.addrs operation < 256 ^ rtmAddrs.width := by
    unfold EndpointRoute.addrs
    split
    · decide
    · cases route.source with
      | none => show _ ||| _ < _; decide
      | some source => show _ ||| _ < _; decide
  unfold EndpointRoute.stamp
  simp only
  split
  · unfold EndpointRoute.stampMetrics
    rw [HeaderField.get_set_ne (by decide)]
    split
    · rw [HeaderField.get_set_ne (by decide)]
      split
      · rw [HeaderField.get_set_ne (by decide), HeaderField.get_set_of_lt hlt]
      · rw [HeaderField.get_set_of_lt hlt]
    · split
      · rw [HeaderField.get_set_ne (by decide), HeaderField.get_set_of_lt hlt]
      · rw [HeaderField.get_set_of_lt hlt]
  · rw [HeaderField.get_set_of_lt hlt]

/-- A lookup keeps the destination, its gateway is an IP or a link address, and its
source is a socket address. -/
theorem EndpointRoute.lookup_spec {exchange : Bytes → Except IoError Bytes} {destination : IpAddr}
    {route : EndpointRoute} (h : lookup exchange destination = .ok route) :
    route.destination = destination ∧
      ((∃ index, route.gateway = linkAddress index) ∨ IsIpSockaddr route.gateway) ∧
      ∀ source, route.source = some source → IsSockaddr source := by
  obtain ⟨request, _, h⟩ := bind_eq_ok.mp h
  obtain ⟨reply, _, h⟩ := bind_eq_ok.mp h
  obtain ⟨head, _, h⟩ := bind_eq_ok.mp h
  split at h
  · cases h
  · obtain ⟨attrs, hattrs, h⟩ := bind_eq_ok.mp h
    cases h
    have hslot {index : Nat} {address : Bytes} (h : slot attrs index = some address) :
        IsSockaddr address :=
      (readSlots_spec hattrs).2 address (List.mem_of_getElem? (Option.join_eq_some_iff.mp h))
    refine ⟨rfl, ?_, fun source => hslot⟩
    show (∃ index, (match slot attrs rtaxGateway with
      | some gateway => _
      | none => _) = linkAddress index) ∨ _
    split
    next gateway hgateway =>
      split
      next hip => exact Or.inr ⟨hslot hgateway, hip⟩
      · exact Or.inl ⟨_, rfl⟩
    · exact Or.inl ⟨_, rfl⟩

section Slots

variable (route : EndpointRoute) (operation : Operation)

/-- The addresses of a request for an endpoint, each in its slot. -/
def EndpointRoute.slots : List (Option Bytes) :=
  if operation = .get then
    [some (ipAddress route.destination), none, none, none, some (linkAddress 0), none, none, none]
  else
    [some (ipAddress route.destination), some route.gateway,
      some (ipAddress (hostMask route.destination.family)), none,
      some (linkAddress route.interface.toNat), route.source, none, none]

theorem EndpointRoute.length_slots : (route.slots operation).length = rtaxMax := by
  unfold EndpointRoute.slots
  split <;> rfl

theorem EndpointRoute.payload_eq :
    route.payload operation = encodeSlots (route.slots operation) := by
  unfold EndpointRoute.payload EndpointRoute.slots
  split
  · simp [encodeSlots, padded_ipAddress]
  · cases route.source with
    | none => simp [encodeSlots, padded_ipAddress]
    | some source => simp [encodeSlots, padded_ipAddress]

theorem EndpointRoute.addrs_eq : route.addrs operation = slotMask 0 (route.slots operation) := by
  unfold EndpointRoute.addrs EndpointRoute.slots
  split
  · simp only [slotMask]
    decide
  · cases route.source with
    | none =>
        simp only [slotMask]
        decide
    | some source =>
        simp only [slotMask]
        decide

variable {route}

theorem EndpointRoute.isSockaddr_slots (hgateway : IsSockaddr route.gateway)
    (hsource : ∀ source, route.source = some source → IsSockaddr source) :
    ∀ address, some address ∈ route.slots operation → IsSockaddr address := by
  intro address ha
  unfold EndpointRoute.slots at ha
  split at ha
  · simp only [List.mem_cons, Option.some.injEq, List.not_mem_nil, or_false, reduceCtorEq,
      false_or] at ha
    rcases ha with rfl | rfl
    · exact (isIpSockaddr_ipAddress _).1
    · exact isSockaddr_linkAddress _
  · simp only [List.mem_cons, Option.some.injEq, List.not_mem_nil, or_false, reduceCtorEq,
      false_or] at ha
    rcases ha with rfl | rfl | rfl | rfl | ha
    · exact (isIpSockaddr_ipAddress _).1
    · exact hgateway
    · exact (isIpSockaddr_ipAddress _).1
    · exact isSockaddr_linkAddress _
    · exact hsource address ha.symm

/-- The addresses that `message` appends are read back, each from its slot. -/
theorem EndpointRoute.reads_message (hgateway : IsSockaddr route.gateway)
    (hsource : ∀ source, route.source = some source → IsSockaddr source) :
    ∃ m head, route.message operation = .ok m ∧
      Reads { bytes := m } head (route.slots operation) := by
  have hslots := EndpointRoute.isSockaddr_slots operation hgateway hsource
  have hle := length_encodeSlots_le hslots
  have hmax : 256 * rtaxMax + headerSize < 2 ^ 16 := by decide
  rw [route.length_slots] at hle
  refine ⟨_, route.stamp operation (headerSize + (encodeSlots (route.slots operation)).length), ?_,
    reads_append (route.length_slots operation)
      ((route.get_stamp_addrs _ _).trans (route.addrs_eq operation)) hslots⟩
  unfold EndpointRoute.message
  rw [route.payload_eq]
  exact if_neg (by omega)

end Slots

/-- The route of an endpoint is a request of the shape. -/
theorem EndpointRoute.isRequest_message {route : EndpointRoute} {m : Bytes}
    (hroute : route.IsAddressed) (h : route.message .add = .ok m) :
    IsRequest { bytes := m } := by
  obtain ⟨m', head, hm', hreads⟩ := EndpointRoute.reads_message .add hroute.isSockaddr
    fun source hs => (hroute.source source hs).1
  cases Except.ok.inj (h.symm.trans hm')
  refine ⟨head, _, hreads, ⟨route.gateway, rfl, ?_⟩, hroute.source⟩
  rcases hroute.gateway with ⟨index, h⟩ | h
  · rw [h]
    exact Or.inl rfl
  · exact Or.inr h

/-! ### Round trips -/

/-- What a request keeps of the route it is made from. -/
structure Reencodes (operation : Operation) (s : Snapshot) (head : RtMsghdr)
    (attrs : List (Option Bytes)) (m : Snapshot) (head' : RtMsghdr) : Prop where
  message : s.message operation = .ok m.bytes
  reads : Reads m head' (attrs.set rtaxIfp (some (linkAddress (rtmIndex.get head))))
  msglen : rtmMsglen.get head' = m.bytes.length
  addrs : ∀ i, (rtmAddrs.get head').testBit i =
    (slot (attrs.set rtaxIfp (some (linkAddress (rtmIndex.get head)))) i).isSome
  metrics : rtmRmx.get head' = rtmRmx.get head
  index : rtmIndex.get head' = rtmIndex.get head
  key : m.key = s.key
  again : m.message operation = .ok m.bytes

theorem reencodes {s : Snapshot} {head : RtMsghdr} {attrs : List (Option Bytes)}
    (h : Reads s head attrs) (hindex : rtmIndex.get head ≠ 0)
    (hproxy : rtmFlags.get head &&& rtfProxy = 0) (operation : Operation) :
    ∃ m head', Reencodes operation s head attrs m head' := by
  have hmessage := @message_of_reads _ _ _ operation h hindex hproxy
  have hshort := length_encode_requestSlots h
  have hlen : (requestSlots head attrs).length = rtaxMax := by
    rw [length_requestSlots, h.length]
  refine ⟨{ bytes := (restamp operation (requestSlots head attrs) head).bytes ++
    encodeSlots (requestSlots head attrs) }, restamp operation (requestSlots head attrs) head, ?_⟩
  constructor
  · exact hmessage
  · exact reads_message operation h
  · rw [get_restamp_msglen operation head hshort, List.length_append, RtMsghdr.size]
  · intro i
    rw [get_restamp_addrs operation head hlen]
    have hbit := testBit_slotMask 0 i (requestSlots head attrs)
    rw [Nat.zero_add] at hbit
    exact hbit
  · exact get_restamp_rmx operation head
  · exact get_restamp_index operation head
  · exact key_message hmessage
  · exact message_message hmessage

/-- Messages that this program writes are read back as they were written: requests
made from a snapshot, routes into the TUN, and requests for an endpoint. -/
theorem messages_read_back :
    (∀ (s : Snapshot) (head : RtMsghdr) (attrs : List (Option Bytes)), Reads s head attrs →
      rtmIndex.get head ≠ 0 → rtmFlags.get head &&& rtfProxy = 0 → ∀ operation,
        ∃ m head', Reencodes operation s head attrs m head') ∧
    (∀ ifNametoindex lastOsError route s, tunRoute ifNametoindex lastOsError route = .ok s →
      ∃ name head, route.ifName = some name ∧
        Reads s head (tunSlots route.network (ifNametoindex name) route.mask)) ∧
    ∀ exchange destination route, EndpointRoute.lookup exchange destination = .ok route →
      ∀ operation, ∃ m head, route.message operation = .ok m ∧
        Reads { bytes := m } head (route.slots operation) := by
  refine ⟨fun s head attrs h hindex hproxy => reencodes h hindex hproxy,
    fun _ _ _ _ h => reads_tunRoute h, fun exchange destination route h operation => ?_⟩
  obtain ⟨_, hgateway, hsource⟩ := EndpointRoute.lookup_spec h
  refine EndpointRoute.reads_message operation ?_ hsource
  rcases hgateway with ⟨index, h⟩ | h
  · rw [h]
    exact isSockaddr_linkAddress index
  · exact h.1

/-- A header of interface 4 with a destination and a gateway. -/
def onLinkHeader : RtMsghdr := rtmIndex.set 4 (rtmAddrs.set 3 zeroHeader)

/-- A route to 10.0.0.1 whose gateway has length zero, with a stray byte in its padding. -/
def onLinkRoute : Snapshot where
  bytes := onLinkHeader.bytes ++ [16, afInet, 0, 0, 10, 0, 0, 1, 0, 0, 0, 0, 0, 0, 0, 0, 0, 7, 0, 0]

def onLinkSlots : List (Option Bytes) :=
  [some [16, afInet, 0, 0, 10, 0, 0, 1, 0, 0, 0, 0, 0, 0, 0, 0], some [], none, none, none, none,
    none, none]

theorem onLinkRoute_reads_back : Reads onLinkRoute onLinkHeader onLinkSlots ∧
    ∃ m head', Reencodes .add onLinkRoute onLinkHeader onLinkSlots m head' := by
  have hreads : Reads onLinkRoute onLinkHeader onLinkSlots :=
    ⟨by decide +kernel, by decide +kernel⟩
  exact ⟨hreads, messages_read_back.1 onLinkRoute onLinkHeader onLinkSlots hreads
    (by decide +kernel) (by decide +kernel) .add⟩

end Macos
end Daemon
end WgKotlin
