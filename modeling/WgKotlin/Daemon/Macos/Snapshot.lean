import WgKotlin.Daemon.Macos.Message

/-!
# Routes as messages

A `Snapshot` is a routing message that stands for a route.  `key` tells which
entry of the table it is, `same_path` whether two of them lead the same way, and
`message` turns it into a request.  A request has the key of its snapshot, and a
route that was requested by this program is on the same path as what the kernel
then stores.
-/

namespace WgKotlin
namespace Daemon
namespace Macos

open Proto Library

structure RouteKey where
  family : UInt8
  destination : Bytes
  mask : Bytes
  host : Bool
  scope : Nat
  deriving DecidableEq, Repr

structure Snapshot where
  bytes : Bytes
  deriving DecidableEq, Repr

/-- `attrs[index]` -/
def slot (attrs : List (Option Bytes)) (index : Nat) : Option Bytes := attrs[index]?.join

/-! ### Keys -/

/-- `length` bytes from `offset` on, with zeros for those that are missing. -/
def copyBytes (address : Bytes) (offset length : Nat) : Bytes :=
  (List.range length).map fun index => address.getD (offset + index) 0

/-- The zone that the kernel embeds in a link-local address is cleared. -/
def clearZone (bytes : Bytes) : Bytes :=
  if bytes.getD 0 0 = 0xfe ∧ bytes.getD 1 0 &&& 0xc0 = 0x80 then
    bytes.take 2 ++ [0, 0] ++ bytes.drop 4
  else bytes

def addressBytes (address : Bytes) (family : UInt8) : Except IoError Bytes :=
  if family = afInet then .ok (copyBytes address 4 4)
  else if family = afInet6 then .ok (clearZone (copyBytes address 8 16))
  else .error (.other "unsupported routing address family")

/-- `key` after the header and the addresses are read. -/
def keyOf (index flags : Nat) (attrs : List (Option Bytes)) : Except IoError RouteKey := do
  let dst ←
    match slot attrs rtaxDst with
    | some dst => .ok dst
    | none => .error (.other "route has no destination")
  let family ←
    match dst[1]? with
    | some family => .ok family
    | none => .error (.other "invalid route destination")
  let destination ← addressBytes dst family
  let host := decide (flags &&& rtfHost ≠ 0)
  let mask ←
    if host then .ok (List.replicate destination.length 255)
    else addressBytes ((slot attrs rtaxNetmask).getD []) family
  .ok {
    family := family
    destination := List.zipWith (· &&& ·) destination mask
    mask := mask
    host := host
    scope := if flags &&& rtfIfscope ≠ 0 then index else 0 }

def Snapshot.key (s : Snapshot) : Except IoError RouteKey := do
  let head ← header s.bytes
  let attrs ← addresses s.bytes head
  keyOf (rtmIndex.get head) (rtmFlags.get head) attrs

/-! ### Paths -/

def sameAddress (a b : Bytes) : Except IoError Bool :=
  match a[1]?, b[1]? with
  | some aFamily, some bFamily =>
    if aFamily = bFamily then do
      let left ← addressBytes a aFamily
      let right ← addressBytes b bFamily
      .ok (left == right)
    else .ok false
  | _, _ => .ok false

def gatewayEqual (left right : Option Bytes) : Except IoError Bool :=
  match left, right with
  | some a, some b =>
    if a[1]? = some afLink ∧ b[1]? = some afLink then .ok true else sameAddress a b
  | a, b => .ok (a == b)

def sourceEqual (left right : Option Bytes) : Except IoError Bool :=
  match left, right with
  | _, none => .ok true
  | some a, some b => sameAddress a b
  | none, some _ => .ok false

def routingFlags : Nat := rtfGateway ||| rtfReject ||| rtfBlackhole

def Snapshot.samePath (s other : Snapshot) : Except IoError Bool := do
  let left ← header s.bytes
  let right ← header other.bytes
  let leftAttrs ← addresses s.bytes left
  let rightAttrs ← addresses other.bytes right
  let leftKey ← s.key
  let rightKey ← other.key
  if leftKey ≠ rightKey ∨ rtmIndex.get left ≠ rtmIndex.get right ∨
      rtmFlags.get left &&& routingFlags ≠ rtmFlags.get right &&& routingFlags then
    .ok false
  else do
    let gateway ← gatewayEqual (slot leftAttrs rtaxGateway) (slot rightAttrs rtaxGateway)
    let source ← sourceEqual (slot leftAttrs rtaxIfa) (slot rightAttrs rtaxIfa)
    .ok (gateway && source)

/-! ### Requests -/

/-- `!(RTF_DONE | RTF_IFREF | RTF_CONDEMNED | RTF_DEAD)` in 32 bits -/
def keptFlags : Nat := 0xffffffff ^^^ (rtfDone ||| rtfIfref ||| rtfCondemned ||| rtfDead)

/-- The slots of a request: those of the route, with its interface in the slot for it. -/
def requestSlots (head : RtMsghdr) (attrs : List (Option Bytes)) : List (Option Bytes) :=
  attrs.set rtaxIfp (some (linkAddress (rtmIndex.get head)))

/-- The fields that `message` writes into the header. -/
def restamp (operation : Operation) (slots : List (Option Bytes)) (head : RtMsghdr) : RtMsghdr :=
  let inits := if operation = .add then rtvAll else 0
  rtmInits.set inits (rtmFlags.set (rtmFlags.get head &&& keptFlags)
    (rtmAddrs.set (slotMask 0 slots) (rtmErrno.set 0 (rtmType.set operation.code
      (rtmMsglen.set (headerSize + (encodeSlots slots).length) head)))))

/-- `message(operation)`.  The fields lie in the header, so they are written there
before the addresses are appended. -/
def Snapshot.message (s : Snapshot) (operation : Operation) : Except IoError Bytes := do
  let head ← header s.bytes
  if rtmIndex.get head = 0 then .error (.other "route has no interface to restore")
  else if rtmFlags.get head &&& rtfProxy ≠ 0 then
    .error (.other "cannot safely replace a kernel proxy route")
  else do
    let attrs ← addresses s.bytes head
    let slots := requestSlots head attrs
    if 2 ^ 16 ≤ headerSize + (encodeSlots slots).length then
      .error (.other "out of range integral type conversion attempted")
    else .ok ((restamp operation slots head).bytes ++ encodeSlots slots)

/-! ### The header of a request -/

section Restamp

variable (operation : Operation) {slots : List (Option Bytes)} (head : RtMsghdr)

theorem get_restamp_index :
    rtmIndex.get (restamp operation slots head) = rtmIndex.get head := by
  unfold restamp
  repeat rw [HeaderField.get_set_ne (by decide)]

theorem get_restamp_rmx :
    rtmRmx.get (restamp operation slots head) = rtmRmx.get head := by
  unfold restamp
  repeat rw [HeaderField.get_set_ne (by decide)]

theorem get_restamp_msglen (hshort : headerSize + (encodeSlots slots).length < 2 ^ 16) :
    rtmMsglen.get (restamp operation slots head) = headerSize + (encodeSlots slots).length := by
  unfold restamp
  repeat rw [HeaderField.get_set_ne (f := rtmMsglen) (by decide)]
  exact HeaderField.get_set_of_lt hshort head

theorem get_restamp_flags :
    rtmFlags.get (restamp operation slots head) = rtmFlags.get head &&& keptFlags := by
  have hlt : rtmFlags.get head &&& keptFlags < 256 ^ rtmFlags.width :=
    Nat.lt_of_le_of_lt Nat.and_le_left (rtmFlags.get_lt head)
  unfold restamp
  rw [HeaderField.get_set_ne (by decide), HeaderField.get_set_of_lt hlt]

theorem get_restamp_addrs (hlen : slots.length = rtaxMax) :
    rtmAddrs.get (restamp operation slots head) = slotMask 0 slots := by
  have hlt : slotMask 0 slots < 256 ^ rtmAddrs.width := by
    refine Nat.lt_of_lt_of_le (slotMask_lt 0 slots) ?_
    rw [hlen]
    decide
  unfold restamp
  rw [HeaderField.get_set_ne (by decide), HeaderField.get_set_ne (by decide),
    HeaderField.get_set_of_lt hlt]

/-- Restamping twice for one operation is restamping once. -/
theorem restamp_restamp (hlen : slots.length = rtaxMax)
    (hshort : headerSize + (encodeSlots slots).length < 2 ^ 16) :
    restamp operation slots (restamp operation slots head) = restamp operation slots head := by
  have hmsglen := get_restamp_msglen operation head hshort
  have htype : rtmType.get (restamp operation slots head) = operation.code := by
    unfold restamp
    repeat rw [HeaderField.get_set_ne (f := rtmType) (by decide)]
    exact HeaderField.get_set_of_lt (by cases operation <;> decide) _
  have herrno : rtmErrno.get (restamp operation slots head) = 0 := by
    unfold restamp
    repeat rw [HeaderField.get_set_ne (f := rtmErrno) (by decide)]
    exact HeaderField.get_set_of_lt (by decide) _
  have hinits : rtmInits.get (restamp operation slots head) =
      if operation = .add then rtvAll else 0 := by
    unfold restamp
    exact HeaderField.get_set_of_lt (by cases operation <;> decide) _
  have hflags : rtmFlags.get (restamp operation slots head) =
      rtmFlags.get (restamp operation slots head) &&& keptFlags := by
    rw [get_restamp_flags, Nat.and_assoc, Nat.and_self]
  have haddrs := get_restamp_addrs operation head hlen
  rw [restamp]
  simp only [HeaderField.set_of_get hmsglen, HeaderField.set_of_get htype,
    HeaderField.set_of_get herrno, HeaderField.set_of_get haddrs, HeaderField.set_of_get hflags,
    HeaderField.set_of_get hinits]

end Restamp

/-! ### What a snapshot reads as -/

/-- The header and the slots of a snapshot. -/
structure Reads (s : Snapshot) (head : RtMsghdr) (attrs : List (Option Bytes)) : Prop where
  header : header s.bytes = .ok head
  addresses : addresses s.bytes head = .ok attrs

section Reads

variable {s : Snapshot} {head : RtMsghdr} {attrs : List (Option Bytes)} {operation : Operation}

theorem Reads.length (h : Reads s head attrs) : attrs.length = rtaxMax :=
  (readSlots_spec h.addresses).1

theorem Reads.isSockaddr (h : Reads s head attrs) :
    ∀ address, some address ∈ attrs → IsSockaddr address :=
  (readSlots_spec h.addresses).2

theorem Reads.key (h : Reads s head attrs) :
    s.key = keyOf (rtmIndex.get head) (rtmFlags.get head) attrs := by
  rw [Snapshot.key, h.header, ok_bind, h.addresses, ok_bind]

theorem reads_append {slots : List (Option Bytes)} (hlen : slots.length = rtaxMax)
    (haddrs : rtmAddrs.get head = slotMask 0 slots)
    (hslots : ∀ address, some address ∈ slots → IsSockaddr address) :
    Reads { bytes := head.bytes ++ encodeSlots slots } head slots where
  header := header_append head _
  addresses := addresses_append hlen haddrs hslots

theorem length_requestSlots (head : RtMsghdr) (attrs : List (Option Bytes)) :
    (requestSlots head attrs).length = attrs.length := List.length_set

theorem slot_requestSlots (head : RtMsghdr) (attrs : List (Option Bytes)) {index : Nat}
    (h : rtaxIfp ≠ index) : slot (requestSlots head attrs) index = slot attrs index := by
  rw [slot, slot, requestSlots, List.getElem?_set_ne h]

theorem isSockaddr_requestSlots (h : Reads s head attrs) :
    ∀ address, some address ∈ requestSlots head attrs → IsSockaddr address := by
  intro address ha
  rcases List.mem_or_eq_of_mem_set ha with ha | ha
  · exact h.isSockaddr address ha
  · rw [Option.some.injEq] at ha
    rw [ha]
    exact isSockaddr_linkAddress _

theorem length_encode_requestSlots (h : Reads s head attrs) :
    headerSize + (encodeSlots (requestSlots head attrs)).length < 2 ^ 16 := by
  have hle := length_encodeSlots_le (isSockaddr_requestSlots h)
  rw [length_requestSlots, h.length] at hle
  have hmax : 256 * rtaxMax + headerSize < 2 ^ 16 := by decide
  omega

/-- A request can be made for each route that has an interface and is no proxy. -/
theorem message_of_reads (h : Reads s head attrs) (hindex : rtmIndex.get head ≠ 0)
    (hproxy : rtmFlags.get head &&& rtfProxy = 0) :
    s.message operation = .ok ((restamp operation (requestSlots head attrs) head).bytes ++
      encodeSlots (requestSlots head attrs)) := by
  have hshort := length_encode_requestSlots h
  rw [Snapshot.message, h.header]
  show (if _ then _ else if _ then _ else (Macos.addresses s.bytes head >>= _)) = _
  rw [if_neg hindex, if_neg (not_not_intro hproxy), h.addresses]
  show (if _ then _ else _) = _
  rw [if_neg (by omega)]

theorem message_eq_ok {m : Bytes} (h : s.message operation = .ok m) :
    ∃ head attrs, Reads s head attrs ∧ rtmIndex.get head ≠ 0 ∧
      rtmFlags.get head &&& rtfProxy = 0 ∧
      m = (restamp operation (requestSlots head attrs) head).bytes ++
        encodeSlots (requestSlots head attrs) := by
  obtain ⟨head, hhead, h⟩ := bind_eq_ok.mp h
  split at h
  · cases h
  next hindex =>
    split at h
    · cases h
    next hproxy =>
      obtain ⟨attrs, hattrs, h⟩ := bind_eq_ok.mp h
      simp only at h
      split at h
      · cases h
      · cases h
        exact ⟨head, attrs, ⟨hhead, hattrs⟩, hindex, not_not.mp hproxy, rfl⟩

theorem Reads.unique {head' : RtMsghdr} {attrs' : List (Option Bytes)} (h : Reads s head attrs)
    (h' : Reads s head' attrs') : head = head' ∧ attrs = attrs' := by
  have hhead := Except.ok.inj (h.header.symm.trans h'.header)
  subst hhead
  exact ⟨rfl, Except.ok.inj (h.addresses.symm.trans h'.addresses)⟩

theorem message_bytes {m : Bytes} (hreads : Reads s head attrs)
    (h : s.message operation = .ok m) :
    m = (restamp operation (requestSlots head attrs) head).bytes ++
      encodeSlots (requestSlots head attrs) := by
  obtain ⟨head', attrs', hreads', _, _, hm⟩ := message_eq_ok h
  obtain ⟨rfl, rfl⟩ := hreads.unique hreads'
  exact hm

/-- Whether a request can be made does not depend on the operation. -/
theorem exists_message {m : Bytes} (h : s.message operation = .ok m) (operation' : Operation) :
    ∃ m', s.message operation' = .ok m' := by
  obtain ⟨head, attrs, hreads, hindex, hproxy, _⟩ := message_eq_ok h
  exact ⟨_, message_of_reads hreads hindex hproxy⟩

/-- A request reads as its route with the interface in the slot for it. -/
theorem reads_message (operation : Operation) (h : Reads s head attrs) :
    Reads { bytes := (restamp operation (requestSlots head attrs) head).bytes ++
        encodeSlots (requestSlots head attrs) }
      (restamp operation (requestSlots head attrs) head) (requestSlots head attrs) := by
  have hlen : (requestSlots head attrs).length = rtaxMax := by
    rw [length_requestSlots, h.length]
  exact reads_append hlen (get_restamp_addrs operation head hlen) (isSockaddr_requestSlots h)

end Reads

/-! ### Requests and their routes -/

theorem and_keptFlags_and {flags bits : Nat} (h : keptFlags &&& bits = bits) :
    flags &&& keptFlags &&& bits = flags &&& bits := by
  rw [Nat.and_assoc, h]

/-- The key reads two slots, two flags and the interface. -/
theorem keyOf_congr {index flags flags' : Nat} {attrs attrs' : List (Option Bytes)}
    (hdst : slot attrs' rtaxDst = slot attrs rtaxDst)
    (hmask : slot attrs' rtaxNetmask = slot attrs rtaxNetmask)
    (hhost : flags' &&& rtfHost = flags &&& rtfHost)
    (hscope : flags' &&& rtfIfscope = flags &&& rtfIfscope) :
    keyOf index flags' attrs' = keyOf index flags attrs := by
  unfold keyOf
  rw [hdst, hmask, hhost, hscope]

/-- A request has the key of its route. -/
theorem key_message {s : Snapshot} {operation : Operation} {m : Bytes}
    (h : s.message operation = .ok m) : Snapshot.key { bytes := m } = s.key := by
  obtain ⟨head, attrs, hreads, _, _, rfl⟩ := message_eq_ok h
  rw [(reads_message operation hreads).key, hreads.key, get_restamp_index, get_restamp_flags]
  exact keyOf_congr (slot_requestSlots head attrs (by decide))
    (slot_requestSlots head attrs (by decide)) (and_keptFlags_and (by decide))
    (and_keptFlags_and (by decide))

/-- A request is its own request. -/
theorem message_message {s : Snapshot} {operation : Operation} {m : Bytes}
    (h : s.message operation = .ok m) : Snapshot.message { bytes := m } operation = .ok m := by
  obtain ⟨head, attrs, hreads, hindex, hproxy, rfl⟩ := message_eq_ok h
  have hlen : (requestSlots head attrs).length = rtaxMax := by
    rw [length_requestSlots, hreads.length]
  have hslots : requestSlots (restamp operation (requestSlots head attrs) head)
      (requestSlots head attrs) = requestSlots head attrs := by
    rw [requestSlots, get_restamp_index, requestSlots, List.set_set]
  have hindex' : rtmIndex.get (restamp operation (requestSlots head attrs) head) ≠ 0 := by
    rw [get_restamp_index]
    exact hindex
  have hproxy' : rtmFlags.get (restamp operation (requestSlots head attrs) head) &&&
      rtfProxy = 0 := by
    rw [get_restamp_flags, and_keptFlags_and (by decide)]
    exact hproxy
  rw [message_of_reads (reads_message operation hreads) hindex' hproxy', hslots,
    restamp_restamp operation head hlen (length_encode_requestSlots hreads)]

/-- The shape of the routes that this program asks for: the gateway is an IP or a
link address, and the source is absent or an IP address. -/
def IsRequest (s : Snapshot) : Prop :=
  ∃ head attrs, Reads s head attrs ∧
    (∃ gateway, slot attrs rtaxGateway = some gateway ∧
      (gateway[1]? = some afLink ∨ IsIpSockaddr gateway)) ∧
    ∀ source, slot attrs rtaxIfa = some source → IsIpSockaddr source

theorem addressBytes_of_ip {address : Bytes} (h : IsIpSockaddr address) :
    ∃ family bytes, address[1]? = some family ∧ addressBytes address family = .ok bytes := by
  rcases h.2 with h | h
  · exact ⟨afInet, _, h, if_pos rfl⟩
  · exact ⟨afInet6, _, h, (if_neg (by decide)).trans (if_pos rfl)⟩

theorem sameAddress_self {address : Bytes} (h : IsIpSockaddr address) :
    sameAddress address address = .ok true := by
  obtain ⟨family, bytes, hfamily, hbytes⟩ := addressBytes_of_ip h
  rw [sameAddress, hfamily]
  show (if family = family then (addressBytes address family >>= _) else _) = _
  rw [if_pos rfl, hbytes]
  show Except.ok (bytes == bytes) = _
  rw [beq_self_eq_true]

theorem gatewayEqual_self {gateway : Bytes}
    (h : gateway[1]? = some afLink ∨ IsIpSockaddr gateway) :
    gatewayEqual (some gateway) (some gateway) = .ok true := by
  show (if gateway[1]? = some afLink ∧ gateway[1]? = some afLink then _ else _) = _
  by_cases hlink : gateway[1]? = some afLink
  · rw [if_pos ⟨hlink, hlink⟩]
  · rw [if_neg (fun hboth => hlink hboth.1)]
    exact sameAddress_self (h.resolve_left hlink)

theorem sourceEqual_self {source : Option Bytes} (h : ∀ a, source = some a → IsIpSockaddr a) :
    sourceEqual source source = .ok true := by
  cases source with
  | none => rfl
  | some a => exact sameAddress_self (h a rfl)

/-- `same_path` when both snapshots can be read and have one key. -/
theorem samePath_of_reads {s other : Snapshot} {left right : RtMsghdr}
    {leftAttrs rightAttrs : List (Option Bytes)} {k : RouteKey}
    (hs : Reads s left leftAttrs) (ho : Reads other right rightAttrs)
    (hskey : s.key = .ok k) (hokey : other.key = .ok k)
    (hindex : rtmIndex.get left = rtmIndex.get right)
    (hflags : rtmFlags.get left &&& routingFlags = rtmFlags.get right &&& routingFlags)
    (hgateway : gatewayEqual (slot leftAttrs rtaxGateway) (slot rightAttrs rtaxGateway) =
      .ok true)
    (hsource : sourceEqual (slot leftAttrs rtaxIfa) (slot rightAttrs rtaxIfa) = .ok true) :
    s.samePath other = .ok true := by
  have hsame : ¬ (k ≠ k ∨ rtmIndex.get left ≠ rtmIndex.get right ∨
      rtmFlags.get left &&& routingFlags ≠ rtmFlags.get right &&& routingFlags) := by
    simp [hindex, hflags]
  simp only [Snapshot.samePath, hs.header, ho.header, hs.addresses, ho.addresses, hskey, hokey,
    ok_bind, if_neg hsame, hgateway, hsource, Bool.and_self]

/-- What the kernel stores for a request of this program is on the path of the
request. -/
theorem samePath_message {s : Snapshot} {m : Bytes} {k : RouteKey} (hs : IsRequest s)
    (hkey : s.key = .ok k) (h : s.message .add = .ok m) :
    Snapshot.samePath { bytes := m } s = .ok true := by
  have hmkey := (key_message h).trans hkey
  obtain ⟨head, attrs, hreads, ⟨gateway, hgateway, hshape⟩, hsource⟩ := hs
  have hm := message_bytes hreads h
  subst hm
  refine samePath_of_reads (reads_message .add hreads) hreads hmkey hkey
    (get_restamp_index .add head) ?_ ?_ ?_
  · rw [get_restamp_flags, and_keptFlags_and (by decide)]
  · rw [slot_requestSlots head attrs (by decide), hgateway]
    exact gatewayEqual_self hshape
  · rw [slot_requestSlots head attrs (by decide)]
    exact sourceEqual_self hsource

end Macos
end Daemon
end WgKotlin
