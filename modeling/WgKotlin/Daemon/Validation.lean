import WgKotlin.Network
import WgKotlin.Library.Except
import WgKotlin.Library.Text

/-!
# Validation of the daemon

`validation.rs` and the parsing of `ip_util.rs`.  Rust strings are lists of
characters here, and their `len()` counts the bytes of their UTF-8 encoding.
-/

namespace WgKotlin
namespace Daemon

open Proto Library

/-! ### Addresses -/

/-- `std::net::IpAddr` -/
@[ext] structure IpAddr where
  family : Family
  octets : Bytes
  size : octets.length = family.size
  deriving DecidableEq

def parseProtoIp (addr : Ip) : Option IpAddr :=
  match addr.value with
  | none => none
  | some (.v4 bytes) =>
    if h : bytes.length = 4 then some { family := .v4, octets := bytes, size := h } else none
  | some (.v6 bytes) =>
    if h : bytes.length = 16 then some { family := .v6, octets := bytes, size := h } else none

def parseProtoCidr (addr : Cidr) : Option (IpAddr × UInt32) := do
  let ip ← addr.ip
  let ip ← parseProtoIp ip
  some (ip, addr.prefixLen)

/-- The longest prefix of a family. -/
def maxPrefix (ip : IpAddr) : Nat := 8 * ip.family.size

/-! ### Text -/

/-- `len()` -/
def utf8Len (text : List Char) : Nat := (text.map Char.utf8Size).sum

/-- `char::is_whitespace`, the Unicode property `White_Space`. -/
def isWhitespace (c : Char) : Bool :=
  let n := c.toNat
  (0x9 ≤ n && n ≤ 0xd) || (0x2000 ≤ n && n ≤ 0x200a) ||
    [0x20, 0x85, 0xa0, 0x1680, 0x2028, 0x2029, 0x202f, 0x205f, 0x3000].contains n

def trim (text : List Char) : List Char :=
  ((text.dropWhile isWhitespace).reverse.dropWhile isWhitespace).reverse

def trimStartMatches (c : Char) (text : List Char) : List Char := text.dropWhile (· == c)

def maxDomainLength : Nat := 253

def isValidLabel (label : List Char) : Bool :=
  !(label.isEmpty || decide (63 < utf8Len label)) &&
    !(label.head? == some '-' || label.getLast? == some '-') &&
    label.all fun c => c.isAlphanum || c == '-'

def isValidHostname (domain : List Char) : Bool :=
  if domain.isEmpty || decide (maxDomainLength < utf8Len domain) then false
  else (domain.splitOn '.').all isValidLabel

/-! ### Checks -/

def validateNonEmpty (fieldName : String) (values : List Cidr) : Except String Unit :=
  if values.isEmpty then .error (fieldName ++ " must contain at least one entry") else .ok ()

def validateMaxCount (fieldName : String) (count max : Nat) : Except String Unit :=
  if max < count then
    .error (fieldName ++ " supports at most " ++ toString max ++ " entries (received: " ++
      toString count ++ ")")
  else .ok ()

def validateMaxLength (fieldName : String) (value : String) (max : Nat) : Except String Unit :=
  if max < utf8Len value.toList then
    .error (fieldName ++ " must be at most " ++ toString max ++ " characters")
  else .ok ()

/-- `{field_name}[{idx}]` -/
def indexed (fieldName : String) (idx : Nat) : String := fieldName ++ "[" ++ toString idx ++ "]"

def validateCidr (fieldName : String) (idx : Nat) (addr : Cidr) : Except String Unit :=
  match parseProtoCidr addr with
  | none => .error (indexed fieldName idx ++ " has an invalid IP address")
  | some (ip, p) =>
    if maxPrefix ip < p.toNat then
      .error (indexed fieldName idx ++ " prefix must be between 0 and " ++ toString (maxPrefix ip))
    else .ok ()

def validateCidrList (fieldName : String) (values : List Cidr) : Except String Unit :=
  eachFrom (validateCidr fieldName) 0 values

def minMtu : Int := 576
def minIpv6Mtu : Int := 1280
def maxMtu : Int := 65535

def isIpv6 (addr : Cidr) : Bool :=
  match parseProtoCidr addr with
  | some (ip, _) => ip.family == .v6
  | none => false

def validateMtuForAddresses (mtu : Int32) (addresses : List Cidr) : Except String Unit :=
  if ¬ (minMtu ≤ mtu.toInt ∧ mtu.toInt ≤ maxMtu) then
    .error ("MTU must be between " ++ toString minMtu ++ " and " ++ toString maxMtu)
  else if addresses.any isIpv6 && decide (mtu.toInt < minIpv6Mtu) then
    .error ("MTU must be at least " ++ toString minIpv6Mtu ++
      " when IPv6 addresses are configured")
  else .ok ()

def validateDomain (idx : Nat) (domain : String) : Except String Unit := do
  validateMaxLength (indexed "dns.searchDomains" idx) domain maxDomainLength
  let name := trimStartMatches '.' (trim domain.toList)
  if name.isEmpty || !isValidHostname name then
    .error (indexed "dns.searchDomains" idx ++ " must be a valid hostname")
  else .ok ()

def validateServer (idx : Nat) (server : Ip) : Except String Unit :=
  if (parseProtoIp server).isNone then
    .error (indexed "dns.servers" idx ++ " must be a valid IPv4 or IPv6 address")
  else .ok ()

def maxDnsServers : Nat := 64
def maxDnsDomains : Nat := 64

def validateDns (dns : Proto.DnsConfig) : Except String Unit := do
  validateMaxCount "dns.servers" dns.servers.length maxDnsServers
  validateMaxCount "dns.searchDomains" dns.searchDomains.length maxDnsDomains
  if (dns.searchDomains.isEmpty && !dns.servers.isEmpty) ||
      (!dns.searchDomains.isEmpty && dns.servers.isEmpty) then
    .error "dns must provide both searchDomains and servers, or neither"
  else do
    eachFrom validateDomain 0 dns.searchDomains
    eachFrom validateServer 0 dns.servers

def maxInterfaceNameLength : Nat := 15

def interfaceNameError : String :=
  "interface name must be at most 15 characters and match `utun[0-9]+`"

/-- The value of a text of decimal digits. -/
def decimalValue (digits : List Char) : Nat :=
  digits.foldl (fun n c => 10 * n + (c.toNat - '0'.toNat)) 0

/-- The last test is compiled on macOS only. -/
def validateInterfaceName (macos : Bool) (interfaceName : String) : Except String Unit :=
  let name := interfaceName.toList
  if maxInterfaceNameLength < utf8Len name then .error interfaceNameError
  else if !"utun".toList.isPrefixOf name then .error interfaceNameError
  else
    let suffix := name.drop 4
    if suffix.isEmpty || !suffix.all Char.isDigit then .error interfaceNameError
    else if macos && decide (2 ^ 32 ≤ decimalValue suffix + 1) then
      .error ("macOS interface index must be between 0 and " ++ toString (2 ^ 32 - 1 - 1 : Nat))
    else .ok ()

def maxAddresses : Nat := 64
def maxRoutes : Nat := 256

def validateConfig (macos : Bool) (config : TunSessionConfig) : Except String Unit := do
  validateInterfaceName macos config.interfaceName
  validateNonEmpty "addresses" config.addresses
  validateCidrList "addresses" config.addresses
  validateMaxCount "addresses" config.addresses.length maxAddresses
  validateCidrList "peer_allowed_ips" config.peerAllowedIps
  validateMaxCount "peer_allowed_ips" config.peerAllowedIps.length maxRoutes
  if config.mtu ≠ 0 then validateMtuForAddresses config.mtu config.addresses else .ok ()
  validateDns (config.dns.getD {})

/-! ### What passes -/

theorem parseProtoIp_of_value {ip : Ip} {a : IpValue} (ha : ip.value = some a) :
    parseProtoIp ip = if h : a.bytes.length = a.family.size then
      some { family := a.family, octets := a.bytes, size := h } else none := by
  unfold parseProtoIp
  rw [ha]
  cases a <;> rfl

theorem parseProtoIp_eq_some_iff {ip : Ip} {addr : IpAddr} :
    parseProtoIp ip = some addr ↔
      ∃ a, ip.value = some a ∧ a.family = addr.family ∧ a.bytes = addr.octets := by
  constructor
  · intro h
    cases ha : ip.value with
    | none =>
        rw [parseProtoIp, ha] at h
        cases h
    | some a =>
        rw [parseProtoIp_of_value ha] at h
        split at h
        · cases h
          exact ⟨a, rfl, rfl, rfl⟩
        · cases h
  · intro h
    obtain ⟨a, ha, hfamily, hbytes⟩ := h
    have hlen : a.bytes.length = a.family.size := by rw [hfamily, hbytes, addr.size]
    rw [parseProtoIp_of_value ha, dif_pos hlen, Option.some.injEq]
    exact IpAddr.ext hfamily hbytes

/-- The daemon reads an address if and only if it is well formed. -/
theorem exists_parseProtoIp_iff {ip : Ip} :
    (∃ addr, parseProtoIp ip = some addr) ↔ ip.WellFormed := by
  constructor
  · intro h
    obtain ⟨addr, haddr⟩ := h
    obtain ⟨a, ha, hfamily, hbytes⟩ := parseProtoIp_eq_some_iff.mp haddr
    unfold Ip.WellFormed
    rw [ha]
    show a.bytes.length = a.family.size
    rw [hbytes, hfamily, addr.size]
  · intro h
    obtain ⟨a, ha, hlen⟩ := h.exists_value
    exact ⟨⟨a.family, a.bytes, hlen⟩, parseProtoIp_eq_some_iff.mpr ⟨a, ha, rfl, rfl⟩⟩

theorem validateServer_eq_ok {idx : Nat} {server : Ip} :
    validateServer idx server = .ok () ↔ server.WellFormed := by
  rw [validateServer, ← exists_parseProtoIp_iff]
  cases parseProtoIp server with
  | none => simp
  | some addr => simp

theorem parseProtoCidr_eq_some_iff {addr : Cidr} {ip : IpAddr} {p : UInt32} :
    parseProtoCidr addr = some (ip, p) ↔
      ∃ i, addr.ip = some i ∧ parseProtoIp i = some ip ∧ addr.prefixLen = p := by
  simp [parseProtoCidr, Option.bind_eq_some_iff]

theorem validateCidr_eq_ok {fieldName : String} {idx : Nat} {addr : Cidr} :
    validateCidr fieldName idx addr = .ok () ↔ addr.WellFormed := by
  unfold validateCidr
  constructor
  · intro h
    split at h
    · cases h
    next ip p hparse =>
      split at h
      · cases h
      next hle =>
        obtain ⟨i, hi, hip, rfl⟩ := parseProtoCidr_eq_some_iff.mp hparse
        obtain ⟨a, ha, hfamily, _⟩ := parseProtoIp_eq_some_iff.mp hip
        have hget : addr.getIp = i := by rw [Cidr.getIp, hi]; rfl
        refine ⟨hget ▸ exists_parseProtoIp_iff.mp ⟨ip, hip⟩, ?_⟩
        rw [hget, ha]
        show addr.prefixLen.toNat ≤ 8 * a.family.size
        rw [hfamily]
        exact Nat.not_lt.mp hle
  · intro h
    obtain ⟨a, ha, hlen, hp⟩ := h.exists_value
    have hparse : parseProtoCidr addr =
        some ({ family := a.family, octets := a.bytes, size := hlen }, addr.prefixLen) :=
      parseProtoCidr_eq_some_iff.mpr
        ⟨addr.getIp, h.ip_eq, parseProtoIp_eq_some_iff.mpr ⟨a, ha, rfl, rfl⟩, rfl⟩
    rw [hparse]
    exact if_neg (Nat.not_lt.mpr hp)

theorem validateCidrList_eq_ok {fieldName : String} {values : List Cidr} :
    validateCidrList fieldName values = .ok () ↔ ∀ c ∈ values, c.WellFormed := by
  apply eachFrom_eq_ok
  intro idx addr
  exact validateCidr_eq_ok

end Daemon
end WgKotlin
