import WgKotlin.Daemon.InterfaceName
import WgKotlin.Daemon.KernelRoutes

/-!
# Starting a session

`SessionManager::start` with the operations that can panic written out.  A check
that fails returns an error to the client; a panic ends the task of a root
process.  `validate_config` has looked at everything that the unguarded operations
rely on, except for the endpoints, whose check is on the way.
-/

namespace WgKotlin
namespace Daemon

open Proto Library

/-! ### Operations that can panic -/

/-- How a Rust function ends without a value. -/
inductive Failure
  | panicked (message : String)
  | failed (error : String)
  deriving DecidableEq

namespace Failure

/-- `unwrap` and `expect` -/
def unwrap {α : Type} (message : String) : Option α → Except Failure α
  | some a => .ok a
  | none => .error (.panicked message)

/-- `map_err(describe)?` -/
def propagate {α : Type} (describe : String → String) : Except String α → Except Failure α
  | .ok a => .ok a
  | .error e => .error (.failed (describe e))

/-- `map_err(describe)` on the result of a function that can also panic. -/
def describe {α : Type} (describe : String → String) : Except Failure α → Except Failure α
  | .error (.failed e) => .error (.failed (describe e))
  | result => result

end Failure

/-- `text[n..]`: the index is in bytes and has to be the end of a character. -/
def sliceFrom (n : Nat) : List Char → Except Failure (List Char)
  | [] =>
    if n = 0 then .ok []
    else .error (.panicked "byte index is out of bounds")
  | c :: rest =>
    if n = 0 then .ok (c :: rest)
    else if c.utf8Size ≤ n then sliceFrom (n - c.utf8Size) rest
    else .error (.panicked "byte index is not a char boundary")

/-- The name that `session` goes on with on macOS. -/
def normalizedName (name : String) : Except Failure String := do
  let suffix ← sliceFrom 4 name.toList
  let index := trimStartMatches '0' suffix
  .ok (String.ofList ("utun".toList ++ if index.isEmpty then ['0'] else index))

def protoIpToString (display : IpAddr → String) (addr : Ip) : Except Failure String := do
  let ip ← Failure.unwrap "invalid proto Ip" (parseProtoIp addr)
  .ok (display ip)

/-- The loop of `ips_to_args`. -/
def ipsToArgsFrom (display : IpAddr → String) (seen : List String) :
    List Ip → Except Failure (List String)
  | [] => .ok seen
  | addr :: rest => do
    let ip ← protoIpToString display addr
    ipsToArgsFrom display (pushNew seen ip) rest

/-! ### The device -/

/-- What `DeviceBuilder` has been told. -/
structure DeviceSpec where
  name : String
  addresses : List (IpAddr × UInt8)
  mtu : Option UInt16
  wintunFile : Option String := none
  deriving DecidableEq

/-- `mtu as u16` -/
def asU16 (mtu : Int32) : UInt16 := mtu.toUInt32.toUInt16

def deviceAddress (addr : Cidr) : Except Failure (IpAddr × UInt8) := do
  let (ip, p) ← Failure.unwrap "called `Option::unwrap()` on a `None` value" (parseProtoCidr addr)
  let p ← Failure.unwrap "called `Result::unwrap()` on an `Err` value: TryFromIntError(())"
    (tryU8 p)
  .ok (ip, p)

def deviceSpec (config : TunSessionConfig) : Except Failure DeviceSpec := do
  let addresses ← mapAll deviceAddress config.addresses
  .ok {
    name := config.interfaceName
    addresses := addresses
    mtu := if 0 < config.mtu.toInt then some (asU16 config.mtu) else none }

/-- The Wintun DLL, which only Windows asks for.  A path that is not Unicode is `none`. -/
inductive Wintun
  | notAsked
  | notInitialized
  | dll (path : Option String)
  deriving DecidableEq

namespace Wintun

/-- `WINTUN_DLL.get().and_then(Weak::upgrade)` -/
def upgrade : Wintun → Except String Unit
  | .notInitialized => .error "Wintun DLL is not initialized"
  | .notAsked | .dll _ => .ok ()

/-- `wintun.path().to_str()` -/
def file : Wintun → Except String (Option String)
  | .dll none => .error "Wintun DLL path is not Unicode"
  | .dll (some path) => .ok (some path)
  | .notAsked | .notInitialized => .ok none

end Wintun

/-! ### Starting -/

/-- What the system answers.  Before Windows can make a device it needs its DLL, and
rules of an earlier daemon go. -/
structure StartEnvironment (platform : EndpointLookup) where
  wintun : Wintun
  prepare : Except String Unit
  buildSync : DeviceSpec → Except String Unit
  setNonblocking : Except String Unit
  deviceName : Option String
  interrupt : Except String Unit
  newManager : Except String Unit
  /-- Routes and DNS, from what `configure_session` has worked out. -/
  setUp : List Route → List platform.EndpointRoute → List String → List String → Except String Unit

section Start

variable {platform : EndpointLookup} (macos : Bool) (display : IpAddr → String)
  (env : StartEnvironment platform) (config : TunSessionConfig)

/-- `start` up to `build_sync`. -/
def beforeDevice : Except Failure (List platform.EndpointRoute × DeviceSpec) := do
  Failure.propagate id (validateInterfaceName macos config.interfaceName)
  Failure.propagate id env.wintun.upgrade
  let endpointRoutes ← Failure.propagate id (resolveEndpointRoutes platform display config)
  Failure.propagate ("failed to prepare platform session: " ++ ·) env.prepare
  let spec ← deviceSpec config
  let wintunFile ← Failure.propagate id env.wintun.file
  .ok (endpointRoutes, { spec with wintunFile := wintunFile })

/-- `configure_session`, with what it does not share between the systems in
`setUp`. -/
def configure (interfaceName : String) (endpointRoutes : List platform.EndpointRoute) :
    Except Failure Unit := do
  let (_, filteredRoutes, endpointRoutes) ← Failure.propagate id
    (buildAndFilterRoutes env.newManager config interfaceName endpointRoutes)
  let dnsServers ← ipsToArgsFrom display [] ((config.dns.map (·.servers)).getD [])
  let dnsDomains := normalizeDomains ((config.dns.map (·.searchDomains)).getD [])
  Failure.propagate id (env.setUp filteredRoutes endpointRoutes dnsServers dnsDomains)

/-- The rest of `start`; the result is the name of the device. -/
def withDevice (endpointRoutes : List platform.EndpointRoute) (spec : DeviceSpec) :
    Except Failure String := do
  Failure.propagate ("failed to create TUN device: " ++ ·) (env.buildSync spec)
  Failure.propagate ("failed to configure non-blocking TUN: " ++ ·) env.setNonblocking
  let interfaceName := env.deviceName.getD config.interfaceName
  Failure.propagate ("failed to create TUN interrupt event: " ++ ·) env.interrupt
  Failure.describe ("failed to configure platform session: " ++ ·)
    (configure display env config interfaceName endpointRoutes)
  .ok interfaceName

/-- `SessionManager::start`, with the devices that it has asked for. -/
def start : List DeviceSpec × Except Failure String :=
  match beforeDevice macos display env config with
  | .error failure => ([], .error failure)
  | .ok (endpointRoutes, spec) => ([spec], withDevice display env config endpointRoutes spec)

end Start

/-! ### What was validated -/

/-- What `validate_config` says about the fields that the start uses. -/
structure Validated (macos : Bool) (config : TunSessionConfig) : Prop where
  name : validateInterfaceName macos config.interfaceName = .ok ()
  addresses : ∀ c ∈ config.addresses, c.WellFormed
  allowedIps : ∀ c ∈ config.peerAllowedIps, c.WellFormed
  mtu : config.mtu ≠ 0 → minMtu ≤ config.mtu.toInt ∧ config.mtu.toInt ≤ maxMtu
  servers : ∀ server ∈ (config.dns.map (·.servers)).getD [], server.WellFormed

theorem validateMtuForAddresses_range {mtu : Int32} {addresses : List Cidr}
    (h : validateMtuForAddresses mtu addresses = .ok ()) :
    minMtu ≤ mtu.toInt ∧ mtu.toInt ≤ maxMtu := by
  unfold validateMtuForAddresses at h
  split at h
  · cases h
  next hrange => exact not_not.mp hrange

theorem validateDns_servers {dns : DnsConfig} (h : validateDns dns = .ok ()) :
    ∀ server ∈ dns.servers, server.WellFormed := by
  obtain ⟨_, _, h⟩ := bind_eq_ok.mp h
  obtain ⟨_, _, h⟩ := bind_eq_ok.mp h
  split at h
  · cases h
  · obtain ⟨_, _, hservers⟩ := bind_eq_ok.mp h
    exact (eachFrom_eq_ok (P := Ip.WellFormed) fun _ _ => validateServer_eq_ok).mp hservers

theorem Validated.of_validateConfig {macos : Bool} {config : TunSessionConfig}
    (h : validateConfig macos config = .ok ()) : Validated macos config := by
  obtain ⟨_, hname, h⟩ := bind_eq_ok.mp h
  obtain ⟨_, _, h⟩ := bind_eq_ok.mp h
  obtain ⟨_, haddresses, h⟩ := bind_eq_ok.mp h
  obtain ⟨_, _, h⟩ := bind_eq_ok.mp h
  obtain ⟨_, hallowed, h⟩ := bind_eq_ok.mp h
  obtain ⟨_, _, h⟩ := bind_eq_ok.mp h
  have hrest : (config.mtu ≠ 0 → minMtu ≤ config.mtu.toInt ∧ config.mtu.toInt ≤ maxMtu) ∧
      validateDns (config.dns.getD {}) = .ok () := by
    simp only at h
    split at h
    · obtain ⟨_, hmtu, hdns⟩ := bind_eq_ok.mp h
      exact ⟨fun _ => validateMtuForAddresses_range hmtu, hdns⟩
    next hzero => exact ⟨fun hne => absurd hne hzero, h⟩
  obtain ⟨hmtu, hdns⟩ := hrest
  refine ⟨hname, validateCidrList_eq_ok.mp haddresses, validateCidrList_eq_ok.mp hallowed, hmtu, ?_⟩
  · have hservers := validateDns_servers hdns
    cases hconfig : config.dns with
    | none => exact fun _ hmem => (by cases hmem)
    | some dns =>
        rw [hconfig] at hservers
        exact hservers

/-! ### No panic -/

/-- The computation does not panic; it may return an error. -/
def Calm {α : Type} (result : Except Failure α) : Prop :=
  ∀ message, result ≠ .error (.panicked message)

namespace Calm

variable {α β : Type}

theorem ok (a : α) : Calm (.ok a : Except Failure α) := fun _ h => by cases h

theorem propagate (describe : String → String) (result : Except String α) :
    Calm (Failure.propagate describe result) := by
  cases result with
  | ok a => exact ok a
  | error e => exact fun _ h => by cases h

theorem bind {x : Except Failure α} {f : α → Except Failure β} (hx : Calm x)
    (hf : ∀ a, Calm (f a)) : Calm (x >>= f) := by
  cases x with
  | ok a => exact hf a
  | error failure => exact fun message h => hx message (by cases h; rfl)

theorem describe {describe : String → String} {x : Except Failure α} (hx : Calm x) :
    Calm (Failure.describe describe x) := by
  cases x with
  | ok a => exact ok a
  | error failure =>
      cases failure with
      | failed e => exact fun _ h => by cases h
      | panicked message => exact absurd rfl (hx message)

end Calm

/-- A device gets the address and the length of a validated prefix. -/
theorem deviceAddress_of_wellFormed {c : Cidr} (hc : c.WellFormed) :
    ∃ ip p, deviceAddress c = .ok (ip, p) ∧ parseProtoCidr c = some (ip, c.prefixLen) ∧
      p.toNat = c.prefixLen.toNat := by
  obtain ⟨ip, hip⟩ := exists_parseProtoIp_iff.mpr hc.1
  have hparse := parseProtoCidr_eq_some_iff.mpr ⟨c.getIp, hc.ip_eq, hip, rfl⟩
  have hlt : c.prefixLen.toNat < 256 := by
    have hle := hc.prefixLen_le
    omega
  refine ⟨ip, UInt8.ofNat c.prefixLen.toNat, ?_, hparse, UInt8.toNat_ofNat_of_lt' hlt⟩
  unfold deviceAddress
  rw [hparse]
  simp only [Failure.unwrap, ok_bind, tryU8, if_pos hlt]

/-- The addresses of the device are the addresses of the configuration. -/
theorem exists_deviceSpec {config : TunSessionConfig}
    (h : ∀ c ∈ config.addresses, c.WellFormed) :
    ∃ spec, deviceSpec config = .ok spec ∧
      List.Forall₂ (fun c address => parseProtoCidr c = some (address.1, c.prefixLen) ∧
        address.2.toNat = c.prefixLen.toNat) config.addresses spec.addresses := by
  have hall : ∀ c ∈ config.addresses, ∃ b, deviceAddress c = .ok b := fun c hc => by
    obtain ⟨ip, p, haddress, _⟩ := deviceAddress_of_wellFormed (h c hc)
    exact ⟨(ip, p), haddress⟩
  obtain ⟨addresses, haddresses⟩ := exists_mapAll hall
  refine ⟨_, by rw [deviceSpec, haddresses, ok_bind], ?_⟩
  have heach := mapAll_eq_ok.mp haddresses
  clear haddresses hall
  show List.Forall₂ _ config.addresses addresses
  generalize config.addresses = cidrs at h heach
  induction heach with
  | nil => exact .nil
  | cons haddress _ ih =>
      obtain ⟨hc, hrest⟩ := List.forall_mem_cons.mp h
      obtain ⟨ip, p, hsame, hparse, hlen⟩ := deviceAddress_of_wellFormed hc
      rw [hsame] at haddress
      cases haddress
      exact .cons ⟨hparse, hlen⟩ (ih hrest)

/-- The loop of `ips_to_args` on addresses that parse. -/
theorem ipsToArgsFrom_eq {display : IpAddr → String} {values : List Ip}
    (h : ∀ value ∈ values, value.WellFormed) (seen : List String) :
    ipsToArgsFrom display seen values =
      .ok (((values.filterMap parseProtoIp).map display).foldl pushNew seen) := by
  induction values generalizing seen with
  | nil => rfl
  | cons value rest ih =>
      obtain ⟨hvalue, hrest⟩ := List.forall_mem_cons.mp h
      obtain ⟨ip, hip⟩ := exists_parseProtoIp_iff.mpr hvalue
      rw [ipsToArgsFrom, protoIpToString, hip, List.filterMap_cons, hip]
      exact ih hrest (pushNew seen (display ip))

theorem ipsToArgsFrom_nil {display : IpAddr → String} {values : List Ip}
    (h : ∀ value ∈ values, value.WellFormed) :
    ipsToArgsFrom display [] values = .ok (ipsToArgs display values) := by
  have hall : ∀ l : List String, (l.filter fun a => !([] : List String).contains a) = l :=
    fun l => List.filter_eq_self.mpr fun _ _ => rfl
  rw [ipsToArgsFrom_eq h, foldl_pushNew, hall, List.nil_append, ipsToArgs]

/-- The slice of an accepted name is its index. -/
theorem normalizedName_eq {macos : Bool} {name : String}
    (h : validateInterfaceName macos name = .ok ()) :
    normalizedName name = .ok (macosName name) := by
  obtain ⟨suffix, hname, _⟩ := validateInterfaceName_eq_ok.mp h
  have hslice : sliceFrom 4 name.toList = .ok suffix := by
    rw [hname]
    cases suffix <;> rfl
  rw [normalizedName, hslice, ok_bind, macosName_ofList, hname, drop_utun]
  rfl

theorem toNat_asU16 {mtu : Int32} (h0 : 0 < mtu.toInt) (h : mtu.toInt ≤ maxMtu) :
    ((asU16 mtu).toNat : Int) = mtu.toInt := by
  have hmax : maxMtu = 65535 := rfl
  have hint : mtu.toInt = mtu.toBitVec.toInt := rfl
  have hnat : mtu.toUInt32.toNat = mtu.toBitVec.toNat := rfl
  rw [hint, BitVec.toInt_eq_toNat_cond] at h0 h ⊢
  rw [asU16, UInt32.toNat_toUInt16, hnat]
  split at h0
  · rw [if_pos (by assumption)] at h ⊢
    omega
  · omega

/-! ### The start of a validated session -/

/-- One route for each allowed IP, in order. -/
theorem forall₂_stands {interfaceName : String} {allowedIps : List Cidr}
    (h : ∀ c ∈ allowedIps, c.WellFormed) :
    List.Forall₂ (Stands interfaceName) allowedIps
      (allowedIps.filterMap (allowedRoute interfaceName)) := by
  induction allowedIps with
  | nil => exact .nil
  | cons c rest ih =>
      obtain ⟨hc, hrest⟩ := List.forall_mem_cons.mp h
      obtain ⟨t, ht⟩ := exists_stands hc
      rw [List.filterMap_cons, (allowedRoute_eq_some_iff hc).mpr ht]
      exact .cons ht (ih hrest)

section Validated

variable {platform : EndpointLookup} {macos : Bool} {display : IpAddr → String}
  {env : StartEnvironment platform} {config : TunSessionConfig}

theorem calm_configure (h : Validated macos config) (interfaceName : String)
    (endpointRoutes : List platform.EndpointRoute) :
    Calm (configure display env config interfaceName endpointRoutes) := by
  unfold configure
  refine Calm.bind (Calm.propagate _ _) fun routes => ?_
  obtain ⟨_, filteredRoutes, endpointRoutes⟩ := routes
  rw [ipsToArgsFrom_nil h.servers]
  exact Calm.propagate _ _

theorem calm_start (h : Validated macos config) : Calm (start macos display env config).2 := by
  have hbefore : Calm (beforeDevice macos display env config) := by
    obtain ⟨spec, hspec, _⟩ := exists_deviceSpec h.addresses
    refine Calm.bind (Calm.propagate _ _) fun _ => Calm.bind (Calm.propagate _ _) fun _ =>
      Calm.bind (Calm.propagate _ _) fun endpointRoutes =>
        Calm.bind (Calm.propagate _ _) fun _ => ?_
    rw [hspec, ok_bind]
    exact Calm.bind (Calm.propagate _ _) fun _ => Calm.ok _
  unfold start
  split
  next failure hfailure =>
    rw [hfailure] at hbefore
    exact fun message hpanic => hbefore message (congrArg Except.error (Except.error.inj hpanic))
  next endpointRoutes spec _ =>
    exact Calm.bind (Calm.propagate _ _) fun _ => Calm.bind (Calm.propagate _ _) fun _ =>
      Calm.bind (Calm.propagate _ _) fun _ =>
        Calm.bind (calm_configure h _ endpointRoutes).describe fun _ => Calm.ok _

/-- An endpoint that does not parse is found before there is a device. -/
theorem start_bad_endpoint (h : Validated macos config) {endpoint : Ip}
    (hmem : endpoint ∈ config.peerEndpoints) (hbad : parseProtoIp endpoint = none) :
    ∃ e, start macos display env config = ([], .error (.failed e)) := by
  have hresolve : ∃ e, resolveEndpointRoutes platform display config = .error e := by
    cases hroutes : resolveEndpointRoutes platform display config with
    | error e => exact ⟨e, rfl⟩
    | ok routes =>
        obtain ⟨route, hroute⟩ := exists_of_mapAll hroutes hmem
        obtain ⟨ip, hip, _⟩ := resolveEndpoint_eq_ok.mp hroute
        rw [hbad] at hip
        cases hip
  obtain ⟨e, he⟩ := hresolve
  have hbefore : ∃ e, beforeDevice macos display env config = .error (.failed e) := by
    unfold beforeDevice
    rw [h.name, he]
    cases env.wintun.upgrade with
    | ok _ => exact ⟨e, rfl⟩
    | error e' => exact ⟨e', rfl⟩
  obtain ⟨e', hbefore⟩ := hbefore
  refine ⟨e', ?_⟩
  unfold start
  rw [hbefore]

/-- The name that macOS goes on with passes the validation too. -/
theorem validateConfig_macosName (h : validateConfig true config = .ok ()) :
    validateConfig true { config with interfaceName := macosName config.interfaceName } =
      .ok () := by
  obtain ⟨_, hname, hrest⟩ := bind_eq_ok.mp h
  exact bind_eq_ok.mpr ⟨(), validate_macosName hname, hrest⟩

end Validated

/-- A validated configuration is started without a panic and without a loss: the
name is sliced where it can be, the device gets each address and length, the MTU
fits, and every allowed IP becomes a route.  What was not validated, an endpoint,
ends the start before there is a device. -/
theorem validated_start_total {platform : EndpointLookup} (macos : Bool)
    (display : IpAddr → String) (env : StartEnvironment platform) (config : TunSessionConfig)
    (h : validateConfig macos config = .ok ()) :
    Calm (start macos display env config).2 ∧
    (∃ spec, deviceSpec config = .ok spec ∧
      List.Forall₂ (fun c address => parseProtoCidr c = some (address.1, c.prefixLen) ∧
        address.2.toNat = c.prefixLen.toNat) config.addresses spec.addresses) ∧
    ipsToArgsFrom display [] ((config.dns.map (·.servers)).getD []) =
      .ok (dnsServers display config) ∧
    normalizedName config.interfaceName = .ok (macosName config.interfaceName) ∧
    (macos = true → validateConfig macos
      { config with interfaceName := macosName config.interfaceName } = .ok ()) ∧
    (0 < config.mtu.toInt → ((asU16 config.mtu).toNat : Int) = config.mtu.toInt) ∧
    (∀ interfaceName, List.Forall₂ (Stands interfaceName) config.peerAllowedIps
      (config.peerAllowedIps.filterMap (allowedRoute interfaceName))) ∧
    ((∃ endpoint ∈ config.peerEndpoints, parseProtoIp endpoint = none) →
      ∃ e, start macos display env config = ([], .error (.failed e))) := by
  have hvalid := Validated.of_validateConfig h
  refine ⟨calm_start hvalid, exists_deviceSpec hvalid.addresses, ipsToArgsFrom_nil hvalid.servers,
    normalizedName_eq hvalid.name, ?_, ?_, fun _ => forall₂_stands hvalid.allowedIps, ?_⟩
  · rintro rfl
    exact validateConfig_macosName h
  · intro hpos
    have hne : config.mtu ≠ 0 := fun hzero => by
      rw [hzero] at hpos
      exact absurd hpos (by decide)
    exact toNat_asU16 hpos (hvalid.mtu hne).2
  · rintro ⟨endpoint, hmem, hbad⟩
    exact start_bad_endpoint hvalid hmem hbad

/-- A system that answers every lookup with the address itself and refuses nothing. -/
def directLookup : EndpointLookup where
  EndpointRoute := IpAddr
  destination := id
  lookup := .ok
  lookup_destination := fun h => (Except.ok.inj h).symm

def directEnvironment : StartEnvironment directLookup where
  wintun := .notAsked
  prepare := .ok ()
  buildSync := fun _ => .ok ()
  setNonblocking := .ok ()
  deviceName := none
  interrupt := .ok ()
  newManager := .ok ()
  setUp := fun _ _ _ _ => .ok ()

/-- A configuration that is valid but for an endpoint without an address. -/
def badEndpointConfig : TunSessionConfig :=
  { System.exampleConfig with peerEndpoints := [{ value := none }] }

theorem start_badEndpointConfig : validateConfig true badEndpointConfig = .ok () ∧
    ∃ e, start true (fun _ => "") directEnvironment badEndpointConfig =
      ([], .error (.failed e)) := by
  have hvalid : validateConfig true badEndpointConfig = .ok () := by decide
  obtain ⟨_, _, _, _, _, _, _, hbad⟩ :=
    validated_start_total true (fun _ => "") directEnvironment badEndpointConfig hvalid
  exact ⟨hvalid, hbad ⟨_, List.mem_singleton_self _, rfl⟩⟩

end Daemon
end WgKotlin
