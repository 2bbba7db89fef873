import WgKotlin.Library.TaggedFields
import WgKotlin.Daemon.Conversation

/-!
# The messages as bytes

The schemas of `daemon-protocol`, in the encoding of proto3: a field that has its default is
not written, a field of a `oneof` is always written, a message that comes twice is merged,
and fields with unknown numbers are skipped.  Groups are not part of proto3 and are not read.
-/

namespace WgKotlin
namespace Wire

open Proto Library Library.Tagged Daemon

/-! ### `ip_addr.proto` -/

def ipFields (ip : Ip) : List Field :=
  match ip.value with
  | none => []
  | some (.v4 data) => [{ number := 1, value := .bytes data }]
  | some (.v6 data) => [{ number := 2, value := .bytes data }]

def mergeIp (ip : Ip) (f : Field) : Option Ip :=
  match f.number, f.value with
  | 1, .bytes data => some { value := some (.v4 data) }
  | 1, _ => none
  | 2, .bytes data => some { value := some (.v6 data) }
  | 2, _ => none
  | _, _ => some ip

theorem known_ipFields (ip : Ip) : Known [1, 2] (ipFields ip) := by
  unfold ipFields
  split
  · exact known_nil _
  · exact known_singleton (by decide) trivial
  · exact known_singleton (by decide) trivial

theorem mergeIp_fields (ip : Ip) (_ : ∀ f ∈ ipFields ip, f.Valid) :
    (ipFields ip).foldlM mergeIp { value := none } = some ip := by
  obtain ⟨value⟩ := ip
  cases value with
  | none => rfl
  | some value => cases value <;> rfl

def ip : Schema Ip where
  empty := { value := none }
  numbers := [1, 2]
  fields := ipFields
  merge := mergeIp
  numbers_valid := by decide
  known := known_ipFields
  merge_fields := mergeIp_fields

def cidrFields (c : Cidr) : List Field :=
  messageField ip 1 c.ip ++ varintField 2 c.prefixLen.toNat

def mergeCidr (c : Cidr) (f : Field) : Option Cidr :=
  match f.number, f.value with
  | 1, .bytes data => (ip.decodeInto (c.ip.getD ip.empty) data).map fun a => { c with ip := some a }
  | 1, _ => none
  | 2, .varint n => some { c with prefixLen := UInt32.ofNat n }
  | 2, _ => none
  | _, _ => some c

theorem toNat_lt_two_pow (n : UInt32) : n.toNat < 2 ^ 64 := by
  have h := n.toNat_lt
  omega

theorem known_cidrFields (c : Cidr) : Known [1, 2] (cidrFields c) :=
  (known_messageField ip (by decide) c.ip).append
    (known_varintField (by decide) (toNat_lt_two_pow c.prefixLen))

theorem mergeCidr_fields (c : Cidr) (hvalid : ∀ f ∈ cidrFields c, f.Valid) :
    (cidrFields c).foldlM mergeCidr { ip := none, prefixLen := 0 } = some c := by
  obtain ⟨address, length⟩ := c
  have hip := foldlM_messageField mergeCidr 1 ip (fun a => { ip := a, prefixLen := 0 })
    (fun _ => rfl) fun f hf => hvalid f (List.mem_append_left _ hf)
  have hlength := foldlM_varintField mergeCidr 2
    (fun n => { ip := address, prefixLen := n }) UInt32.ofNat (fun _ => rfl) length.toNat
  rw [UInt32.ofNat_toNat] at hlength
  exact (foldlM_parts hip).trans hlength

def cidr : Schema Cidr where
  empty := { ip := none, prefixLen := 0 }
  numbers := [1, 2]
  fields := cidrFields
  merge := mergeCidr
  numbers_valid := by decide
  known := known_cidrFields
  merge_fields := mergeCidr_fields

/-! ### `dns_config.proto` -/

def dnsFields (dns : DnsConfig) : List Field :=
  repeatedField ip 1 dns.servers ++ repeatedString 2 dns.searchDomains

def mergeDns (dns : DnsConfig) (f : Field) : Option DnsConfig :=
  match f.number, f.value with
  | 1, .bytes data =>
    (ip.decode data).map fun server => { dns with servers := dns.servers ++ [server] }
  | 1, _ => none
  | 2, .bytes data =>
    (ofUtf8 data).map fun domain => { dns with searchDomains := dns.searchDomains ++ [domain] }
  | 2, _ => none
  | _, _ => some dns

theorem known_dnsFields (dns : DnsConfig) : Known [1, 2] (dnsFields dns) :=
  (known_repeatedField ip (by decide) dns.servers).append
    (known_repeatedString (by decide) dns.searchDomains)

theorem mergeDns_fields (dns : DnsConfig) (hvalid : ∀ f ∈ dnsFields dns, f.Valid) :
    (dnsFields dns).foldlM mergeDns {} = some dns := by
  obtain ⟨servers, domains⟩ := dns
  have hservers := foldlM_repeatedField mergeDns 1 ip (fun servers => { servers := servers })
    (fun _ _ => rfl) (fun f hf => hvalid f (List.mem_append_left _ hf)) []
  have hdomains := foldlM_repeatedString mergeDns 2
    (fun domains => { servers := servers, searchDomains := domains }) (fun _ _ => rfl) domains []
  exact (foldlM_parts hservers).trans hdomains

def dnsConfig : Schema DnsConfig where
  empty := {}
  numbers := [1, 2]
  fields := dnsFields
  merge := mergeDns
  numbers_valid := by decide
  known := known_dnsFields
  merge_fields := mergeDns_fields

/-- The fixture of `wire_compatibility_test.rs`. -/
example : dnsConfig.encode
    { servers := [{ value := some (.v4 [1, 1, 1, 1]) }], searchDomains := ["corp.example"] } =
    [0x0a, 0x06, 0x0a, 0x04, 0x01, 0x01, 0x01, 0x01, 0x12, 0x0c, 0x63, 0x6f, 0x72, 0x70, 0x2e,
      0x65, 0x78, 0x61, 0x6d, 0x70, 0x6c, 0x65] := by
  decide +kernel

/-! ### `tun_session_config.proto` -/

/-- An `int32` is written as 64 bits with its sign. -/
def int32Varint (n : Int32) : Nat := (n.toInt % 2 ^ 64).toNat

def tunFields (config : TunSessionConfig) : List Field :=
  stringField 1 config.interfaceName ++ (varintField 2 (int32Varint config.mtu) ++
    (repeatedField cidr 3 config.addresses ++ (repeatedField cidr 4 config.peerAllowedIps ++
      (repeatedField ip 5 config.peerEndpoints ++ messageField dnsConfig 6 config.dns))))

def mergeTun (config : TunSessionConfig) (f : Field) : Option TunSessionConfig :=
  match f.number, f.value with
  | 1, .bytes data => (ofUtf8 data).map fun name => { config with interfaceName := name }
  | 1, _ => none
  | 2, .varint n => some { config with mtu := Int32.ofNat n }
  | 2, _ => none
  | 3, .bytes data =>
    (cidr.decode data).map fun c => { config with addresses := config.addresses ++ [c] }
  | 3, _ => none
  | 4, .bytes data =>
    (cidr.decode data).map fun c => { config with peerAllowedIps := config.peerAllowedIps ++ [c] }
  | 4, _ => none
  | 5, .bytes data =>
    (ip.decode data).map fun a => { config with peerEndpoints := config.peerEndpoints ++ [a] }
  | 5, _ => none
  | 6, .bytes data =>
    (dnsConfig.decodeInto (config.dns.getD dnsConfig.empty) data).map fun dns =>
      { config with dns := some dns }
  | 6, _ => none
  | _, _ => some config

def emptyTun : TunSessionConfig where
  interfaceName := ""
  mtu := 0
  addresses := []
  peerAllowedIps := []
  peerEndpoints := []
  dns := none

theorem int32Varint_lt (n : Int32) : int32Varint n < 2 ^ 64 := by
  unfold int32Varint
  omega

theorem ofNat_int32Varint (n : Int32) : Int32.ofNat (int32Varint n) = n := by
  have hlow := n.le_toInt
  have hhigh := n.toInt_lt
  have hsize : Int32.size = 4294967296 := rfl
  refine Int32.toInt_inj.mp ?_
  rw [Int32.toInt_ofNat', int32Varint, Int.bmod_def, hsize]
  omega

theorem known_tunFields (config : TunSessionConfig) :
    Known [1, 2, 3, 4, 5, 6] (tunFields config) :=
  (known_bytesField (by decide) _).append <|
    (known_varintField (by decide) (int32Varint_lt config.mtu)).append <|
    (known_repeatedField cidr (by decide) _).append <|
    (known_repeatedField cidr (by decide) _).append <|
    (known_repeatedField ip (by decide) _).append (known_messageField dnsConfig (by decide) _)

theorem mergeTun_fields (config : TunSessionConfig) (hvalid : ∀ f ∈ tunFields config, f.Valid) :
    (tunFields config).foldlM mergeTun emptyTun = some config := by
  obtain ⟨name, mtu, addresses, allowedIps, endpoints, dns⟩ := config
  -- each part finds the message with the parts before it
  have hname := foldlM_stringField mergeTun 1 (fun name => { emptyTun with interfaceName := name })
    (fun _ => rfl) name
  have hmtu := foldlM_varintField mergeTun 2
    (fun n => { emptyTun with interfaceName := name, mtu := n }) Int32.ofNat (fun _ => rfl)
    (int32Varint mtu)
  rw [ofNat_int32Varint] at hmtu
  have hrest := fun f hf => hvalid f (List.mem_append_right _ (List.mem_append_right _ hf))
  have haddresses := foldlM_repeatedField mergeTun 3 cidr
    (fun l => { emptyTun with interfaceName := name, mtu := mtu, addresses := l })
    (fun _ _ => rfl) (fun f hf => hrest f (List.mem_append_left _ hf)) []
  have hrest := fun f hf => hrest f (List.mem_append_right _ hf)
  have hallowed := foldlM_repeatedField mergeTun 4 cidr
    (fun l => { emptyTun with
      interfaceName := name, mtu := mtu, addresses := addresses, peerAllowedIps := l })
    (fun _ _ => rfl) (fun f hf => hrest f (List.mem_append_left _ hf)) []
  have hrest := fun f hf => hrest f (List.mem_append_right _ hf)
  have hendpoints := foldlM_repeatedField mergeTun 5 ip
    (fun l => { emptyTun with
      interfaceName := name, mtu := mtu, addresses := addresses, peerAllowedIps := allowedIps,
      peerEndpoints := l })
    (fun _ _ => rfl) (fun f hf => hrest f (List.mem_append_left _ hf)) []
  have hdns := foldlM_messageField mergeTun 6 dnsConfig
    (fun d => { emptyTun with
      interfaceName := name, mtu := mtu, addresses := addresses, peerAllowedIps := allowedIps,
      peerEndpoints := endpoints, dns := d })
    (fun _ => rfl) fun f hf => hrest f (List.mem_append_right _ hf)
  exact (foldlM_parts hname).trans <| (foldlM_parts hmtu).trans <|
    (foldlM_parts haddresses).trans <| (foldlM_parts hallowed).trans <|
    (foldlM_parts hendpoints).trans hdns

def tunSessionConfig : Schema TunSessionConfig where
  empty := emptyTun
  numbers := [1, 2, 3, 4, 5, 6]
  fields := tunFields
  merge := mergeTun
  numbers_valid := by decide
  known := known_tunFields
  merge_fields := mergeTun_fields

/-! ### `daemon.proto` -/

/-- A message with one field of bytes. -/
def mergePacket (data : Bytes) (f : Field) : Option Bytes :=
  match f.number, f.value with
  | 1, .bytes data => some data
  | 1, _ => none
  | _, _ => some data

theorem known_packet (data : Bytes) : Known [1] (bytesField 1 data) :=
  known_bytesField (by decide) data

theorem mergePacket_fields (data : Bytes) (_ : ∀ f ∈ bytesField 1 data, f.Valid) :
    (bytesField 1 data).foldlM mergePacket [] = some data :=
  foldlM_bytesField mergePacket 1 (fun data => data) (fun _ => rfl) data

def packet : Schema Bytes where
  empty := []
  numbers := [1]
  fields := bytesField 1
  merge := mergePacket
  numbers_valid := by decide
  known := known_packet
  merge_fields := mergePacket_fields

def mergeStarted (name : String) (f : Field) : Option String :=
  match f.number, f.value with
  | 1, .bytes data => ofUtf8 data
  | 1, _ => none
  | _, _ => some name

theorem known_started (name : String) : Known [1] (stringField 1 name) :=
  known_bytesField (by decide) (utf8 name)

theorem mergeStarted_fields (name : String) (_ : ∀ f ∈ stringField 1 name, f.Valid) :
    (stringField 1 name).foldlM mergeStarted "" = some name :=
  foldlM_stringField mergeStarted 1 (fun name => name) (fun _ => Option.map_id'.symm) name

def sessionStarted : Schema String where
  empty := ""
  numbers := [1]
  fields := stringField 1
  merge := mergeStarted
  numbers_valid := by decide
  known := known_started
  merge_fields := mergeStarted_fields

/-- `SessionError`, with the code as its text. -/
structure SessionError where
  code : String
  message : String
  deriving DecidableEq, Repr

def errorFields (error : SessionError) : List Field :=
  stringField 1 error.code ++ stringField 2 error.message

def mergeError (error : SessionError) (f : Field) : Option SessionError :=
  match f.number, f.value with
  | 1, .bytes data => (ofUtf8 data).map fun code => { error with code := code }
  | 1, _ => none
  | 2, .bytes data => (ofUtf8 data).map fun message => { error with message := message }
  | 2, _ => none
  | _, _ => some error

theorem known_errorFields (error : SessionError) : Known [1, 2] (errorFields error) :=
  (known_bytesField (by decide) _).append (known_bytesField (by decide) _)

theorem mergeError_fields (error : SessionError) (_ : ∀ f ∈ errorFields error, f.Valid) :
    (errorFields error).foldlM mergeError { code := "", message := "" } = some error := by
  obtain ⟨code, message⟩ := error
  have hcode := foldlM_stringField mergeError 1 (fun code => { code := code, message := "" })
    (fun _ => rfl) code
  have hmessage := foldlM_stringField mergeError 2
    (fun message => { code := code, message := message }) (fun _ => rfl) message
  exact (foldlM_parts hcode).trans hmessage

def sessionError : Schema SessionError where
  empty := { code := "", message := "" }
  numbers := [1, 2]
  fields := errorFields
  merge := mergeError
  numbers_valid := by decide
  known := known_errorFields
  merge_fields := mergeError_fields

def readyFields (ready : DaemonReady) : List Field :=
  varintField 1 ready.protocolVersion.toNat ++ varintField 2 ready.pid.toNat

def mergeReady (ready : DaemonReady) (f : Field) : Option DaemonReady :=
  match f.number, f.value with
  | 1, .varint n => some { ready with protocolVersion := UInt32.ofNat n }
  | 1, _ => none
  | 2, .varint n => some { ready with pid := UInt32.ofNat n }
  | 2, _ => none
  | _, _ => some ready

theorem known_readyFields (ready : DaemonReady) : Known [1, 2] (readyFields ready) :=
  (known_varintField (by decide) (toNat_lt_two_pow _)).append
    (known_varintField (by decide) (toNat_lt_two_pow _))

theorem mergeReady_fields (ready : DaemonReady) (_ : ∀ f ∈ readyFields ready, f.Valid) :
    (readyFields ready).foldlM mergeReady { protocolVersion := 0, pid := 0 } = some ready := by
  obtain ⟨version, pid⟩ := ready
  have hversion := foldlM_varintField mergeReady 1 (fun n => { protocolVersion := n, pid := 0 })
    UInt32.ofNat (fun _ => rfl) version.toNat
  have hpid := foldlM_varintField mergeReady 2 (fun n => { protocolVersion := version, pid := n })
    UInt32.ofNat (fun _ => rfl) pid.toNat
  rw [UInt32.ofNat_toNat] at hversion hpid
  exact (foldlM_parts hversion).trans hpid

def daemonReady : Schema DaemonReady where
  empty := { protocolVersion := 0, pid := 0 }
  numbers := [1, 2]
  fields := readyFields
  merge := mergeReady
  numbers_valid := by decide
  known := known_readyFields
  merge_fields := mergeReady_fields

/-! ### The two directions -/

def clientFields (m : ClientMessage) : List Field :=
  match m.payload with
  | none => []
  | some (.config config) => [{ number := 1, value := .bytes (tunSessionConfig.encode config) }]
  | some (.outgoingPacket data) => [{ number := 2, value := .bytes (packet.encode data) }]
  | some (.shutdown flag) => [{ number := 4, value := .varint flag.toNat }]

/-- A message of the variant that is there already is merged, another one replaces it. -/
def mergeClient (m : ClientMessage) (f : Field) : Option ClientMessage :=
  match f.number, f.value with
  | 1, .bytes data =>
    let current := match m.payload with
      | some (.config config) => config
      | _ => tunSessionConfig.empty
    (tunSessionConfig.decodeInto current data).map fun config =>
      { payload := some (.config config) }
  | 1, _ => none
  | 2, .bytes data =>
    let current := match m.payload with
      | some (.outgoingPacket data) => data
      | _ => packet.empty
    (packet.decodeInto current data).map fun data => { payload := some (.outgoingPacket data) }
  | 2, _ => none
  | 4, .varint n => some { payload := some (.shutdown (n != 0)) }
  | 4, _ => none
  | _, _ => some m

theorem known_clientFields (m : ClientMessage) : Known [1, 2, 4] (clientFields m) := by
  unfold clientFields
  split
  · exact known_nil _
  · exact known_singleton (by decide) trivial
  · exact known_singleton (by decide) trivial
  next flag _ =>
    refine known_singleton (by decide) ?_
    show flag.toNat < 2 ^ 64
    cases flag <;> decide

theorem mergeClient_fields (m : ClientMessage) (hvalid : ∀ f ∈ clientFields m, f.Valid) :
    (clientFields m).foldlM mergeClient { payload := none } = some m := by
  obtain ⟨payload⟩ := m
  cases payload with
  | none => rfl
  | some payload =>
      cases payload with
      | config config =>
          exact foldlM_singleton mergeClient 1 tunSessionConfig
            (fun a => { payload := some (.config a) }) (fun _ => rfl)
            (hvalid _ List.mem_cons_self)
      | outgoingPacket data =>
          exact foldlM_singleton mergeClient 2 packet
            (fun a => { payload := some (.outgoingPacket a) }) (fun _ => rfl)
            (hvalid _ List.mem_cons_self)
      | shutdown flag => cases flag <;> rfl

def clientMessage : Schema ClientMessage where
  empty := { payload := none }
  numbers := [1, 2, 4]
  fields := clientFields
  merge := mergeClient
  numbers_valid := by decide
  known := known_clientFields
  merge_fields := mergeClient_fields

inductive ServerPayload
  | started (interfaceName : String)
  | incomingPacket (data : Bytes)
  | error (error : SessionError)
  | ready (ready : DaemonReady)
  deriving DecidableEq, Repr

structure ServerMessage where
  payload : Option ServerPayload
  deriving DecidableEq, Repr

def serverFields (m : ServerMessage) : List Field :=
  match m.payload with
  | none => []
  | some (.started name) => [{ number := 1, value := .bytes (sessionStarted.encode name) }]
  | some (.incomingPacket data) => [{ number := 2, value := .bytes (packet.encode data) }]
  | some (.error error) => [{ number := 3, value := .bytes (sessionError.encode error) }]
  | some (.ready ready) => [{ number := 4, value := .bytes (daemonReady.encode ready) }]

def mergeServer (m : ServerMessage) (f : Field) : Option ServerMessage :=
  match f.number, f.value with
  | 1, .bytes data =>
    let current := match m.payload with
      | some (.started name) => name
      | _ => sessionStarted.empty
    (sessionStarted.decodeInto current data).map fun name => { payload := some (.started name) }
  | 1, _ => none
  | 2, .bytes data =>
    let current := match m.payload with
      | some (.incomingPacket data) => data
      | _ => packet.empty
    (packet.decodeInto current data).map fun data => { payload := some (.incomingPacket data) }
  | 2, _ => none
  | 3, .bytes data =>
    let current := match m.payload with
      | some (.error error) => error
      | _ => sessionError.empty
    (sessionError.decodeInto current data).map fun error => { payload := some (.error error) }
  | 3, _ => none
  | 4, .bytes data =>
    let current := match m.payload with
      | some (.ready ready) => ready
      | _ => daemonReady.empty
    (daemonReady.decodeInto current data).map fun ready => { payload := some (.ready ready) }
  | 4, _ => none
  | _, _ => some m

theorem known_serverFields (m : ServerMessage) : Known [1, 2, 3, 4] (serverFields m) := by
  unfold serverFields
  split
  · exact known_nil _
  all_goals exact known_singleton (by decide) trivial

theorem mergeServer_fields (m : ServerMessage) (hvalid : ∀ f ∈ serverFields m, f.Valid) :
    (serverFields m).foldlM mergeServer { payload := none } = some m := by
  obtain ⟨payload⟩ := m
  cases payload with
  | none => rfl
  | some payload =>
      cases payload with
      | started name =>
          exact foldlM_singleton mergeServer 1 sessionStarted
            (fun a => { payload := some (.started a) }) (fun _ => rfl)
            (hvalid _ List.mem_cons_self)
      | incomingPacket data =>
          exact foldlM_singleton mergeServer 2 packet
            (fun a => { payload := some (.incomingPacket a) }) (fun _ => rfl)
            (hvalid _ List.mem_cons_self)
      | error error =>
          exact foldlM_singleton mergeServer 3 sessionError
            (fun a => { payload := some (.error a) }) (fun _ => rfl)
            (hvalid _ List.mem_cons_self)
      | ready ready =>
          exact foldlM_singleton mergeServer 4 daemonReady
            (fun a => { payload := some (.ready a) }) (fun _ => rfl)
            (hvalid _ List.mem_cons_self)

def serverMessage : Schema ServerMessage where
  empty := { payload := none }
  numbers := [1, 2, 3, 4]
  fields := serverFields
  merge := mergeServer
  numbers_valid := by decide
  known := known_serverFields
  merge_fields := mergeServer_fields

end Wire
end WgKotlin
