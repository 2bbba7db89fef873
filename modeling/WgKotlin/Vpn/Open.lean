import WgKotlin.Vpn.Managers

/-!
# Opening and stopping a VPN

`Vpn.open` and `Vpn.stop`, with an environment that decides what the libraries and
the daemon do at each call.  `open` validates, parses and stops what runs, and then
starts the sessions, the loops, the sockets and the interface one after the other.
-/

namespace WgKotlin

open Proto Kotlin Library Crypto

structure Vpn where
  interfaceName : String
  crypto : CryptoManager
  socket : SocketManager
  iface : InterfaceManager
  currentParsedConfiguration : Option ParsedVpnConfiguration
  originalConfiguration : Option VpnConfiguration

/-- What may throw during a `stop`: the selector as it is closed, and each session. -/
structure Closing where
  selector : Except Throwable Unit
  session : Nat → Except Throwable Unit

/-- What `open` meets.  `closing` is for its own `stop()`, `cleanup` for the `stop()` of
the callback that it hands to the interface manager. -/
structure Environment where
  getByName : String → Except Throwable Bytes
  closing : Closing
  factory : String → FactoryReply
  launch : Except Throwable Unit
  udp : Udp
  openSession : Except Throwable Unit
  cleanup : Closing

inductive OpenStep
  | validate
  | parse
  | stop
  | reconcileSessions
  | cryptoStart
  | socketStart
  | interfaceStart
  deriving DecidableEq, Repr

/-- Where `open` has failed, and what it throws. -/
structure OpenError where
  step : OpenStep
  throwable : Throwable
  deriving DecidableEq, Repr

def defaultPort : Int32 := 51820

/-- `throwable.message`.  The index of an access out of bounds is not modelled. -/
def Throwable.message : Throwable → Option String
  | .illegalArgument message => some message
  | .illegalState message => some message
  | .indexOutOfBounds => none
  | .unknownHost host => some host
  | .noSuchElement message => some message

/-- What `operation` makes of a throwable. -/
def operationFailed (name : String) (throwable : Throwable) : Throwable :=
  .illegalState ("Operation `" ++ name ++ "` failed: " ++ throwable.message.getD "unknown")

namespace Vpn

def isRunning (vpn : Vpn) : Bool := vpn.iface.isRunning && vpn.crypto.hasActiveSessions

/-- The error of the first operation that fails. -/
def firstError (socketStop cryptoStop : Except Throwable Unit) : Except Throwable Unit :=
  match socketStop with
  | .error throwable => .error (operationFailed "socketStop" throwable)
  | .ok () => cryptoStop.mapError (operationFailed "stop")

/-- `stop`.  The interface manager swallows what its bridge throws. -/
def stop (closing : Closing) (vpn : Vpn) : Vpn × Except Throwable Unit :=
  let socketStop := vpn.socket.stop closing.selector
  let cryptoStop := vpn.crypto.stop closing.session
  ({ vpn with
      iface := .stopped
      socket := socketStop.1
      crypto := cryptoStop.1
      currentParsedConfiguration := none
      originalConfiguration := none },
    firstError socketStop.2 cryptoStop.2)

/-- `requireValidConfiguration` and the comparison of the names. -/
def checkConfiguration (vpn : Vpn) (configuration : VpnConfiguration) : Except Throwable Unit := do
  requireValidConfiguration configuration
  require (configuration.interfaceName == vpn.interfaceName)
    ("Configuration interface name `" ++ configuration.interfaceName ++
      "` does not match this Vpn's interface name `" ++ vpn.interfaceName ++ "`")

/-- `interfaceManager.start(parsed.toTunSessionConfig()) { stop() }`.  What the callback
throws is added to the error as a suppressed one. -/
def startInterface (env : Environment) (parsed : ParsedVpnConfiguration) (vpn : Vpn) :
    Vpn × Except OpenError Unit :=
  match toTunSessionConfig parsed with
  | .error throwable => (vpn, .error ⟨.interfaceStart, operationFailed "start" throwable⟩)
  | .ok config =>
    let vpn := { vpn with iface := .stopped }
    match env.openSession with
    | .error throwable =>
      ((vpn.stop env.cleanup).1, .error ⟨.interfaceStart, operationFailed "start" throwable⟩)
    | .ok () =>
      ({ vpn with iface := { activeBridge := true, currentConfig := some config } }, .ok ())

def startSockets (env : Environment) (configuration : VpnConfiguration)
    (parsed : ParsedVpnConfiguration) (vpn : Vpn) : Vpn × Except OpenError Unit :=
  let started :=
    vpn.socket.start env.udp (configuration.listenPort.getD defaultPort) env.closing.selector
  let vpn := { vpn with socket := started.1 }
  match started.2 with
  | .error throwable => (vpn, .error ⟨.socketStart, operationFailed "socketStart" throwable⟩)
  | .ok () => startInterface env parsed vpn

def startCrypto (env : Environment) (configuration : VpnConfiguration)
    (parsed : ParsedVpnConfiguration) (vpn : Vpn) : Vpn × Except OpenError Unit :=
  let started := vpn.crypto.start env.launch
  let vpn := { vpn with crypto := started.1 }
  match started.2 with
  | .error throwable => (vpn, .error ⟨.cryptoStart, operationFailed "start" throwable⟩)
  | .ok () => startSockets env configuration parsed vpn

/-- `open` after its `stop()`. -/
def startRun (env : Environment) (configuration : VpnConfiguration)
    (parsed : ParsedVpnConfiguration) (vpn : Vpn) : Vpn × Except OpenError Unit :=
  let world := reconcileSessions env.factory parsed vpn.crypto.world
  let vpn :=
    { vpn with
      currentParsedConfiguration := some parsed
      originalConfiguration := some configuration
      crypto := { vpn.crypto with world := world } }
  match world.outcome with
  | some (.error throwable) =>
    (vpn, .error ⟨.reconcileSessions, operationFailed "reconcileSessions" throwable⟩)
  | _ => startCrypto env configuration parsed vpn

/-- `open` -/
def openVpn (env : Environment) (vpn : Vpn) (configuration : VpnConfiguration) :
    Vpn × Except OpenError Unit :=
  match vpn.checkConfiguration configuration with
  | .error throwable => (vpn, .error ⟨.validate, throwable⟩)
  | .ok () =>
    match toParsedVpnConfiguration env.getByName configuration with
    | .error throwable => (vpn, .error ⟨.parse, throwable⟩)
    | .ok parsed =>
      let stopped := vpn.stop env.closing
      match stopped.2 with
      | .error throwable => (stopped.1, .error ⟨.stop, throwable⟩)
      | .ok () => startRun env configuration parsed stopped.1

/-! ### An example -/

/-- A VPN that has not been opened. -/
def fresh (interfaceName : String) : Vpn where
  interfaceName := interfaceName
  crypto := { world := World.init, scope := false }
  socket := .stopped
  iface := .stopped
  currentParsedConfiguration := none
  originalConfiguration := none

/-- Everything works, with two sockets on the port that is asked for. -/
def exampleEnvironment : Environment where
  getByName := exampleGetByName
  closing := { selector := .ok (), session := fun _ => .ok () }
  factory := fun _ => .returned true
  launch := .ok ()
  udp := { bindIpv6 := fun port => .ok ⟨port⟩, bindIpv4 := fun port => .ok ⟨port⟩ }
  openSession := .ok ()
  cleanup := { selector := .ok (), session := fun _ => .ok () }

def examplePeer : VpnPeer where
  endpointPort := some 51820
  endpointAddress := some "1.1.1.1"
  publicKey := "b"
  allowedIps := ["10.0.0.0/8"]

def exampleConfiguration : VpnConfiguration where
  interfaceName := "utun0"
  addresses := ["10.0.0.0/24"]
  privateKey := "k"
  peers := [examplePeer]

end Vpn
end WgKotlin
