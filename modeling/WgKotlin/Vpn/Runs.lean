import WgKotlin.Vpn.Managers
import WgKotlin.Library.Run

/-!
# The runs of a VPN

One `Vpn` over all its calls of `open` and `stop`, with the loops that these calls
have launched.  The thread of the caller, and each loop, move one step at a time in
any order.  The pipes live as long as the `Vpn`; the sessions, the sockets and the
bridge carry the run that has made them, and packets carry the runs in which what
they are derived from was received.  Runs are numbered by the calls of `open` that
have come past their `stop()`.
-/

namespace WgKotlin

open Proto Library Crypto

/-- A value with the runs in which what it is derived from was received. -/
structure Tagged (α : Type) where
  value : α
  runs : List Nat
  deriving DecidableEq

/-- What `stop()` closes. -/
inductive Part
  | interface
  | sockets
  | sessions
  deriving DecidableEq, Repr

/-- The order in which `stop()` closes. -/
def stopOrder : List Part := [.interface, .sockets, .sessions]

inductive LoopKind
  | cleartext
  | encrypted
  | periodic
  | receiveIpv4
  | receiveIpv6
  | send
  | bridgeReader
  | bridgeWriter
  deriving DecidableEq, Repr

/-- Where a loop stands: before the next receive or delay, with what it has received, with
what it has yet to put on the pipes, or in its `onFailure`. -/
inductive LoopPhase
  | waiting
  | packet (held : Tagged Bytes)
  | datagram (held : Tagged UdpDatagram)
  | putting (network : List (Tagged UdpDatagram)) (tun : List (Tagged Bytes))
  | calling (parts : List Part)
  | ended
  deriving DecidableEq

structure Loop where
  kind : LoopKind
  run : Nat
  phase : LoopPhase
  deriving DecidableEq

def Loop.launch (run : Nat) (kind : LoopKind) : Loop :=
  { kind := kind, run := run, phase := .waiting }

/-- What the thread of the caller does next. -/
inductive Caller
  | idle
  | closing (callback : Option Nat) (parts : List Part) (next : Option ParsedVpnConfiguration)
  | reconciling (config : ParsedVpnConfiguration)
  | launching
  | binding
  | opening
  | storing
  deriving DecidableEq

/-- Something was closed: by the callback of a run or by the caller, and of which run. -/
structure Close where
  callback : Option Nat
  part : Part
  owner : Nat
  deriving DecidableEq, Repr

structure Runs where
  run : Nat
  caller : Caller
  world : World
  /-- The run of the sessions. -/
  sessionsRun : Nat
  /-- The runs in which what the sessions have been given was received. -/
  learned : List Nat
  scope : Option Nat
  sockets : Option Nat
  bridge : Option Nat
  closedBridges : List Nat
  loops : List Loop
  /-- From the bridge to the cleartext loop, and back. -/
  tunIn : List (Tagged Bytes)
  tunOut : List (Tagged Bytes)
  /-- From the sockets to the encrypted loop, and back. -/
  networkIn : List (Tagged UdpDatagram)
  networkOut : List (Tagged UdpDatagram)
  /-- What the send loop of a run has transmitted, and its bridge written. -/
  transmitted : List (Nat × Tagged UdpDatagram)
  written : List (Nat × Tagged Bytes)
  closes : List Close

namespace Runs

def start : Runs where
  run := 0
  caller := .idle
  world := World.init
  sessionsRun := 0
  learned := []
  scope := none
  sockets := none
  bridge := none
  closedBridges := []
  loops := []
  tunIn := []
  tunOut := []
  networkIn := []
  networkOut := []
  transmitted := []
  written := []
  closes := []

/-- `DuplexChannelPipe.DEFAULT_CAPACITY` -/
def defaultCapacity : Nat := 64

/-! ### Closing -/

def closeWorld (w : World) : World :=
  { (CryptoManager.closeSessions (fun _ => .ok ()) w.sessionEntriesByPeer.values w).1 with
    guarded := CryptoManager.noSessions }

/-- One of the three `stop()` of the managers. -/
def close (callback : Option Nat) (part : Part) (s : Runs) : Runs :=
  match part with
  | .interface =>
    match s.bridge with
    | none => s
    | some owner =>
      { s with
        bridge := none
        closedBridges := owner :: s.closedBridges
        closes := ⟨callback, part, owner⟩ :: s.closes }
  | .sockets =>
    match s.sockets with
    | none => s
    | some owner => { s with sockets := none, closes := ⟨callback, part, owner⟩ :: s.closes }
  | .sessions =>
    let nothing := s.scope.isNone && s.world.sessionEntriesByPeer.entries.isEmpty
    { s with
      scope := none
      world := closeWorld s.world
      learned := []
      closes := if nothing then s.closes else ⟨callback, part, s.sessionsRun⟩ :: s.closes }

/-! ### The caller -/

inductive CallerLabel
  | openVpn (config : ParsedVpnConfiguration)
  | stop
  | close
  | reconcile (factory : String → FactoryReply)
  | launch
  | bind (ipv4 ipv6 : Bool)
  | openSession (accepted : Bool)
  | store

def afterClose (callback : Option Nat) (next : Option ParsedVpnConfiguration) :
    List Part → Caller
  | [] =>
    match next with
    | none => .idle
    | some config => .reconciling config
  | part :: parts => .closing callback (part :: parts) next

/-- A session map that could not be made ends the call. -/
def afterReconcile (outcome : Option (Except Throwable Unit)) : Caller :=
  match outcome with
  | some (.error _) => .idle
  | _ => .launching

def cryptoLoops : List LoopKind := [.cleartext, .encrypted, .periodic]

def socketLoops (ipv4 ipv6 : Bool) : List LoopKind :=
  (if ipv4 then [.receiveIpv4] else []) ++ (if ipv6 then [.receiveIpv6] else []) ++ [.send]

def bridgeLoops : List LoopKind := [.bridgeReader, .bridgeWriter]

def launchAll (kinds : List LoopKind) (s : Runs) : Runs :=
  { s with loops := s.loops ++ kinds.map (Loop.launch s.run) }

def clearStats (w : World) : World :=
  { w with guarded := { w.guarded with peerStatsByPublicKey := LinkedMap.empty } }

/-- One step of the caller. -/
def stepCaller (s : Runs) (label : CallerLabel) : Option Runs :=
  match label, s.caller with
  | .openVpn config, .idle => some { s with caller := .closing none stopOrder (some config) }
  | .stop, .idle => some { s with caller := .closing none stopOrder none }
  | .close, .closing callback (part :: parts) next =>
    some { s.close callback part with caller := afterClose callback next parts }
  | .reconcile factory, .reconciling config =>
    let world := reconcileSessions factory config s.world
    some
      { s with
        run := s.run + 1
        sessionsRun := s.run + 1
        world := world
        caller := afterReconcile world.outcome }
  | .launch, .launching =>
    some
      { s.launchAll cryptoLoops with
        scope := some s.run
        world := clearStats s.world
        caller := .binding }
  | .bind ipv4 ipv6, .binding =>
    -- `SocketManagerImpl.start` begins with its own `stop()`.
    let s := s.close none .sockets
    if ipv4 || ipv6 then
      some { s.launchAll (socketLoops ipv4 ipv6) with sockets := some s.run, caller := .opening }
    else some { s with caller := .idle }
  | .openSession accepted, .opening =>
    -- So does `JvmInterfaceManager.start`.
    let s := s.close none .interface
    if accepted then some { s.launchAll bridgeLoops with caller := .storing }
    -- It calls `onFailure` itself, on the thread of the caller.
    else some { s with caller := .closing (some s.run) stopOrder none }
  | .store, .storing => some { s with bridge := some s.run, caller := .idle }
  | _, _ => none

/-! ### The loops -/

inductive Action
  /-- `receive()` on a pipe. -/
  | take
  | receiveDatagram (datagram : UdpDatagram)
  | readPacket (packet : Bytes)
  /-- An iteration under `reconcileMutex`, with what the sessions answer. -/
  | work (replies : Nat → Reply)
  | transmit
  | write
  /-- `send(item)` on a pipe. -/
  | put
  | cancel
  | throw
  | close

/-- The scope of the loop has been cancelled. -/
def cancelled (s : Runs) (l : Loop) : Bool :=
  match l.kind with
  | .cleartext | .encrypted | .periodic => decide (s.scope ≠ some l.run)
  | .receiveIpv4 | .receiveIpv6 | .send => decide (s.sockets ≠ some l.run)
  | .bridgeReader | .bridgeWriter => decide (l.run ∈ s.closedBridges)

/-- The loop is in the `try` block of its body. -/
def inBody : LoopPhase → Bool
  | .waiting | .packet _ | .datagram _ | .putting _ _ => true
  | .calling _ | .ended => false

def takes (s : Runs) : LoopKind → Option (LoopPhase × Runs)
  | .cleartext =>
    match s.tunIn with
    | [] => none
    | held :: rest => some (.packet held, { s with tunIn := rest })
  | .encrypted =>
    match s.networkIn with
    | [] => none
    | held :: rest => some (.datagram held, { s with networkIn := rest })
  | .send =>
    match s.networkOut with
    | [] => none
    | held :: rest => some (.datagram held, { s with networkOut := rest })
  | .bridgeWriter =>
    match s.tunOut with
    | [] => none
    | held :: rest => some (.packet held, { s with tunOut := rest })
  | .periodic | .receiveIpv4 | .receiveIpv6 | .bridgeReader => none

/-- The iteration that a loop is about to do, and the runs of what it has received. -/
def workOn (replies : Nat → Reply) : LoopKind → LoopPhase → Option (LoopLabel × List Nat)
  | .cleartext, .packet held => some (.cleartext held.value (replies 0), held.runs)
  | .encrypted, .datagram held => some (.encrypted held.value replies, held.runs)
  | .periodic, .waiting => some (.periodic replies, [])
  | _, _ => none

/-- What is left to put, or the next iteration. -/
def resume : List (Tagged UdpDatagram) → List (Tagged Bytes) → LoopPhase
  | [], [] => .waiting
  | network, tun => .putting network tun

/-- The sessions have worked on something of these runs. -/
def worked (s : Runs) (label : LoopLabel) (runs : List Nat) : Runs :=
  { s with
    world := loopStep s.world label
    learned :=
      if (label.iteration s.world.guarded).1.called.isEmpty then s.learned else s.learned ++ runs }

/-- `for (d in pendingNetwork) …; for (p in pendingTun) …` is left to do, or `onFailure`. -/
def afterWork (s : Runs) (label : LoopLabel) (runs : List Nat) : LoopPhase :=
  match label.iteration s.world.guarded with
  | (_, .error _) => .calling stopOrder
  | (it, .ok ()) =>
    resume (it.pendingNetwork.map fun datagram => ⟨datagram, runs ++ s.learned⟩)
      (it.pendingTun.map fun packet => ⟨packet, runs ++ s.learned⟩)

/-- The next `send` of a loop, if there is room in its pipe. -/
def puts (s : Runs) : LoopKind → List (Tagged UdpDatagram) → List (Tagged Bytes) →
    Option (LoopPhase × Runs)
  | .cleartext, item :: network, tun | .encrypted, item :: network, tun
  | .periodic, item :: network, tun =>
    if s.networkOut.length < defaultCapacity then
      some (resume network tun, { s with networkOut := s.networkOut ++ [item] })
    else none
  | .cleartext, [], item :: tun | .encrypted, [], item :: tun | .periodic, [], item :: tun =>
    if s.tunOut.length < defaultCapacity then
      some (resume [] tun, { s with tunOut := s.tunOut ++ [item] })
    else none
  | .receiveIpv4, item :: network, tun | .receiveIpv6, item :: network, tun =>
    if s.networkIn.length < defaultCapacity then
      some (resume network tun, { s with networkIn := s.networkIn ++ [item] })
    else none
  | .bridgeReader, network, item :: tun =>
    if s.tunIn.length < defaultCapacity then
      some (resume network tun, { s with tunIn := s.tunIn ++ [item] })
    else none
  | _, _, _ => none

/-- The `catch` of a loop.  A bridge calls back only if it is the first to close itself, and
the interface manager closes the bridge it holds before it calls `onFailure`. -/
def fails (s : Runs) (l : Loop) : LoopPhase × Runs :=
  match l.kind with
  | .bridgeReader | .bridgeWriter =>
    if l.run ∈ s.closedBridges then (.ended, s)
    else
      (.calling (.interface :: stopOrder), { s with closedBridges := l.run :: s.closedBridges })
  | _ => (.calling stopOrder, s)

def afterCall : List Part → LoopPhase
  | [] => .ended
  | part :: parts => .calling (part :: parts)

/-- One step of a loop: where it stands then, and what else changes. -/
def stepLoop (s : Runs) (l : Loop) (action : Action) : Option (LoopPhase × Runs) :=
  match action, l.kind, l.phase with
  | .take, kind, .waiting => s.takes kind
  | .receiveDatagram datagram, .receiveIpv4, .waiting
  | .receiveDatagram datagram, .receiveIpv6, .waiting =>
    if s.sockets = some l.run then some (.putting [⟨datagram, [l.run]⟩] [], s) else none
  | .readPacket packet, .bridgeReader, .waiting =>
    if l.run ∈ s.closedBridges then none else some (.putting [] [⟨packet, [l.run]⟩], s)
  | .work replies, kind, phase =>
    match workOn replies kind phase with
    | none => none
    | some (label, runs) => some (s.afterWork label runs, s.worked label runs)
  | .transmit, .send, .datagram held =>
    if s.sockets = some l.run then
      some (.waiting, { s with transmitted := (l.run, held) :: s.transmitted })
    else none
  | .write, .bridgeWriter, .packet held =>
    if l.run ∈ s.closedBridges then none
    else some (.waiting, { s with written := (l.run, held) :: s.written })
  | .put, kind, .putting network tun => s.puts kind network tun
  | .cancel, _, phase => if s.cancelled l && inBody phase then some (.ended, s) else none
  | .throw, .receiveIpv4, .waiting | .throw, .receiveIpv6, .waiting
  | .throw, .send, .datagram _ | .throw, .bridgeReader, .waiting
  | .throw, .bridgeWriter, .packet _ => some (s.fails l)
  | .close, _, .calling (part :: parts) => some (afterCall parts, s.close (some l.run) part)
  | _, _, _ => none

/-! ### The system -/

inductive Label
  | caller (label : CallerLabel)
  | loop (index : Nat) (action : Action)

def setPhase (index : Nat) (l : Loop) (phase : LoopPhase) (s : Runs) : Runs :=
  { s with loops := s.loops.set index { l with phase := phase } }

def step (s : Runs) : Label → Option Runs
  | .caller label => s.stepCaller label
  | .loop index action =>
    match s.loops[index]? with
    | none => none
    | some l =>
      match s.stepLoop l action with
      | none => none
      | some (phase, s') => some (s'.setPhase index l phase)

end Runs
end WgKotlin
