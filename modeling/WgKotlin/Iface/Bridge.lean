import WgKotlin.Daemon.SessionProtocol
import WgKotlin.Kotlin

/-!
# The client of one session

`DaemonSessionBridge.openSession` with its two coroutines, on a connection of the
daemon.  Both sides see complete frames, in the order in which they were written.
What either side makes of a lost connection is chosen by the environment.
-/

namespace WgKotlin
namespace Iface

open Daemon Library Proto

/-! ### The bridge -/

/-- What `openSession` and its coroutines throw. -/
inductive BridgeError
  /-- "Missing daemon readiness message" -/
  | missingReady
  /-- "Incompatible daemon readiness message" -/
  | incompatibleReady
  /-- "Missing started interface name" -/
  | missingName
  /-- "Daemon session failed (code): message" -/
  | sessionFailed (error : SessionError)
  /-- "Daemon did not accept the session" -/
  | notAccepted
  /-- "Unexpected daemon session message" -/
  | unexpectedMessage
  /-- "Invalid outgoing packet length" -/
  | invalidLength
  /-- The connection or the pipe has failed. -/
  | transport (message : String)
  deriving DecidableEq, Repr

/-- `IpcProtocol.VERSION` -/
def version : UInt32 := 2

/-- `IpcProtocol.awaitReady`, on the message that it reads. -/
def awaitReady (expectedPid : Int) (message : ServerMessage) : Except BridgeError Unit :=
  match message.payload with
  | some (.ready ready) =>
    if ready.protocolVersion = version ∧ (ready.pid.toNat : Int) = expectedPid then .ok ()
    else .error .incompatibleReady
  | _ => .error .missingReady

/-- The answer to the configuration. -/
def acceptReply (message : ServerMessage) : Except BridgeError Unit :=
  match message.payload with
  | some (.started interfaceName) =>
    if Kotlin.isBlank interfaceName then .error .missingName else .ok ()
  | some (.error error) => .error (.sessionFailed error)
  | _ => .error .notAccepted

/-- A message in the loop of the reader: the packet for the pipe. -/
def acceptMessage (message : ServerMessage) : Except BridgeError Bytes :=
  match message.payload with
  | some (.incomingPacket data) => .ok data
  | some (.error error) => .error (.sessionFailed error)
  | _ => .error .unexpectedMessage

inductive OpenPhase
  | awaitingReady
  | configuring
  | awaitingReply
  /-- `openSession` has launched the coroutines. -/
  | opened
  | failed (error : BridgeError)
  deriving DecidableEq, Repr

inductive ReaderRoutine
  | waiting
  | reading
  /-- In `pipe.send`. -/
  | sending (data : Bytes)
  | ended (error : Option BridgeError)
  deriving DecidableEq, Repr

inductive WriterRoutine
  | waiting
  /-- In `pipe.receive`. -/
  | receiving
  | writing (data : Bytes)
  | ended (error : Option BridgeError)
  deriving DecidableEq, Repr

structure Bridge where
  phase : OpenPhase
  reader : ReaderRoutine
  writer : WriterRoutine
  closed : Bool
  /-- The calls of `onFailure`. -/
  failures : List BridgeError
  /-- All packets that were taken from the pipe. -/
  taken : List Bytes
  /-- All packets that were put on the pipe. -/
  put : List Bytes
  deriving DecidableEq, Repr

namespace Bridge

def start : Bridge where
  phase := .awaitingReady
  reader := .waiting
  writer := .waiting
  closed := false
  failures := []
  taken := []
  put := []

/-- `fail(error)`: only the first to close the session calls back. -/
def fail (b : Bridge) (error : BridgeError) : Bridge :=
  if b.closed then b else { b with closed := true, failures := b.failures ++ [error] }

def endReader (b : Bridge) (error : BridgeError) : Bridge :=
  { b.fail error with reader := .ended (some error) }

def endWriter (b : Bridge) (error : BridgeError) : Bridge :=
  { b.fail error with writer := .ended (some error) }

theorem fail_eq (b : Bridge) (error : BridgeError) :
    ∃ closed failures, b.fail error = { b with closed := closed, failures := failures } := by
  unfold fail
  split
  · exact ⟨b.closed, b.failures, rfl⟩
  · exact ⟨true, b.failures ++ [error], rfl⟩

/-- Apart from the failure only the reader changes. -/
theorem endReader_eq (b : Bridge) (error : BridgeError) :
    ∃ closed failures, b.endReader error =
      { b with closed := closed, failures := failures, reader := .ended (some error) } := by
  obtain ⟨closed, failures, hfail⟩ := b.fail_eq error
  exact ⟨closed, failures, by rw [endReader, hfail]⟩

theorem endWriter_eq (b : Bridge) (error : BridgeError) :
    ∃ closed failures, b.endWriter error =
      { b with closed := closed, failures := failures, writer := .ended (some error) } := by
  obtain ⟨closed, failures, hfail⟩ := b.fail_eq error
  exact ⟨closed, failures, by rw [endWriter, hfail]⟩

end Bridge

/-! ### The session -/

structure Session where
  daemon : Conversation
  bridge : Bridge

inductive BridgeLabel
  | ready
  | config
  | reply
  /-- A read or a write of `openSession` fails. -/
  | abandon (message : String)
  | read
  /-- `pipe.send` returns. -/
  | put
  /-- `pipe.receive` returns. -/
  | take (data : Bytes)
  | write
  | readFails (message : String)
  | writeFails (message : String)
  /-- The scope is cancelled. -/
  | cancelReader
  | cancelWriter
  | close
  deriving DecidableEq

inductive SessionLabel
  | daemon (label : ConversationLabel)
  | bridge (label : BridgeLabel)
  deriving DecidableEq

namespace Session

def start : Session := { daemon := .start, bridge := .start }

/-- The bridge writes a message. -/
def arrive (s : Session) (payload : ClientPayload) (bridge : Bridge) : Session :=
  { daemon := { s.daemon with inbound := s.daemon.inbound.send { payload := some payload } },
    bridge := bridge }

/-- The bridge reads a message and goes on with it. -/
def depart (s : Session) (next : ServerMessage → Bridge) : Option Session :=
  match s.daemon.outbound.receive with
  | none => none
  | some (message, outbound) =>
    some { daemon := { s.daemon with outbound := outbound }, bridge := next message }

def stepBridge (config : TunSessionConfig) (expectedPid : Int) (s : Session) :
    BridgeLabel → Option Session
  | .ready =>
    if s.bridge.phase = .awaitingReady then
      s.depart fun message =>
        match awaitReady expectedPid message with
        | .ok () => { s.bridge with phase := .configuring }
        | .error e => { s.bridge with phase := .failed e }
    else none
  | .config =>
    if s.bridge.phase = .configuring then
      some (s.arrive (.config config) { s.bridge with phase := .awaitingReply })
    else none
  | .reply =>
    if s.bridge.phase = .awaitingReply then
      s.depart fun message =>
        match acceptReply message with
        | .ok () => { s.bridge with phase := .opened, reader := .reading, writer := .receiving }
        | .error e => { s.bridge with phase := .failed e }
    else none
  | .abandon message =>
    match s.bridge.phase with
    | .awaitingReady | .configuring | .awaitingReply =>
      some { s with bridge := { s.bridge with phase := .failed (.transport message) } }
    | _ => none
  | .read =>
    if s.bridge.reader = .reading then
      s.depart fun message =>
        match acceptMessage message with
        | .ok data => { s.bridge with reader := .sending data }
        | .error e => s.bridge.endReader e
    else none
  | .put =>
    match s.bridge.reader with
    | .sending data =>
      some { s with bridge := { s.bridge with put := s.bridge.put ++ [data], reader := .reading } }
    | _ => none
  | .take data =>
    if s.bridge.writer = .receiving then
      let bridge := { s.bridge with taken := s.bridge.taken ++ [data] }
      if 1 ≤ data.length ∧ data.length ≤ 65535 then
        some { s with bridge := { bridge with writer := .writing data } }
      else some { s with bridge := bridge.endWriter .invalidLength }
    else none
  | .write =>
    match s.bridge.writer with
    | .writing data =>
      some (s.arrive (.outgoingPacket data) { s.bridge with writer := .receiving })
    | _ => none
  | .readFails message =>
    match s.bridge.reader with
    | .reading | .sending _ => some { s with bridge := s.bridge.endReader (.transport message) }
    | _ => none
  | .writeFails message =>
    match s.bridge.writer with
    | .receiving | .writing _ => some { s with bridge := s.bridge.endWriter (.transport message) }
    | _ => none
  | .cancelReader =>
    match s.bridge.closed, s.bridge.reader with
    | true, .reading | true, .sending _ =>
      some { s with bridge := { s.bridge with reader := .ended none } }
    | _, _ => none
  | .cancelWriter =>
    match s.bridge.closed, s.bridge.writer with
    | true, .receiving | true, .writing _ =>
      some { s with bridge := { s.bridge with writer := .ended none } }
    | _, _ => none
  | .close =>
    if s.bridge.phase = .opened then some { s with bridge := { s.bridge with closed := true } }
    else none

def step (macos : Bool) (pid : UInt32) (config : TunSessionConfig) (expectedPid : Int)
    (s : Session) : SessionLabel → Option Session
  | .bridge label => s.stepBridge config expectedPid label
  -- The bridge is the only client of the connection.
  | .daemon (.arrive _) | .daemon .depart => none
  | .daemon label =>
    match s.daemon.step macos pid label with
    | none => none
    | some daemon => some { s with daemon := daemon }

end Session

/-! ### What a step of the bridge can do -/

/-- The bridge after it has read a message. -/
inductive Receives (b : Bridge) (message : ServerMessage) : Bridge → Prop
  | ready {expectedPid : Int} (h : b.phase = .awaitingReady)
      (hready : awaitReady expectedPid message = .ok ()) :
      Receives b message { b with phase := .configuring }
  | notReady {expectedPid : Int} {e : BridgeError} (h : b.phase = .awaitingReady)
      (hready : awaitReady expectedPid message = .error e) :
      Receives b message { b with phase := .failed e }
  | opened (h : b.phase = .awaitingReply) (hreply : acceptReply message = .ok ()) :
      Receives b message { b with phase := .opened, reader := .reading, writer := .receiving }
  | refused {e : BridgeError} (h : b.phase = .awaitingReply)
      (hreply : acceptReply message = .error e) :
      Receives b message { b with phase := .failed e }
  | packet {data : Bytes} (h : b.reader = .reading) (hdata : acceptMessage message = .ok data) :
      Receives b message { b with reader := .sending data }
  | failed {e : BridgeError} (h : b.reader = .reading) (he : acceptMessage message = .error e) :
      Receives b message (b.endReader e)

/-- The bridge after it has written a message. -/
inductive Writes (config : TunSessionConfig) (b : Bridge) : ClientPayload → Bridge → Prop
  | config (h : b.phase = .configuring) :
      Writes config b (.config config) { b with phase := .awaitingReply }
  | packet {data : Bytes} (h : b.writer = .writing data) :
      Writes config b (.outgoingPacket data) { b with writer := .receiving }

/-- The bridge after a step that leaves the connection alone. -/
inductive Rests (b : Bridge) : Bridge → Prop
  | abandon (message : String) (h : b.phase ≠ .opened ∧ ∀ e, b.phase ≠ .failed e) :
      Rests b { b with phase := .failed (.transport message) }
  | put {data : Bytes} (h : b.reader = .sending data) :
      Rests b { b with put := b.put ++ [data], reader := .reading }
  | take {data : Bytes} (h : b.writer = .receiving)
      (hdata : 1 ≤ data.length ∧ data.length ≤ 65535) :
      Rests b { b with taken := b.taken ++ [data], writer := .writing data }
  | takeInvalid (data : Bytes) (h : b.writer = .receiving) :
      Rests b ({ b with taken := b.taken ++ [data] }.endWriter .invalidLength)
  | readFails (message : String) (h : b.reader ≠ .waiting) :
      Rests b (b.endReader (.transport message))
  | writeFails (message : String) (h : b.writer ≠ .waiting) :
      Rests b (b.endWriter (.transport message))
  | cancelReader (h : b.reader ≠ .waiting) : Rests b { b with reader := .ended none }
  | cancelWriter (h : b.writer ≠ .waiting) : Rests b { b with writer := .ended none }
  | close : Rests b { b with closed := true }

namespace Session

inductive Talks (config : TunSessionConfig) (s : Session) : Session → Prop
  | read {message : ServerMessage} {outbound : Channel ServerMessage} {bridge : Bridge}
      (hm : s.daemon.outbound.receive = some (message, outbound))
      (h : Receives s.bridge message bridge) :
      Talks config s { daemon := { s.daemon with outbound := outbound }, bridge := bridge }
  | write {payload : ClientPayload} {bridge : Bridge} (h : Writes config s.bridge payload bridge) :
      Talks config s (s.arrive payload bridge)
  | rest {bridge : Bridge} (h : Rests s.bridge bridge) : Talks config s { s with bridge := bridge }

theorem depart_eq_some {s s' : Session} {next : ServerMessage → Bridge}
    (h : s.depart next = some s') :
    ∃ message outbound, s.daemon.outbound.receive = some (message, outbound) ∧
      s' = { daemon := { s.daemon with outbound := outbound }, bridge := next message } := by
  unfold depart at h
  split at h
  · cases h
  next message outbound hm =>
    cases h
    exact ⟨message, outbound, hm, rfl⟩

theorem stepBridge_talks {config : TunSessionConfig} {expectedPid : Int} {s s' : Session}
    {label : BridgeLabel} (h : s.stepBridge config expectedPid label = some s') :
    Talks config s s' := by
  cases label with
  | ready =>
      obtain ⟨hphase, h⟩ := Option.ite_none_right_eq_some.mp h
      obtain ⟨message, outbound, hm, rfl⟩ := depart_eq_some h
      refine .read hm ?_
      split
      next hready => exact .ready hphase hready
      next e hready => exact .notReady hphase hready
  | config =>
      obtain ⟨hphase, h⟩ := Option.ite_none_right_eq_some.mp h
      cases h
      exact .write (.config hphase)
  | reply =>
      obtain ⟨hphase, h⟩ := Option.ite_none_right_eq_some.mp h
      obtain ⟨message, outbound, hm, rfl⟩ := depart_eq_some h
      refine .read hm ?_
      split
      next hreply => exact .opened hphase hreply
      next e hreply => exact .refused hphase hreply
  | abandon message =>
      simp only [stepBridge] at h
      split at h
      next hphase =>
        cases h
        exact .rest (.abandon message (by simp [hphase]))
      next hphase =>
        cases h
        exact .rest (.abandon message (by simp [hphase]))
      next hphase =>
        cases h
        exact .rest (.abandon message (by simp [hphase]))
      · cases h
  | read =>
      obtain ⟨hreader, h⟩ := Option.ite_none_right_eq_some.mp h
      obtain ⟨message, outbound, hm, rfl⟩ := depart_eq_some h
      refine .read hm ?_
      split
      next data hdata => exact .packet hreader hdata
      next e he => exact .failed hreader he
  | put =>
      simp only [stepBridge] at h
      split at h
      next data hreader =>
        cases h
        exact .rest (.put hreader)
      · cases h
  | take data =>
      obtain ⟨hwriter, h⟩ := Option.ite_none_right_eq_some.mp h
      simp only at h
      split at h
      next hdata =>
        cases h
        exact .rest (.take hwriter hdata)
      · cases h
        exact .rest (.takeInvalid data hwriter)
  | write =>
      simp only [stepBridge] at h
      split at h
      next data hwriter =>
        cases h
        exact .write (.packet hwriter)
      · cases h
  | readFails message =>
      simp only [stepBridge] at h
      split at h
      next hreader =>
        cases h
        exact .rest (.readFails message (by simp [hreader]))
      next hreader =>
        cases h
        exact .rest (.readFails message (by simp [hreader]))
      · cases h
  | writeFails message =>
      simp only [stepBridge] at h
      split at h
      next hwriter =>
        cases h
        exact .rest (.writeFails message (by simp [hwriter]))
      next hwriter =>
        cases h
        exact .rest (.writeFails message (by simp [hwriter]))
      · cases h
  | cancelReader =>
      simp only [stepBridge] at h
      split at h
      next hreader =>
        cases h
        exact .rest (.cancelReader (by simp [hreader]))
      next hreader =>
        cases h
        exact .rest (.cancelReader (by simp [hreader]))
      · cases h
  | cancelWriter =>
      simp only [stepBridge] at h
      split at h
      next hwriter =>
        cases h
        exact .rest (.cancelWriter (by simp [hwriter]))
      next hwriter =>
        cases h
        exact .rest (.cancelWriter (by simp [hwriter]))
      · cases h
  | close =>
      obtain ⟨_, h⟩ := Option.ite_none_right_eq_some.mp h
      cases h
      exact .rest .close

/-- A session is opened. -/
def openingLabels : List SessionLabel :=
  [.daemon (.serve .greet), .bridge .ready, .bridge .config,
    .daemon (.serve (.first .message)), .daemon (.serve .call), .daemon (.serve .receive),
    .daemon (.serve (.lock ∅)), .daemon (.task .begin), .daemon (.task (.started (.ok "utun7"))),
    .daemon (.task .announce), .daemon (.serve .next), .daemon (.serve .wrote), .bridge .reply]

/-- A packet crosses in each direction, and then the TUN fails. -/
def servedLabels : List SessionLabel :=
  openingLabels ++
    [.bridge (.take [69, 1]), .bridge .write, .daemon (.serve (.read .message)),
    .daemon (.serve .forward), .daemon (.task (.wake (.incoming (.ok ())))),
    .daemon (.reader (.tun (.packet [69, 2]))), .daemon (.reader .respond),
    .daemon (.serve .next), .daemon (.serve .wrote), .bridge .read, .bridge .put,
    .daemon (.reader (.tun (.failed "device is gone"))), .daemon (.reader .respond),
    .daemon (.serve .next), .daemon (.serve .wrote), .bridge .read]

end Session

end Iface
end WgKotlin
