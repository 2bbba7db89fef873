import WgKotlin.Daemon.Server
import WgKotlin.Library.Channel

/-!
# One connection of the daemon

`serve_connection` with the session that it opens: the two halves of the
connection, the task of the session, and the worker that reads the TUN.  They
share two bounded channels.  The client is not part of this system: it may send
any message, and a read may end in any way.
-/

namespace WgKotlin
namespace Daemon

open Proto Library

/-! ### What the daemon sends -/

structure DaemonReady where
  protocolVersion : UInt32
  pid : UInt32
  deriving DecidableEq, Repr

/-- `SessionError`.  The text that tonic has for a code is left to it. -/
structure SessionError where
  code : Code
  message : String
  deriving DecidableEq, Repr

inductive ServerPayload
  | ready (ready : DaemonReady)
  | started (interfaceName : String)
  | incomingPacket (data : Bytes)
  | error (error : SessionError)
  deriving DecidableEq, Repr

structure ServerMessage where
  payload : Option ServerPayload
  deriving DecidableEq, Repr

def protocolVersion : UInt32 := 2

def readyMessage (pid : UInt32) : ServerMessage where
  payload := some (.ready { protocolVersion := protocolVersion, pid := pid })

def startedMessage (interfaceName : String) : ServerMessage where
  payload := some (.started interfaceName)

def packetMessage (data : Bytes) : ServerMessage where
  payload := some (.incomingPacket data)

def errorMessage (status : Status) : ServerMessage where
  payload := some (.error { code := status.code, message := status.message })

/-- What is written for an item of the responses. -/
def frameOf : Except Status ServerMessage → ServerMessage
  | .ok message => message
  | .error status => errorMessage status

/-- The test that both directions of the session make. -/
def CarriesPacket (data : Bytes) : Prop := ¬ (maxPacketFrameSize < data.length ∨ data = [])

instance (data : Bytes) : Decidable (CarriesPacket data) := inferInstanceAs (Decidable (¬ _))

/-! ### The parties -/

def packetChannelCapacity : Nat := 64

inductive ReadHalf
  /-- The stream has not been split. -/
  | waiting
  | reading
  /-- Awaiting `tx.send(item)`. -/
  | sending (item : Except Status ClientMessage)
  | ended
  deriving DecidableEq

/-- `serve_connection` until it splits the stream, and then its write half. -/
inductive WriteHalf
  | greeting
  /-- Reading the first frame. -/
  | first
  /-- About to call `session`. -/
  | calling
  /-- In `session`, after it has looked at the shutdown flag. -/
  | receiving
  /-- Waiting for the lock on `active_sessions`. -/
  | locking (config : TunSessionConfig)
  /-- `session` has returned an error, which is being written. -/
  | rejected (status : Status)
  | responding
  | writing (message : ServerMessage)
  | ended
  deriving DecidableEq

/-- The worker that reads the TUN. -/
inductive ReaderThread
  | idle
  /-- In `read_packet`. -/
  | reading
  /-- In `send_response`, and the error that it will end with. -/
  | sending (message : ServerMessage) (error : Option String)
  /-- Out of its loop. -/
  | finishing (error : Option String)
  | ended
  deriving DecidableEq

structure Conversation where
  /-- The flag that is sent to all tasks. -/
  shutdown : Bool
  read : ReadHalf
  write : WriteHalf
  /-- The complete frames of the client. -/
  inbound : Channel ClientMessage
  /-- The complete frames of the daemon. -/
  outbound : Channel ServerMessage
  /-- From the read half to the session. -/
  incoming : Channel (Except Status ClientMessage)
  /-- From the session to the write half. -/
  responses : Channel (Except Status ServerMessage)
  task : Option SessionTask
  reader : ReaderThread
  /-- `stop_read_tx` has been used. -/
  stopRead : Bool
  /-- What the task has still to hand to `try_send`. -/
  toReport : List (Except Status ServerMessage)
  /-- All that `read_packet` has returned. -/
  tunReads : List Bytes
  /-- All that `write_packet` has written. -/
  tunWrites : List Bytes

/-! ### What the environment decides -/

/-- What comes of `read_frame`. -/
inductive FrameRead
  | message
  | closed
  | invalid
  deriving DecidableEq, Repr

inductive ServeLabel
  | greet
  | first (result : FrameRead)
  | read (result : FrameRead)
  /-- The read half comes out of `tx.send`. -/
  | forward
  | call
  | receive
  /-- The lock is taken, with these names in `active_sessions`. -/
  | lock (active : Finset String)
  | reject
  | next
  | wrote
  /-- The connection ends: a half has failed or both have ended. -/
  | leave
  deriving DecidableEq

/-- The branches of the session loop behind the shutdown. -/
inductive Wake
  | responsesClosed
  | readDone
  /-- With what the TUN returns if a packet is written. -/
  | incoming (written : Except String Unit)
  deriving DecidableEq

inductive TaskLabel
  | begin
  | started (result : Except String String)
  | announce
  | wake (wake : Wake)
  | closed (hook : Except String Unit)
  | join
  | report
  | release
  deriving DecidableEq

/-- What comes of `read_packet`. -/
inductive TunRead
  | packet (data : Bytes)
  | interrupted
  | failed (error : String)
  deriving DecidableEq, Repr

inductive ReaderLabel
  | tun (result : TunRead)
  /-- The worker comes out of `send_response`. -/
  | respond
  | done
  deriving DecidableEq

inductive ConversationLabel
  /-- The daemon is stopped. -/
  | stop
  /-- The client has written a frame. -/
  | arrive (message : ClientMessage)
  /-- The client has read a frame. -/
  | depart
  | serve (label : ServeLabel)
  | task (label : TaskLabel)
  | reader (label : ReaderLabel)
  deriving DecidableEq

namespace Conversation

def start : Conversation where
  shutdown := false
  read := .waiting
  write := .greeting
  inbound := .empty
  outbound := .empty
  incoming := .empty
  responses := .empty
  task := none
  reader := .idle
  stopRead := false
  toReport := []
  tunReads := []
  tunWrites := []

/-- The write half holds the receiver of the responses. -/
def responsesOpen (s : Conversation) : Bool :=
  match s.write with
  | .responding | .writing _ => true
  | _ => false

/-- `session`, or the task that it has spawned, holds the receiver of the messages. -/
def incomingOpen (s : Conversation) : Bool :=
  match s.task with
  | some task => !task.phase.isFinished
  | none =>
    match s.write with
    | .calling | .receiving | .locking _ => true
    | _ => false

/-- The read half has dropped its sender. -/
def readEnded (s : Conversation) : Bool :=
  match s.read with
  | .ended => true
  | _ => false

/-- All senders of responses have been dropped. -/
def responded (s : Conversation) : Bool :=
  match s.task with
  | some task => task.phase.isFinished && s.toReport.isEmpty
  | none => false

def hasRoom {α : Type} (c : Channel α) : Bool := c.queue.length < packetChannelCapacity

/-- Both halves are dropped. -/
def halted (s : Conversation) : Conversation := { s with read := .ended, write := .ended }

/-! ### The connection -/

def invalidFrame : Status := { code := .invalidArgument, message := "invalid IPC frame" }

def reject (s : Conversation) (status : Status) : Conversation :=
  { s with write := .rejected status }

def readFirst (s : Conversation) : FrameRead → Option Conversation
  -- The first of these two is a probe for readiness.
  | .closed | .invalid => some s.halted
  | .message =>
    match s.inbound.receive with
    | none => none
    | some (message, inbound) =>
      match message.payload with
      | some (.shutdown true) => some { s.halted with inbound := inbound, shutdown := true }
      | _ =>
        some { s with
          inbound := inbound
          incoming := s.incoming.send (.ok message)
          read := .reading
          write := .calling }

def readNext (s : Conversation) : FrameRead → Option Conversation
  | .closed => some { s with read := .ended }
  | .invalid => some { s with read := .sending (.error invalidFrame) }
  | .message =>
    match s.inbound.receive with
    | none => none
    | some (message, inbound) => some { s with inbound := inbound, read := .sending (.ok message) }

/-- `tx.send(item).await` of the read half, and what it does then. -/
def forward (s : Conversation) (item : Except Status ClientMessage) : Option Conversation :=
  if s.incomingOpen then
    if hasRoom s.incoming then
      match item with
      | .ok _ => some { s with incoming := s.incoming.send item, read := .reading }
      | .error _ => some { s.halted with incoming := s.incoming.send item }
    else none
  else
    match item with
    | .ok _ => some { s with read := .ended }
    | .error _ => some s.halted

/-- The first message of `session`. -/
def receiveFirst (macos : Bool) (s : Conversation) : Option Conversation :=
  match s.incoming.receive with
  | none =>
    if s.readEnded then
      some (s.reject {
        code := .invalidArgument
        message := "first session message must contain config" })
    else none
  | some (.error status, incoming) => some ({ s with incoming := incoming }.reject status)
  | some (.ok message, incoming) =>
    match checkFirst macos message with
    | .error status => some ({ s with incoming := incoming }.reject status)
    | .ok config => some { s with incoming := incoming, write := .locking config }

def lockSessions (s : Conversation) (config : TunSessionConfig) (active : Finset String) :
    Conversation :=
  match reserve active config.interfaceName with
  | .error status => s.reject status
  | .ok _ => { s with task := some (SessionTask.spawn config.interfaceName), write := .responding }

/-- `responses.recv().await` -/
def nextResponse (s : Conversation) : Option Conversation :=
  match s.responses.receive with
  | some (item, responses) =>
    some { s with responses := responses, write := .writing (frameOf item) }
  | none => if s.responded then some { s with write := .ended } else none

def stepServe (macos : Bool) (pid : UInt32) (s : Conversation) (label : ServeLabel) :
    Option Conversation :=
  match label, s.write, s.read with
  -- Each select is biased: the shutdown comes first.
  | .greet, .greeting, _ =>
    if s.shutdown then some s.halted
    else some { s with outbound := s.outbound.send (readyMessage pid), write := .first }
  | .first result, .first, _ => if s.shutdown then some s.halted else s.readFirst result
  | .read result, _, .reading =>
    if s.shutdown then some { s with read := .ended } else s.readNext result
  | .forward, _, .sending item => s.forward item
  | .call, .calling, _ =>
    if s.shutdown then
      some (s.reject { code := .unavailable, message := "daemon is shutting down" })
    else some { s with write := .receiving }
  | .receive, .receiving, _ => s.receiveFirst macos
  | .lock active, .locking config, _ => some (s.lockSessions config active)
  | .reject, .rejected status, _ =>
    if s.shutdown then some { s with write := .ended }
    else some { s with outbound := s.outbound.send (errorMessage status), write := .ended }
  | .next, .responding, _ =>
    if s.shutdown then some { s with write := .ended } else s.nextResponse
  | .wrote, .writing message, _ =>
    if s.shutdown then some { s with write := .ended }
    else some { s with outbound := s.outbound.send message, write := .responding }
  | .leave, _, _ => some s.halted
  | _, _, _ => none

/-! ### The task of the session -/

/-- A step of the task itself. -/
def advance (s : Conversation) (event : SessionEvent) : Option Conversation :=
  match s.task with
  | none => none
  | some task =>
    match task.step s.shutdown event with
    | none => none
    | some (task', _) => some { s with task := some task' }

/-- The packet that the session loop hands to the TUN for an item. -/
def outgoing : Except Status ClientMessage → Option Bytes
  | .ok { payload := some (.outgoingPacket data) } => if CarriesPacket data then some data else none
  | _ => none

/-- What is written to the TUN for an item. -/
def writtenOf (item : Except Status ClientMessage) : Except String Unit → List Bytes
  | .ok () => (outgoing item).toList
  | .error _ => []

/-- `tx.send(Started).await`: without a receiver it fails, and that is ignored. -/
def announce (s : Conversation) : Option Conversation :=
  match s.task with
  | some { phase := .announcing tun, .. } =>
    if s.responsesOpen then
      if hasRoom s.responses then
        { s with
          responses := s.responses.send (.ok (startedMessage tun.interfaceName))
          reader := .reading }.advance .announced
      else none
    else { s with reader := .reading }.advance .announced
  | _ => none

/-- `stop_read_tx` is used as soon as the loop has ended. -/
def afterTurn (s : Conversation) : Conversation :=
  match s.task with
  | some { phase := .closing .., .. } => { s with stopRead := true }
  | _ => s

/-- A turn of the session loop with the next message.  A packet is written within the turn. -/
def takeIncoming (s : Conversation) (written : Except String Unit) : Option Conversation :=
  match s.incoming.receive with
  | some (item, incoming) =>
    { s with incoming := incoming, tunWrites := s.tunWrites ++ writtenOf item written }.advance
      (.turn (.incoming (item.map some) written))
  | none => if s.readEnded then s.advance (.turn (.incoming (.ok none) written)) else none

/-- A turn of the session loop.  Its branches are looked at in order. -/
def turn (s : Conversation) (wake : Wake) : Option Conversation :=
  -- With the shutdown no other branch is looked at.
  if s.shutdown then s.advance (.turn .responsesClosed)
  else
    match wake with
    | .responsesClosed => if s.responsesOpen then none else s.advance (.turn .responsesClosed)
    | .readDone => if s.responsesOpen then s.advance (.turn .readDone) else none
    | .incoming written =>
      if s.responsesOpen ∧ s.reader ≠ .ended then s.takeIncoming written else none

/-- The task has joined the worker and turns to what went wrong. -/
def joinReader (s : Conversation) : Option Conversation :=
  match s.task with
  | none => none
  | some task =>
    { s with toReport := task.reports.map fun status => .ok (errorMessage status) }.advance
      .readerJoined

/-- One `tx.try_send`: a full or closed channel is ignored. -/
def report (s : Conversation) : Option Conversation :=
  match s.toReport with
  | [] => none
  | item :: rest =>
    if s.responsesOpen && hasRoom s.responses then
      some { s with responses := s.responses.send item, toReport := rest }
    else some { s with toReport := rest }

/-- The end of the task.  After a failed start the report comes after the removal. -/
def release (s : Conversation) : Option Conversation :=
  match s.task with
  | none => none
  | some task =>
    if s.toReport = [] then
      match task.phase with
      | .startFailed => { s with toReport := task.reports.map .error }.advance .release
      | _ => s.advance .release
    else none

def stepTask (s : Conversation) : TaskLabel → Option Conversation
  | .begin => s.advance (.begin (!s.responsesOpen))
  | .started result => s.advance (.started result)
  | .announce => s.announce
  | .wake wake => (s.turn wake).map afterTurn
  | .closed hook => s.advance (.closed hook)
  | .join => s.joinReader
  | .report => s.report
  | .release => s.release

/-! ### The worker -/

def readTun (s : Conversation) : TunRead → Conversation
  | .packet data =>
    if CarriesPacket data then
      { s with tunReads := s.tunReads ++ [data], reader := .sending (packetMessage data) none }
    else { s with tunReads := s.tunReads ++ [data] }
  | .interrupted => { s with reader := .finishing none }
  | .failed e =>
    let readError := "failed reading TUN packet: " ++ e
    { s with
      reader := .sending (errorMessage { code := .internal, message := readError })
        (some readError) }

/-- Where the worker goes after `send_response`. -/
def afterResponse (sent : Bool) : Option String → ReaderThread
  | some e => .finishing (some e)
  | none => if sent then .reading else .finishing none

/-- `send_response`: the signal to stop comes first. -/
def sendResponse (s : Conversation) (message : ServerMessage) (error : Option String) :
    Option Conversation :=
  if s.stopRead || !s.responsesOpen then some { s with reader := afterResponse false error }
  else if hasRoom s.responses then
    some { s with
      responses := s.responses.send (.ok message)
      reader := afterResponse true error }
  else none

def stepReader (s : Conversation) (label : ReaderLabel) : Option Conversation :=
  match label, s.reader with
  | .tun result, .reading => some (s.readTun result)
  | .respond, .sending message error => s.sendResponse message error
  | .done, .finishing error => { s with reader := .ended }.advance (.readerEnded error)
  | _, _ => none

def step (macos : Bool) (pid : UInt32) (s : Conversation) : ConversationLabel → Option Conversation
  | .stop => some { s with shutdown := true }
  | .arrive message => some { s with inbound := s.inbound.send message }
  | .depart =>
    match s.outbound.receive with
    | none => none
    | some (_, outbound) => some { s with outbound := outbound }
  | .serve label => s.stepServe macos pid label
  | .task label => s.stepTask label
  | .reader label => s.stepReader label

end Conversation

end Daemon
end WgKotlin
