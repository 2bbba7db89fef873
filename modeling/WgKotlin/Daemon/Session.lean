import WgKotlin.Daemon.Validation

/-!
# The task of a session

`DaemonService::session` spawns one task for each name that it has reserved.  The
task starts the TUN, runs the session loop, closes the TUN, joins its reader and
removes the reservation.  Its steps here lie between the points where it awaits
something; what it awaits is chosen by the environment.
-/

namespace WgKotlin
namespace Daemon

open Proto

/-! ### Messages -/

inductive ClientPayload
  | config (config : TunSessionConfig)
  | outgoingPacket (data : Bytes)
  | shutdown (flag : Bool)
  deriving DecidableEq

structure ClientMessage where
  payload : Option ClientPayload
  deriving DecidableEq

inductive Code
  | invalidArgument
  | failedPrecondition
  | resourceExhausted
  | unavailable
  | internal
  deriving DecidableEq, Repr

/-- `tonic::Status` -/
structure Status where
  code : Code
  message : String
  deriving DecidableEq, Repr

/-! ### The TUN -/

/-- `TunSession`.  The cleanup hook is there until it is taken. -/
structure TunSession where
  interfaceName : String
  closed : Bool
  cleanupHook : Bool
  deriving DecidableEq, Repr

namespace TunSession

/-- What `SessionManager::start` returns for a device of this name. -/
def start (interfaceName : String) : TunSession :=
  { interfaceName := interfaceName, closed := false, cleanupHook := true }

/-- `close()`, where the hook would return `hook`; the last part tells whether it ran. -/
def close (tun : TunSession) (hook : Except String Unit) : Except String Unit × TunSession × Bool :=
  if tun.closed then (.ok (), tun, false)
  else
    let tun' := { tun with closed := true, cleanupHook := false }
    if tun.cleanupHook then (hook, tun', true) else (.ok (), tun', false)

theorem interfaceName_close (tun : TunSession) (hook : Except String Unit) :
    (tun.close hook).2.1.interfaceName = tun.interfaceName := by
  unfold close
  split
  · rfl
  · simp only
    split
    · rfl
    · rfl

/-- The first call closes the TUN and runs the hook. -/
theorem close_of_open {tun : TunSession} (hclosed : tun.closed = false)
    (hhook : tun.cleanupHook = true) (hook : Except String Unit) :
    tun.close hook = (hook, { tun with closed := true, cleanupHook := false }, true) := by
  simp [close, hclosed, hhook]

end TunSession

/-- The blocking worker that reads the TUN, and the error it ended with. -/
inductive Reader
  | running
  | ended (error : Option String)
  deriving DecidableEq, Repr

/-! ### The session loop -/

/-- What the loop of `run_session_loop` can wake up for, apart from the shutdown. -/
inductive LoopEvent
  /-- The receiver of the responses is gone. -/
  | responsesClosed
  | readDone
  /-- A message of the client, and what the TUN returns if it is written there. -/
  | incoming (message : Except Status (Option ClientMessage)) (written : Except String Unit)
  deriving DecidableEq

def maxPacketFrameSize : Nat := 65535

/-- One turn of the loop: nothing if the event cannot have happened, else whether the
loop has ended, and with which result. -/
def loopTurn (shutdown : Bool) (reader : Reader) :
    LoopEvent → Option (Option (Except Status Unit))
  | event =>
    -- The select is biased: the shutdown comes first.
    if shutdown then some (some (.ok ()))
    else
      match event, reader with
      | .responsesClosed, _ => some (some (.ok ()))
      | .readDone, .running => none
      | .readDone, .ended (some e) => some (some (.error { code := .internal, message := e }))
      | .readDone, .ended none => some (some (.ok ()))
      | .incoming (.error status) _, _ => some (some (.error status))
      | .incoming (.ok none) _, _ => some (some (.ok ()))
      | .incoming (.ok (some message)) written, _ =>
        match message.payload with
        | some (.outgoingPacket data) =>
          if maxPacketFrameSize < data.length ∨ data = [] then some none
          else
            match written with
            | .ok () => some none
            | .error e =>
              some (some (.error
                { code := .internal, message := "failed writing TUN packet: " ++ e }))
        | some (.config _) =>
          some (some (.error {
            code := .invalidArgument
            message := "config must be sent only once, at session start" }))
        | some (.shutdown _) =>
          some (some (.error {
            code := .invalidArgument
            message := "shutdown requires a separate control connection" }))
        | none => some none

/-! ### The task -/

inductive SessionPhase
  /-- Spawned by the connection that has reserved the name. -/
  | spawned
  /-- The client or the daemon has gone: about to remove the reservation. -/
  | cancelled
  /-- `SessionManager::start` is running. -/
  | starting
  | startFailed
  /-- The start is being reported to the client. -/
  | announcing (tun : TunSession)
  | looping (tun : TunSession) (reader : Reader)
  /-- `close()` is running. -/
  | closing (tun : TunSession) (reader : Reader)
  /-- The reader is being joined. -/
  | joining (tun : TunSession) (reader : Reader)
  | releasing (tun : TunSession)
  /-- The reservation has been removed. -/
  | finished (tun : Option TunSession)
  deriving DecidableEq, Repr

structure SessionTask where
  /-- `config.interface_name`, as it was reserved. -/
  name : String
  phase : SessionPhase
  /-- What the task tries to report to the client. -/
  reports : List Status
  deriving DecidableEq, Repr

inductive SessionEvent
  /-- The first poll, and whether the receiver of the responses is gone by then. -/
  | begin (responsesClosed : Bool)
  /-- `SessionManager::start` returns: the name that the device reports, or an error. -/
  | started (result : Except String String)
  | announced
  | readerEnded (error : Option String)
  | turn (event : LoopEvent)
  /-- `close()` returns, and with it the cleanup hook. -/
  | closed (hook : Except String Unit)
  | readerJoined
  /-- The lock on `active_sessions` is taken. -/
  | release
  deriving DecidableEq

/-- What a step of a task does outside the task. -/
inductive TaskEffect
  | quiet
  /-- The cleanup hook has been run. -/
  | cleanedUp
  /-- `active_sessions.remove(name)` -/
  | removes (name : String)
  deriving DecidableEq, Repr

/-- What is reported of a result. -/
def reportOf (result : Except Status Unit) : List Status :=
  match result with
  | .ok () => []
  | .error status => [status]

/-- `Status::internal` for a cleanup that failed. -/
def closeStatus (result : Except String Unit) : Except Status Unit :=
  result.mapError fun e => { code := .internal, message := "failed closing TUN session: " ++ e }

/-- One step of the task that has reserved `name`: its next phase, what it reports,
and what it does to the rest of the daemon. -/
def SessionPhase.step (name : String) (shutdown : Bool) (phase : SessionPhase)
    (event : SessionEvent) : Option (SessionPhase × List Status × TaskEffect) :=
  match phase with
  | .spawned =>
    match event with
    | .begin responsesClosed =>
      some (if responsesClosed || shutdown then .cancelled else .starting, [], .quiet)
    | _ => none
  | .starting =>
    match event with
    | .started (.error e) =>
      some (.startFailed, [{ code := .failedPrecondition, message := e }], .quiet)
    | .started (.ok device) => some (.announcing (TunSession.start device), [], .quiet)
    | _ => none
  | .announcing tun =>
    match event with
    | .announced => some (.looping tun .running, [], .quiet)
    | _ => none
  | .looping tun reader =>
    match event with
    | .readerEnded error =>
      if reader = .running then some (.looping tun (.ended error), [], .quiet) else none
    | .turn event =>
      match loopTurn shutdown reader event with
      | none => none
      | some none => some (.looping tun reader, [], .quiet)
      | some (some result) => some (.closing tun reader, reportOf result, .quiet)
    | _ => none
  | .closing tun reader =>
    match event with
    | .readerEnded error =>
      if reader = .running then some (.closing tun (.ended error), [], .quiet) else none
    | .closed hook =>
      some (.joining (tun.close hook).2.1 reader, reportOf (closeStatus (tun.close hook).1),
        if (tun.close hook).2.2 then .cleanedUp else .quiet)
    | _ => none
  | .joining tun reader =>
    match event with
    | .readerEnded error =>
      if reader = .running then some (.joining tun (.ended error), [], .quiet) else none
    | .readerJoined => if reader = .running then none else some (.releasing tun, [], .quiet)
    | _ => none
  | .cancelled | .startFailed =>
    match event with
    | .release => some (.finished none, [], .removes name)
    | _ => none
  | .releasing tun =>
    match event with
    | .release => some (.finished (some tun), [], .removes tun.interfaceName)
    | _ => none
  | .finished _ => none

namespace SessionTask

def spawn (name : String) : SessionTask := { name := name, phase := .spawned, reports := [] }

def step (shutdown : Bool) (task : SessionTask) (event : SessionEvent) :
    Option (SessionTask × TaskEffect) :=
  match task.phase.step task.name shutdown event with
  | none => none
  | some (phase, reports, effect) =>
    some ({ task with phase := phase, reports := task.reports ++ reports }, effect)

end SessionTask

/-! ### What a step can do -/

namespace SessionPhase

def isFinished : SessionPhase → Bool
  | .finished _ => true
  | _ => false

/-- The TUN of the task, once it has been started. -/
def tun : SessionPhase → Option TunSession
  | .announcing tun | .looping tun _ | .closing tun _ | .joining tun _ | .releasing tun => some tun
  | .finished tun => tun
  | .spawned | .cancelled | .starting | .startFailed => none

/-- The name that a task gives up at its end. -/
def released (name : String) (phase : SessionPhase) : String :=
  match phase.tun with
  | some tun => tun.interfaceName
  | none => name

/-- What a step of a task can do. -/
inductive Steps (name : String) (event : SessionEvent) :
    SessionPhase → SessionPhase → TaskEffect → Prop
  | cancel : Steps name event .spawned .cancelled .quiet
  | begin : Steps name event .spawned .starting .quiet
  | fail : Steps name event .starting .startFailed .quiet
  | start {device : String} (h : event = .started (.ok device)) :
      Steps name event .starting (.announcing (TunSession.start device)) .quiet
  | announce (tun : TunSession) (reader : Reader) :
      Steps name event (.announcing tun) (.looping tun reader) .quiet
  | loop (tun : TunSession) (reader reader' : Reader) :
      Steps name event (.looping tun reader) (.looping tun reader') .quiet
  | stop (tun : TunSession) (reader : Reader) :
      Steps name event (.looping tun reader) (.closing tun reader) .quiet
  | read (tun : TunSession) (reader reader' : Reader) :
      Steps name event (.closing tun reader) (.closing tun reader') .quiet
  | close (tun : TunSession) (reader : Reader) (hook : Except String Unit)
      (h : (tun.close hook).2.2 = true) :
      Steps name event (.closing tun reader) (.joining (tun.close hook).2.1 reader) .cleanedUp
  | closeAgain (tun : TunSession) (reader : Reader) (hook : Except String Unit)
      (h : (tun.close hook).2.2 = false) :
      Steps name event (.closing tun reader) (.joining (tun.close hook).2.1 reader) .quiet
  | readLast (tun : TunSession) (reader reader' : Reader) :
      Steps name event (.joining tun reader) (.joining tun reader') .quiet
  | join (tun : TunSession) (reader : Reader) :
      Steps name event (.joining tun reader) (.releasing tun) .quiet
  | drop {phase : SessionPhase} (h : phase = .cancelled ∨ phase = .startFailed) :
      Steps name event phase (.finished none) (.removes name)
  | release (tun : TunSession) :
      Steps name event (.releasing tun) (.finished (some tun)) (.removes tun.interfaceName)

theorem step_cases {name : String} {shutdown : Bool} {phase phase' : SessionPhase}
    {event : SessionEvent} {reports : List Status} {effect : TaskEffect}
    (h : phase.step name shutdown event = some (phase', reports, effect)) :
    Steps name event phase phase' effect := by
  unfold step at h
  cases phase with
  | spawned =>
      cases event with
      | begin responsesClosed =>
          simp only at h
          split at h
          · cases h
            exact .cancel
          · cases h
            exact .begin
      | _ => cases h
  | starting =>
      cases event with
      | started result =>
          cases result with
          | error e =>
              cases h
              exact .fail
          | ok device =>
              cases h
              exact .start rfl
      | _ => cases h
  | announcing tun =>
      cases event with
      | announced =>
          cases h
          exact .announce tun _
      | _ => cases h
  | looping tun reader =>
      cases event with
      | readerEnded error =>
          simp only at h
          split at h
          · cases h
            exact .loop tun reader _
          · cases h
      | turn event =>
          simp only at h
          split at h
          · cases h
          · cases h
            exact .loop tun reader reader
          · cases h
            exact .stop tun reader
      | _ => cases h
  | closing tun reader =>
      cases event with
      | readerEnded error =>
          simp only at h
          split at h
          · cases h
            exact .read tun reader _
          · cases h
      | closed hook =>
          simp only at h
          cases hran : (tun.close hook).2.2 with
          | true =>
              rw [hran] at h
              cases h
              exact .close tun reader hook hran
          | false =>
              rw [hran] at h
              cases h
              exact .closeAgain tun reader hook hran
      | _ => cases h
  | joining tun reader =>
      cases event with
      | readerEnded error =>
          simp only at h
          split at h
          · cases h
            exact .readLast tun reader _
          · cases h
      | readerJoined =>
          simp only at h
          split at h
          · cases h
          · cases h
            exact .join tun reader
      | _ => cases h
  | cancelled =>
      cases event with
      | release =>
          cases h
          exact .drop (Or.inl rfl)
      | _ => cases h
  | startFailed =>
      cases event with
      | release =>
          cases h
          exact .drop (Or.inr rfl)
      | _ => cases h
  | releasing tun =>
      cases event with
      | release =>
          cases h
          exact .release tun
      | _ => cases h
  | finished tun => cases h

/-- What the phase after a step is, from what the step does. -/
def After (name : String) (phase phase' : SessionPhase) : TaskEffect → Prop
  | .quiet | .cleanedUp => phase'.isFinished = false
  | .removes removed => phase' = .finished phase.tun ∧ removed = phase.released name

/-- A task that takes a step is not finished, and it is finished when it removes its
reservation and not before. -/
theorem Steps.after {name : String} {event : SessionEvent} {phase phase' : SessionPhase}
    {effect : TaskEffect} (h : Steps name event phase phase' effect) :
    phase.isFinished = false ∧ After name phase phase' effect := by
  cases h with
  | drop h =>
      rcases h with rfl | rfl
      · exact ⟨rfl, rfl, rfl⟩
      · exact ⟨rfl, rfl, rfl⟩
  | release tun => exact ⟨rfl, rfl, rfl⟩
  | _ => exact ⟨rfl, rfl⟩

/-- The TUN of a task keeps its name, which is the one that its device reported. -/
theorem Steps.interfaceName {name : String} {event : SessionEvent} {phase phase' : SessionPhase}
    {effect : TaskEffect} (h : Steps name event phase phase' effect) {tun' : TunSession}
    (htun : phase'.tun = some tun') :
    (∃ tun, phase.tun = some tun ∧ tun'.interfaceName = tun.interfaceName) ∨
      event = .started (.ok tun'.interfaceName) := by
  cases h with
  | cancel => cases htun
  | begin => cases htun
  | fail => cases htun
  | start h =>
      cases htun
      exact Or.inr h
  | close tun reader hook h =>
      cases htun
      exact Or.inl ⟨tun, rfl, tun.interfaceName_close hook⟩
  | closeAgain tun reader hook h =>
      cases htun
      exact Or.inl ⟨tun, rfl, tun.interfaceName_close hook⟩
  | drop h => cases htun
  | _ =>
      cases htun
      exact Or.inl ⟨_, rfl, rfl⟩

/-- A TUN that has been started stays with its task. -/
theorem Steps.tun_isSome {name : String} {event : SessionEvent} {phase phase' : SessionPhase}
    {effect : TaskEffect} (h : Steps name event phase phase' effect)
    (htun : phase.tun.isSome = true) : phase'.tun.isSome = true := by
  cases h with
  | cancel => cases htun
  | begin => cases htun
  | fail => cases htun
  | drop h =>
      rcases h with rfl | rfl
      · cases htun
      · cases htun
  | _ => rfl

/-- The TUN is open until `close`, and closed after it. -/
def Sound : SessionPhase → Prop
  | .announcing tun | .looping tun _ | .closing tun _ =>
    tun.closed = false ∧ tun.cleanupHook = true
  | .joining tun _ | .releasing tun | .finished (some tun) =>
    tun.closed = true ∧ tun.cleanupHook = false
  | .spawned | .cancelled | .starting | .startFailed | .finished none => True

/-- How often the cleanup hook has been run. -/
def cleanups : SessionPhase → Nat
  | .joining _ _ | .releasing _ | .finished (some _) => 1
  | _ => 0

theorem Steps.sound {name : String} {event : SessionEvent} {phase phase' : SessionPhase}
    {effect : TaskEffect} (h : Steps name event phase phase' effect) (hsound : phase.Sound) :
    phase'.Sound ∧
      phase'.cleanups = phase.cleanups + if effect = .cleanedUp then 1 else 0 := by
  cases h with
  | start h => exact ⟨⟨rfl, rfl⟩, rfl⟩
  | close tun reader hook h =>
      rw [TunSession.close_of_open hsound.1 hsound.2]
      exact ⟨⟨rfl, rfl⟩, rfl⟩
  | closeAgain tun reader hook h =>
      rw [TunSession.close_of_open hsound.1 hsound.2] at h
      cases h
  | drop h =>
      rcases h with rfl | rfl
      · exact ⟨trivial, rfl⟩
      · exact ⟨trivial, rfl⟩
  | _ => exact ⟨hsound, rfl⟩

end SessionPhase

/-- The phase of a task moves, and its name stays. -/
theorem SessionTask.step_cases {shutdown : Bool} {task task' : SessionTask} {event : SessionEvent}
    {effect : TaskEffect} (h : task.step shutdown event = some (task', effect)) :
    task'.name = task.name ∧ SessionPhase.Steps task.name event task.phase task'.phase effect := by
  unfold step at h
  split at h
  · cases h
  next phase reports effect' hstep =>
    cases h
    exact ⟨rfl, SessionPhase.step_cases hstep⟩

end Daemon
end WgKotlin
