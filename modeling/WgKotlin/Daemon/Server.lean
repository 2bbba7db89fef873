import WgKotlin.Daemon.Session
import WgKotlin.Library.Run
import Mathlib.Data.Finset.Card

/-!
# The daemon

Connections, session tasks and `run` of the daemon as one labelled system.  A
label names the party that moves and what it is given by the environment.  A
critical section of the lock on `active_sessions` awaits nothing, so it is part
of one step.
-/

namespace WgKotlin
namespace Daemon

open Proto Library

/-! ### Opening a session -/

def extractConfig (message : ClientMessage) : Except Status TunSessionConfig :=
  match message.payload with
  | some (.config config) => .ok config
  | some (.outgoingPacket _) | some (.shutdown _) =>
    .error {
      code := .invalidArgument
      message := "first session message must contain config" }
  | none =>
    .error { code := .invalidArgument, message := "first session message payload is missing" }

/-- The name of the device on macOS: leading zeros of the index are dropped. -/
def macosName (name : String) : String :=
  let index := trimStartMatches '0' (name.toList.drop 4)
  String.ofList ("utun".toList ++ if index.isEmpty then ['0'] else index)

/-- The first message of a session, up to the reservation. -/
def checkFirst (macos : Bool) (message : ClientMessage) : Except Status TunSessionConfig := do
  let config ← extractConfig message
  match validateConfig macos config with
  | .error e => .error { code := .invalidArgument, message := e }
  | .ok () =>
    .ok (if macos then { config with interfaceName := macosName config.interfaceName } else config)

def maxActiveSessions : Nat := 16

/-- The critical section that reserves a name. -/
def reserve (active : Finset String) (name : String) : Except Status (Finset String) :=
  if name ∈ active then
    .error { code := .failedPrecondition, message := "Session already active for " ++ name }
  else if maxActiveSessions ≤ active.card then
    .error {
      code := .resourceExhausted
      message := "Daemon session limit reached (" ++ toString maxActiveSessions ++ ")" }
  else .ok (insert name active)

/-! ### Connections -/

/-- A task of `serve_connection`. -/
inductive Connection
  /-- Writing the greeting and reading the first frame. -/
  | greeting
  /-- About to call `session`. -/
  | opening (first : ClientMessage)
  /-- In `session`, after it has looked at the shutdown flag. -/
  | receiving (first : ClientMessage)
  /-- Waiting for the lock on `active_sessions`. -/
  | locking (config : TunSessionConfig)
  /-- `session` has returned: the task it spawned, or an error. -/
  | responding (session : Except Status Nat)
  | finished
  /-- Taken out of the set of connections by `join_next`. -/
  | joined
  deriving DecidableEq

/-- The first frame of a connection. -/
inductive Greeting
  | failed
  /-- The client has closed the connection without a message. -/
  | probe
  | message (first : ClientMessage)
  deriving DecidableEq

inductive ConnectionEvent
  | greet (greeting : Greeting)
  | check
  | receive
  | lock
  /-- One of the two halves ends or fails, and with it the connection.  What it was
  awaiting is dropped. -/
  | leave
  deriving DecidableEq

/-! ### The system -/

/-- Where `run` is. -/
inductive Main
  | serving
  /-- Joining the connections. -/
  | joining
  /-- In `wait_for_sessions`. -/
  | waiting
  | stopped (drained : Bool)
  deriving DecidableEq, Repr

structure System where
  main : Main
  /-- The flag that is sent to all tasks. -/
  shutdown : Bool
  active : Finset String
  connections : List Connection
  sessions : List SessionTask
  /-- Each removal: the task, the name, and whether the name was there. -/
  removals : List (Nat × String × Bool)
  /-- The tasks whose cleanup hook has been run. -/
  cleanups : List Nat

inductive Label
  /-- A client connects; the owner of the daemon may refuse it. -/
  | accept (authorized : Bool)
  /-- A signal, the shutdown flag, the end of the owner or a failure of the listener. -/
  | stop
  | join (connection : Nat)
  | joinedAll
  /-- `wait_for_sessions` finds no session. -/
  | observe
  | timeout
  | connection (connection : Nat) (event : ConnectionEvent)
  | session (session : Nat) (event : SessionEvent)
  deriving DecidableEq

namespace System

def start : System where
  main := .serving
  shutdown := false
  active := ∅
  connections := []
  sessions := []
  removals := []
  cleanups := []

def setConnection (s : System) (c : Nat) (connection : Connection) : System :=
  { s with connections := s.connections.set c connection }

/-- The state after a step of a task. -/
def afterTask (s : System) (t : Nat) (task : SessionTask) : TaskEffect → System
  | .quiet => { s with sessions := s.sessions.set t task }
  | .cleanedUp => { s with sessions := s.sessions.set t task, cleanups := s.cleanups ++ [t] }
  | .removes name =>
    { s with
      sessions := s.sessions.set t task
      active := s.active.erase name
      removals := s.removals ++ [(t, name, decide (name ∈ s.active))] }

def stepConnection (macos : Bool) (s : System) (c : Nat) (connection : Connection)
    (event : ConnectionEvent) : Option System :=
  match connection, event with
  | .greeting, .greet greeting =>
    -- The select is biased: the shutdown comes first.
    if s.shutdown then some (s.setConnection c .finished)
    else
      match greeting with
      | .failed | .probe => some (s.setConnection c .finished)
      | .message first =>
        match first.payload with
        | some (.shutdown true) => some ({ s with shutdown := true }.setConnection c .finished)
        | _ => some (s.setConnection c (.opening first))
  | .opening first, .check =>
    if s.shutdown then
      some (s.setConnection c (.responding
        (.error { code := .unavailable, message := "daemon is shutting down" })))
    else some (s.setConnection c (.receiving first))
  | .receiving first, .receive =>
    match checkFirst macos first with
    | .error status => some (s.setConnection c (.responding (.error status)))
    | .ok config => some (s.setConnection c (.locking config))
  | .locking config, .lock =>
    match reserve s.active config.interfaceName with
    | .error status => some (s.setConnection c (.responding (.error status)))
    | .ok active =>
      some { s.setConnection c (.responding (.ok s.sessions.length)) with
        active := active
        sessions := s.sessions ++ [SessionTask.spawn config.interfaceName] }
  | .opening _, .leave | .receiving _, .leave | .locking _, .leave | .responding _, .leave =>
    some (s.setConnection c .finished)
  | _, _ => none

def step (macos : Bool) (s : System) : Label → Option System
  | .accept authorized =>
    if s.main = .serving then
      some (if authorized then { s with connections := s.connections ++ [.greeting] } else s)
    else none
  | .stop => if s.main = .serving then some { s with main := .joining, shutdown := true } else none
  | .join c =>
    if (s.main = .serving ∨ s.main = .joining) ∧ s.connections[c]? = some .finished then
      some (s.setConnection c .joined)
    else none
  | .joinedAll =>
    if s.main = .joining ∧ ∀ connection ∈ s.connections, connection = .joined then
      some { s with main := .waiting }
    else none
  | .observe =>
    if s.main = .waiting ∧ s.active = ∅ then some { s with main := .stopped true } else none
  | .timeout =>
    if s.main = .joining ∨ s.main = .waiting then some { s with main := .stopped false } else none
  | .connection c event =>
    match s.connections[c]? with
    | none => none
    | some connection => s.stepConnection macos c connection event
  | .session t event =>
    match s.sessions[t]? with
    | none => none
    | some task =>
      match task.step s.shutdown event with
      | none => none
      | some (task', effect) => some (s.afterTask t task' effect)

/-! ### What a step can do -/

/-- The sessions and what belongs to them are the same. -/
structure Quiet (s s' : System) : Prop where
  active : s'.active = s.active
  sessions : s'.sessions = s.sessions
  removals : s'.removals = s.removals
  cleanups : s'.cleanups = s.cleanups

/-- A name is reserved and a task is spawned for it. -/
structure Reserves (name : String) (s s' : System) : Prop where
  free : name ∉ s.active
  room : s.active.card < maxActiveSessions
  active : s'.active = insert name s.active
  sessions : s'.sessions = s.sessions ++ [SessionTask.spawn name]
  removals : s'.removals = s.removals
  cleanups : s'.cleanups = s.cleanups

theorem reserve_eq_ok {active active' : Finset String} {name : String}
    (h : reserve active name = .ok active') :
    name ∉ active ∧ active.card < maxActiveSessions ∧ active' = insert name active := by
  unfold reserve at h
  split at h
  · cases h
  next hfree =>
    split at h
    · cases h
    next hroom =>
      cases h
      exact ⟨hfree, by omega, rfl⟩

/-- A connection moves on, to the lock with a configuration that was checked, or it
reserves the name of that configuration. -/
inductive ConnectionStep (macos : Bool) (s : System) (c : Nat) (connection : Connection) :
    System → Prop
  | moves (next : Connection) (shutdown : Bool)
      (hchecked : ∀ config, next = .locking config → ∃ first, checkFirst macos first = .ok config) :
      ConnectionStep macos s c connection ({ s with shutdown := shutdown }.setConnection c next)
  | reserves (config : TunSessionConfig) (active : Finset String)
      (hlocking : connection = .locking config)
      (hreserve : reserve s.active config.interfaceName = .ok active) :
      ConnectionStep macos s c connection
        { s.setConnection c (.responding (.ok s.sessions.length)) with
          active := active
          sessions := s.sessions ++ [SessionTask.spawn config.interfaceName] }

theorem ConnectionStep.on {macos : Bool} {s s' : System} {c : Nat} {connection next : Connection}
    {shutdown : Bool} (hnext : ∀ config, next ≠ .locking config)
    (h : some ({ s with shutdown := shutdown }.setConnection c next) = some s') :
    ConnectionStep macos s c connection s' := by
  cases h
  exact .moves next shutdown fun config he => absurd he (hnext config)

theorem stepConnection_step {macos : Bool} {s s' : System} {c : Nat} {connection : Connection}
    {event : ConnectionEvent} (h : s.stepConnection macos c connection event = some s') :
    ConnectionStep macos s c connection s' := by
  have hfinished (config : TunSessionConfig) : Connection.finished ≠ .locking config :=
    Connection.noConfusion
  have hresponding (result : Except Status Nat) (config : TunSessionConfig) :
      Connection.responding result ≠ .locking config := Connection.noConfusion
  unfold stepConnection at h
  split at h
  · split at h
    · exact .on hfinished h
    · split at h
      · exact .on hfinished h
      · exact .on hfinished h
      · split at h
        · exact .on hfinished h
        · exact .on (fun _ => Connection.noConfusion) h
  · split at h
    · exact .on (hresponding _) h
    · exact .on (fun _ => Connection.noConfusion) h
  · split at h
    · exact .on (hresponding _) h
    next first _ _ config hcheck =>
      cases h
      exact .moves (.locking config) s.shutdown fun _ he =>
        ⟨_, Connection.locking.inj he ▸ hcheck⟩
  · split at h
    · exact .on (hresponding _) h
    next active hreserve =>
      cases h
      exact .reserves _ active rfl hreserve
  · exact .on hfinished h
  · exact .on hfinished h
  · exact .on hfinished h
  · exact .on hfinished h
  · cases h

theorem stepConnection_cases {macos : Bool} {s s' : System} {c : Nat} {connection : Connection}
    {event : ConnectionEvent} (h : s.stepConnection macos c connection event = some s') :
    s'.main = s.main ∧ (Quiet s s' ∨ ∃ name, Reserves name s s') := by
  cases stepConnection_step h with
  | moves next shutdown _ => exact ⟨rfl, Or.inl ⟨rfl, rfl, rfl, rfl⟩⟩
  | reserves config active _ hreserve =>
      obtain ⟨hfree, hroom, hactive⟩ := reserve_eq_ok hreserve
      exact ⟨rfl, Or.inr ⟨_, hfree, hroom, hactive, rfl, rfl, rfl⟩⟩

/-- A task of the list with one more at its end. -/
theorem getElem?_spawn {sessions : List SessionTask} {name : String} {t : Nat}
    {task : SessionTask} (h : (sessions ++ [SessionTask.spawn name])[t]? = some task) :
    sessions[t]? = some task ∨ t = sessions.length ∧ task = SessionTask.spawn name := by
  by_cases hlt : t < sessions.length
  · rw [List.getElem?_append_left hlt] at h
    exact Or.inl h
  · have heq : t = sessions.length := by
      have hlen := (List.getElem?_eq_some_iff.mp h).1
      rw [List.length_append, List.length_singleton] at hlen
      omega
    rw [heq, List.getElem?_concat_length, Option.some.injEq] at h
    exact Or.inr ⟨heq, h.symm⟩

/-- The steps of the system, with what each of them needs. -/
inductive Moves (macos : Bool) (s : System) : Label → System → Prop
  | accept (h : s.main = .serving) :
      Moves macos s (.accept true) { s with connections := s.connections ++ [.greeting] }
  | refuse (h : s.main = .serving) : Moves macos s (.accept false) s
  | stop (h : s.main = .serving) : Moves macos s .stop { s with main := .joining, shutdown := true }
  | join {c : Nat} (h : s.main = .serving ∨ s.main = .joining)
      (hc : s.connections[c]? = some .finished) :
      Moves macos s (.join c) (s.setConnection c .joined)
  | joinedAll (h : s.main = .joining)
      (hjoined : ∀ connection ∈ s.connections, connection = .joined) :
      Moves macos s .joinedAll { s with main := .waiting }
  | observe (h : s.main = .waiting) (hactive : s.active = ∅) :
      Moves macos s .observe { s with main := .stopped true }
  | timeout (h : s.main = .joining ∨ s.main = .waiting) :
      Moves macos s .timeout { s with main := .stopped false }
  | connection {c : Nat} {event : ConnectionEvent} {connection : Connection} {s' : System}
      (hc : s.connections[c]? = some connection)
      (h : s.stepConnection macos c connection event = some s') :
      Moves macos s (.connection c event) s'
  | session {t : Nat} {event : SessionEvent} {task task' : SessionTask} {effect : TaskEffect}
      (ht : s.sessions[t]? = some task) (h : task.step s.shutdown event = some (task', effect)) :
      Moves macos s (.session t event) (s.afterTask t task' effect)

theorem step_moves {macos : Bool} {s s' : System} {l : Label} (h : s.step macos l = some s') :
    Moves macos s l s' := by
  cases l with
  | accept authorized =>
      obtain ⟨hmain, h⟩ := Option.ite_none_right_eq_some.mp h
      cases h
      cases authorized with
      | false => exact .refuse hmain
      | true => exact .accept hmain
  | stop =>
      obtain ⟨hmain, h⟩ := Option.ite_none_right_eq_some.mp h
      cases h
      exact .stop hmain
  | join c =>
      obtain ⟨⟨hmain, hc⟩, h⟩ := Option.ite_none_right_eq_some.mp h
      cases h
      exact .join hmain hc
  | joinedAll =>
      obtain ⟨⟨hmain, hjoined⟩, h⟩ := Option.ite_none_right_eq_some.mp h
      cases h
      exact .joinedAll hmain hjoined
  | observe =>
      obtain ⟨⟨hmain, hactive⟩, h⟩ := Option.ite_none_right_eq_some.mp h
      cases h
      exact .observe hmain hactive
  | timeout =>
      obtain ⟨hmain, h⟩ := Option.ite_none_right_eq_some.mp h
      cases h
      exact .timeout hmain
  | connection c event =>
      simp only [step] at h
      split at h
      · cases h
      next connection hc => exact .connection hc h
  | session t event =>
      simp only [step] at h
      split at h
      · cases h
      next task ht =>
        split at h
        · cases h
        next task' effect htask =>
          cases h
          exact .session ht htask

/-- A step of the system leaves the sessions alone, reserves a name, or is a step of
one task. -/
theorem step_cases {macos : Bool} {s s' : System} {l : Label} (h : s.step macos l = some s') :
    Quiet s s' ∨ (∃ name, Reserves name s s') ∨
      ∃ t event task task' effect, l = .session t event ∧ s.sessions[t]? = some task ∧
        task.step s.shutdown event = some (task', effect) ∧ s' = s.afterTask t task' effect := by
  cases step_moves h with
  | connection hc hconnection =>
      rcases (stepConnection_cases hconnection).2 with hquiet | hreserves
      · exact Or.inl hquiet
      · exact Or.inr (Or.inl hreserves)
  | session ht htask => exact Or.inr (Or.inr ⟨_, _, _, _, _, rfl, ht, htask, rfl⟩)
  | _ => exact Or.inl ⟨rfl, rfl, rfl, rfl⟩

/-- A configuration for the interface `utun7`. -/
def exampleConfig : TunSessionConfig where
  interfaceName := "utun7"
  mtu := 0
  addresses := [{ ip := some { value := some (.v4 [10, 0, 0, 1]) }, prefixLen := 24 }]
  peerAllowedIps := []
  peerEndpoints := []
  dns := none

/-- The steps of a connection that opens a session with that configuration. -/
def opens (connection : Nat) : List Label :=
  [.accept true,
    .connection connection (.greet (.message { payload := some (.config exampleConfig) })),
    .connection connection .check, .connection connection .receive, .connection connection .lock]

end System

end Daemon
end WgKotlin
