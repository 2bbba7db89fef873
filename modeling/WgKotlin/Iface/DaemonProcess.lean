import WgKotlin.Kotlin
import WgKotlin.Library.Run

/-!
# The daemon process and its registry

`DaemonProcess.launch`, `stop` and `kill`, and the reference of
`PlatformInterfaceFactory` to the daemon in use.  Any number of threads make these
calls, one access to the process or to the reference at a time, and a process may
exit between any two of them.
-/

namespace WgKotlin
namespace Iface

open Library

/-- Who has called `kill()`. -/
inductive Killer
  | app
  /-- `stop` without time to wait. -/
  | stopAtOnce
  /-- The `try` block of `stop`, its `catch` for an `IOException`, and that for the rest. -/
  | stopTry
  | stopIo
  | stopError (error : Throwable)
  deriving DecidableEq, Repr

/-- What a thread does next. -/
inductive Point
  -- launch
  | bootstrap
  | connect
  | destroy
  | awaitDestroyed
  | launchThrew
  -- registerDaemon, at the end of launch
  | registerGet
  | registerCheck (current : Option Nat)
  | registerSet (current : Option Nat)
  | launched
  -- stop
  | stopEntry (atOnce : Bool)
  | unregisterExited
  | talk
  | await
  | ioCaught
  | errorCaught (error : Throwable)
  | stopFinally (result : Except Throwable Unit)
  | stopUnregister (result : Except Throwable Unit)
  -- kill
  | killEntry (killer : Killer)
  | killDestroy (killer : Killer)
  | killAwait (killer : Killer)
  | killFinally (killer : Killer) (result : Except Throwable Unit)
  | killUnregister (killer : Killer) (result : Except Throwable Unit)
  | returned (result : Except Throwable Unit)
  -- requireDaemon
  | requireGet
  | requireCheck (current : Option Nat)
  | required (result : Except Throwable Nat)
  deriving DecidableEq

/-- What comes of a call that waits. -/
inductive Answer
  | done
  | ioException
  | throws (error : Throwable)
  | timeout
  deriving DecidableEq, Repr

structure CallThread where
  /-- The process that is launched, stopped or killed. -/
  daemon : Nat
  point : Point
  deriving DecidableEq

structure Daemons where
  /-- The reference to the daemon in use. -/
  running : Option Nat
  /-- The processes so far. -/
  count : Nat
  exited : List Nat
  threads : List CallThread
  deriving DecidableEq

namespace Daemons

def start : Daemons where
  running := none
  count := 0
  exited := []
  threads := []

def isAlive (s : Daemons) (daemon : Nat) : Bool := decide (daemon ∉ s.exited)

/-- `current?.isAlive == true` -/
def isLive (s : Daemons) (current : Option Nat) : Bool :=
  match current with
  | none => false
  | some daemon => s.isAlive daemon

def notExited : Throwable := .illegalState "Daemon did not exit after forced termination"

/-- Where `stop` or the app goes on after `kill()`. -/
def afterKill : Killer → Except Throwable Unit → Point
  | .app, result | .stopAtOnce, result => .returned result
  | .stopTry, .ok () => .stopFinally (.ok ())
  | .stopTry, .error error => .errorCaught error
  | .stopIo, result => .stopFinally result
  | .stopError error, _ => .stopFinally (.error error)

/-- `process.waitFor` returns `true` if the process has exited. -/
def waitFor (s : Daemons) (daemon : Nat) (answer : Answer) : Option (Except Throwable Bool) :=
  match answer with
  | .done => if s.isAlive daemon then none else some (.ok true)
  | .timeout => some (.ok false)
  | .throws error => some (.error error)
  | .ioException => none

/-- `running.compareAndSet(daemon, null)` -/
def unregistered (s : Daemons) (daemon : Nat) : Option Nat :=
  if s.running = some daemon then none else s.running

/-- `launch` from the first turn of the bootstrap on.  The caller may run out of time at any
point of the bootstrap. -/
def stepLaunch (s : Daemons) (daemon : Nat) (answer : Answer) : Point → Option (Option Nat × Point)
  | .bootstrap =>
    match answer with
    | .done => some (s.running, if s.isAlive daemon then .connect else .destroy)
    | .timeout => some (s.running, .destroy)
    | _ => none
  | .connect =>
    match answer with
    | .done => if s.isAlive daemon then some (s.running, .registerGet) else none
    | .ioException => some (s.running, .bootstrap)
    | .throws _ | .timeout => some (s.running, .destroy)
  -- What goes wrong from here on is suppressed.
  | .destroy =>
    match answer with
    | .done => some (s.running, .awaitDestroyed)
    | .throws _ => some (s.running, .launchThrew)
    | _ => none
  | .awaitDestroyed =>
    match s.waitFor daemon answer with
    | none => none
    | some _ => some (s.running, .launchThrew)
  | .registerGet => some (s.running, .registerCheck s.running)
  | .registerCheck current =>
    some (s.running, if s.isLive current then .launched else .registerSet current)
  | .registerSet current =>
    if s.running = current then some (some daemon, .launched) else some (s.running, .registerGet)
  | _ => none

def stepKill (s : Daemons) (daemon : Nat) (answer : Answer) : Point → Option (Option Nat × Point)
  | .killEntry killer =>
    some (s.running, if s.isAlive daemon then .killDestroy killer else .killAwait killer)
  | .killDestroy killer =>
    match answer with
    | .done => some (s.running, .killAwait killer)
    | .throws error => some (s.running, .killFinally killer (.error error))
    | _ => none
  | .killAwait killer =>
    match s.waitFor daemon answer with
    | none => none
    | some (.ok true) => some (s.running, .killFinally killer (.ok ()))
    | some (.ok false) => some (s.running, .killFinally killer (.error notExited))
    | some (.error error) => some (s.running, .killFinally killer (.error error))
  | .killFinally killer result =>
    some (s.running,
      if s.isAlive daemon then afterKill killer result else .killUnregister killer result)
  | .killUnregister killer result => some (s.unregistered daemon, afterKill killer result)
  | _ => none

def stepStop (s : Daemons) (daemon : Nat) (answer : Answer) : Point → Option (Option Nat × Point)
  | .stopEntry atOnce =>
    some (s.running,
      if s.isAlive daemon then (if atOnce then .killEntry .stopAtOnce else .talk)
      else .unregisterExited)
  | .unregisterExited => some (s.unregistered daemon, .returned (.ok ()))
  | .talk =>
    match answer with
    | .done => some (s.running, .await)
    | .ioException => some (s.running, .ioCaught)
    | .throws error => some (s.running, .errorCaught error)
    | .timeout => none
  | .await =>
    match s.waitFor daemon answer with
    | none => none
    | some (.ok true) => some (s.running, .stopFinally (.ok ()))
    | some (.ok false) => some (s.running, .killEntry .stopTry)
    | some (.error error) => some (s.running, .errorCaught error)
  | .ioCaught =>
    some (s.running, if s.isAlive daemon then .killEntry .stopIo else .stopFinally (.ok ()))
  | .errorCaught error =>
    some (s.running,
      if s.isAlive daemon then .killEntry (.stopError error) else .stopFinally (.error error))
  | .stopFinally result =>
    some (s.running, if s.isAlive daemon then .returned result else .stopUnregister result)
  | .stopUnregister result => some (s.unregistered daemon, .returned result)
  | _ => none

def notLaunched : Throwable := .illegalState "Launch DaemonProcess before opening a VPN"

def stepRequire (s : Daemons) : Point → Option (Option Nat × Point)
  | .requireGet => some (s.running, .requireCheck s.running)
  | .requireCheck current =>
    match current with
    | some daemon =>
      some (s.running, .required (if s.isAlive daemon then .ok daemon else .error notLaunched))
    | none => some (s.running, .required (.error notLaunched))
  | _ => none

def stepThread (s : Daemons) (thread : CallThread) (answer : Answer) :
    Option (Option Nat × Point) :=
  (s.stepLaunch thread.daemon answer thread.point).or
    ((s.stepKill thread.daemon answer thread.point).or
      ((s.stepStop thread.daemon answer thread.point).or (s.stepRequire thread.point)))

inductive Label
  | exit (daemon : Nat)
  /-- `launch`, once the launcher has returned a process. -/
  | launch
  | stop (daemon : Nat) (atOnce : Bool)
  | kill (daemon : Nat)
  | require
  | move (index : Nat) (answer : Answer)
  deriving DecidableEq

def call (s : Daemons) (daemon : Nat) (point : Point) : Daemons :=
  { s with threads := s.threads ++ [⟨daemon, point⟩] }

/-- The app has got the object from `launch`. -/
def hasLaunched (s : Daemons) (daemon : Nat) : Bool :=
  s.threads.any fun thread => thread.daemon == daemon && thread.point == .launched

def step (s : Daemons) : Label → Option Daemons
  | .exit daemon =>
    if daemon < s.count then some { s with exited := daemon :: s.exited } else none
  | .launch => some { s.call s.count .bootstrap with count := s.count + 1 }
  | .stop daemon atOnce =>
    if s.hasLaunched daemon then some (s.call daemon (.stopEntry atOnce)) else none
  | .kill daemon => if s.hasLaunched daemon then some (s.call daemon (.killEntry .app)) else none
  | .require => some (s.call 0 .requireGet)
  | .move index answer =>
    match s.threads[index]? with
    | none => none
    | some thread =>
      match s.stepThread thread answer with
      | none => none
      | some (running, point) =>
        some { s with
          running := running
          threads := s.threads.set index { thread with point := point } }

end Daemons
end Iface
end WgKotlin
