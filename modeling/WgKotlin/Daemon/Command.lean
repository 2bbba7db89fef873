import Mathlib.Data.List.Infix
import WgKotlin.Proto
import WgKotlin.Library.Pipe
import WgKotlin.Library.Progress

/-!
# Commands

`command_output` runs a program with its standard streams on pipes: the input is
written, both outputs are read and the exit is awaited at the same time, until all four
are done, one of them fails or the time is up.  In the last two cases the program is
killed and reaped.  The program is anything that can be done with the other ends of the
pipes, by itself or by a process that it leaves behind.

An output is read to its end, and what goes beyond the limit is dropped.  The limit
`maxBytes` is `MAX_COMMAND_OUTPUT_BYTES`.
-/

namespace WgKotlin
namespace Daemon
namespace Command

open Proto Library

/-- `ExitStatus`; there is no code if a signal has ended the program. -/
structure ExitStatus where
  code : Option Int
  deriving DecidableEq, Repr

def ExitStatus.success (status : ExitStatus) : Bool := status.code == some 0

structure Output where
  status : ExitStatus
  stdout : Bytes
  stderr : Bytes
  deriving DecidableEq

/-- What `read_capped` does with a chunk. -/
def extendCapped (maxBytes : Nat) (output chunk : Bytes) : Bytes :=
  let remaining := maxBytes - output.length
  if 0 < remaining then output ++ chunk.take (min remaining chunk.length) else output

/-- However the bytes come in chunks, the first ones are kept. -/
theorem extendCapped_take (maxBytes : Nat) (consumed chunk : Bytes) :
    extendCapped maxBytes (consumed.take maxBytes) chunk = (consumed ++ chunk).take maxBytes := by
  unfold extendCapped
  rw [List.length_take, List.take_append]
  simp only
  split
  next hroom =>
    have hmin : min maxBytes consumed.length = consumed.length := by omega
    rw [hmin, ← List.take_eq_take_min]
  next hfull =>
    have hnone : maxBytes - consumed.length = 0 := by omega
    rw [hnone, List.take_zero, List.append_nil]

/-! ### The pipes -/

/-- `read_capped` on one of the outputs. -/
structure Reading (capacity maxBytes : Nat) where
  pipe : Pipe UInt8 capacity
  output : Bytes
  ended : Bool
  capped : output = pipe.consumed.take maxBytes
  drained : ended = true → pipe.atEnd = true

namespace Reading

variable {capacity maxBytes : Nat}

def start (capacity maxBytes : Nat) : Reading capacity maxBytes where
  pipe := Pipe.empty UInt8 capacity
  output := []
  ended := false
  capped := by rw [Pipe.consumed, Pipe.empty, List.take_nil, List.take_nil]
  drained := fun h => (by cases h)

/-- The program writes. -/
def put (reading : Reading capacity maxBytes) (bytes : Bytes) :
    Option (Reading capacity maxBytes) :=
  match h : reading.pipe.put bytes with
  | none => none
  | some pipe =>
    some {
      pipe := pipe
      output := reading.output
      ended := reading.ended
      capped := by rw [(Pipe.put_eq_some h).2.2.2, reading.capped]
      drained := by
        intro hended
        have hclosed := (Pipe.consumed_of_atEnd (reading.drained hended)).1
        rw [(Pipe.put_eq_some h).1] at hclosed
        cases hclosed }

/-- The program closes its end. -/
def close (reading : Reading capacity maxBytes) : Reading capacity maxBytes where
  pipe := reading.pipe.close
  output := reading.output
  ended := reading.ended
  capped := reading.capped
  drained := by
    intro hended
    have hend := reading.drained hended
    rw [Pipe.atEnd, Bool.and_eq_true] at hend
    rw [Pipe.atEnd, Bool.and_eq_true]
    exact ⟨rfl, hend.2⟩

/-- A chunk of at most 8192 bytes is read. -/
def read (reading : Reading capacity maxBytes) (n : Nat) : Option (Reading capacity maxBytes) :=
  if hopen : reading.ended = false ∧ n ≤ 8192 then
    match h : reading.pipe.take n with
    | none => none
    | some (chunk, pipe) =>
      some {
        pipe := pipe
        output := extendCapped maxBytes reading.output chunk
        ended := false
        capped := by
          rw [(Pipe.take_eq_some h).2.2.2.1, reading.capped, extendCapped_take]
        drained := fun hended => (by cases hended) }
  else none

/-- A read of no bytes ends the loop. -/
def finish (reading : Reading capacity maxBytes) : Option (Reading capacity maxBytes) :=
  if h : reading.ended = false ∧ reading.pipe.atEnd = true then
    some { reading with ended := true, drained := fun _ => h.2 }
  else none

section Operations

variable {reading next : Reading capacity maxBytes}

theorem put_eq_some {bytes : Bytes} (h : reading.put bytes = some next) :
    reading.pipe.closed = false ∧ next.output = reading.output ∧ next.ended = reading.ended := by
  unfold put at h
  split at h
  · cases h
  next pipe hput =>
    cases h
    exact ⟨(Pipe.put_eq_some hput).1, rfl, rfl⟩

theorem read_eq_some {n : Nat} (h : reading.read n = some next) :
    reading.ended = false ∧ next.ended = false ∧ next.pipe.closed = reading.pipe.closed ∧
      next.pipe.buffer.length < reading.pipe.buffer.length := by
  unfold read at h
  split at h
  next hopen =>
    split at h
    · cases h
    next chunk pipe htake =>
      cases h
      obtain ⟨hpos, hclosed, _, _, hlength⟩ := Pipe.take_eq_some htake
      refine ⟨hopen.1, rfl, hclosed, ?_⟩
      show pipe.buffer.length < reading.pipe.buffer.length
      omega
  next => cases h

theorem finish_eq_some (h : reading.finish = some next) :
    reading.ended = false ∧ next.ended = true ∧ next.pipe = reading.pipe := by
  unfold finish at h
  split at h
  next hend =>
    cases h
    exact ⟨hend.1, rfl, rfl⟩
  next => cases h

theorem exists_read (hended : reading.ended = false) (hbuffer : reading.pipe.buffer ≠ []) :
    ∃ next, reading.read 1 = some next := by
  obtain ⟨chunk, pipe, htake⟩ := Pipe.exists_take hbuffer
  unfold read
  rw [dif_pos ⟨hended, by omega⟩]
  split
  next hnone =>
    rw [htake] at hnone
    cases hnone
  next => exact ⟨_, rfl⟩

theorem exists_finish (hended : reading.ended = false) (hclosed : reading.pipe.closed = true)
    (hbuffer : reading.pipe.buffer = []) : ∃ next, reading.finish = some next := by
  unfold finish
  rw [dif_pos ⟨hended, Pipe.atEnd_of_closed hclosed hbuffer⟩]
  exact ⟨_, rfl⟩

end Operations

end Reading

/-- The input of the program, of which `left` is still to be written. -/
structure Feeding (capacity : Nat) (payload : Bytes) where
  pipe : Pipe UInt8 capacity
  left : Bytes
  /-- the program does not read any more -/
  broken : Bool
  sent : pipe.written ++ left = payload
  opened : pipe.closed = false

namespace Feeding

variable {capacity : Nat} {payload : Bytes}

def start (capacity : Nat) (payload : Bytes) : Feeding capacity payload where
  pipe := Pipe.empty UInt8 capacity
  left := payload
  broken := false
  sent := rfl
  opened := rfl

/-- A part of `write_all` -/
def write (feeding : Feeding capacity payload) (n : Nat) : Option (Feeding capacity payload) :=
  if feeding.broken = false ∧ 0 < n ∧ n ≤ feeding.left.length then
    match h : feeding.pipe.put (feeding.left.take n) with
    | none => none
    | some pipe =>
      some {
        pipe := pipe
        left := feeding.left.drop n
        broken := feeding.broken
        sent := by
          rw [(Pipe.put_eq_some h).2.2.1, List.append_assoc, List.take_append_drop]
          exact feeding.sent
        opened := (Pipe.put_eq_some h).2.1 }
  else none

/-- The program reads. -/
def take (feeding : Feeding capacity payload) (n : Nat) : Option (Feeding capacity payload) :=
  match h : feeding.pipe.take n with
  | none => none
  | some (_, pipe) =>
    some { feeding with
      pipe := pipe
      sent := by
        rw [(Pipe.take_eq_some h).2.2.1]
        exact feeding.sent
      opened := (Pipe.take_eq_some h).2.1.trans feeding.opened }

theorem write_eq_some {feeding next : Feeding capacity payload} {n : Nat}
    (h : feeding.write n = some next) :
    next.broken = feeding.broken ∧ next.left.length < feeding.left.length := by
  unfold write at h
  split at h
  next hleft =>
    split at h
    · cases h
    next pipe _ =>
      cases h
      refine ⟨rfl, ?_⟩
      show (feeding.left.drop n).length < feeding.left.length
      rw [List.length_drop]
      omega
  next => cases h

theorem take_eq_some {feeding next : Feeding capacity payload} {n : Nat}
    (h : feeding.take n = some next) :
    next.broken = feeding.broken ∧ next.left = feeding.left := by
  unfold take at h
  split at h
  · cases h
  · cases h
    exact ⟨rfl, rfl⟩

/-- The program closes its end. -/
def breaks (feeding : Feeding capacity payload) : Feeding capacity payload :=
  { feeding with broken := true }

end Feeding

/-! ### The supervision -/

inductive Phase
  | starting
  /-- the four parts of `work`, and the status if `child.wait()` has returned -/
  | working (status : Option ExitStatus)
  | killing (error : String)
  | reaping (error : String) (killed : Option String)
  | returned (result : Except String Output)
  deriving DecidableEq

inductive Stream
  | stdout
  | stderr
  deriving DecidableEq, Repr

def Stream.name : Stream → String
  | .stdout => "stdout"
  | .stderr => "stderr"

structure Supervision (capacity maxBytes : Nat) (payload : Bytes) where
  phase : Phase
  /-- there is a program -/
  spawned : Bool
  exited : Option ExitStatus
  stdin : Feeding capacity payload
  stdout : Reading capacity maxBytes
  stderr : Reading capacity maxBytes

inductive ChildEnd
  | stdin
  | output (stream : Stream)

inductive Label
  | spawn
  | runtimeFails (error : String)
  | spawnFails (error : String)
  -- the program and its descendants
  | childReads (n : Nat)
  | childWrites (stream : Stream) (bytes : Bytes)
  | childCloses (side : ChildEnd)
  | childExits (status : ExitStatus)
  -- the supervision
  | write (n : Nat)
  | brokenPipe (error : String)
  | read (stream : Stream) (n : Nat)
  | readEnd (stream : Stream)
  | wait
  | kill (error : Option String)
  | reap
  -- errors that may come at any time
  | writeFails (error : String)
  | readFails (stream : Stream) (error : String)
  | waitFails (error : String)
  | timeout
  | reapFails (error : String)

namespace Label

/-- The supervision can do it by itself. -/
def own : Label → Bool
  | .write _ | .brokenPipe _ | .read _ _ | .readEnd _ | .wait | .kill _ | .reap => true
  | _ => false

def isReapFails : Label → Bool
  | .reapFails _ => true
  | _ => false

end Label

namespace Supervision

variable {capacity maxBytes : Nat} {payload : Bytes}

def start (capacity maxBytes : Nat) (payload : Bytes) : Supervision capacity maxBytes payload where
  phase := .starting
  spawned := false
  exited := none
  stdin := Feeding.start capacity payload
  stdout := Reading.start capacity maxBytes
  stderr := Reading.start capacity maxBytes

def reading (s : Supervision capacity maxBytes payload) : Stream → Reading capacity maxBytes
  | .stdout => s.stdout
  | .stderr => s.stderr

def setReading (s : Supervision capacity maxBytes payload) (reading : Reading capacity maxBytes) :
    Stream → Supervision capacity maxBytes payload
  | .stdout => { s with stdout := reading }
  | .stderr => { s with stderr := reading }

/-- `try_join!` returns with the last of its parts. -/
def settle (s : Supervision capacity maxBytes payload) : Supervision capacity maxBytes payload :=
  match s.phase with
  | .working (some status) =>
    if s.stdin.left = [] ∧ s.stdout.ended = true ∧ s.stderr.ended = true then
      { s with phase := .returned (.ok ⟨status, s.stdout.output, s.stderr.output⟩) }
    else s
  | _ => s

/-- `String::from_utf8_lossy(..).trim()` is `render`. -/
def detail (render : Bytes → String) (s : Supervision capacity maxBytes payload) (error : String)
    (killed : Option String) : String :=
  error ++ "\nstdout: " ++ render s.stdout.output ++ "\nstderr: " ++ render s.stderr.output ++
    match killed with
    | none => ""
    | some error => "\nfailed to terminate: " ++ error

def isWorking (s : Supervision capacity maxBytes payload) : Bool :=
  match s.phase with
  | .working _ => true
  | _ => false

/-- A part of `work` fails, or the time is up. -/
def fail (s : Supervision capacity maxBytes payload) (error : String) :
    Option (Supervision capacity maxBytes payload) :=
  if s.isWorking then some { s with phase := .killing error } else none

def stepStart (s : Supervision capacity maxBytes payload) (next : Phase) (spawned : Bool) :
    Option (Supervision capacity maxBytes payload) :=
  match s.phase with
  | .starting => some { s with phase := next, spawned := spawned }
  | _ => none

def stepChild (s : Supervision capacity maxBytes payload) :
    Label → Option (Supervision capacity maxBytes payload)
  | .childReads n => (s.stdin.take n).map fun stdin => { s with stdin := stdin }
  | .childWrites stream bytes =>
    ((s.reading stream).put bytes).map fun reading => s.setReading reading stream
  | .childCloses .stdin => some { s with stdin := s.stdin.breaks }
  | .childCloses (.output stream) => some (s.setReading (s.reading stream).close stream)
  | .childExits status =>
    match s.exited with
    | none => some { s with exited := some status }
    | some _ => none
  | _ => none

def stepWork (s : Supervision capacity maxBytes payload) :
    Label → Option (Supervision capacity maxBytes payload)
  | .write n => (s.stdin.write n).map fun stdin => settle { s with stdin := stdin }
  | .read stream n =>
    ((s.reading stream).read n).map fun reading => settle (s.setReading reading stream)
  | .readEnd stream =>
    (s.reading stream).finish.map fun reading => settle (s.setReading reading stream)
  | .wait =>
    match s.phase, s.exited with
    | .working none, some status => some (settle { s with phase := .working (some status) })
    | _, _ => none
  | .brokenPipe error =>
    if s.stdin.broken ∧ s.stdin.left ≠ [] then s.fail ("failed writing stdin: " ++ error) else none
  | .writeFails error =>
    if s.stdin.left ≠ [] then s.fail ("failed writing stdin: " ++ error) else none
  | .readFails stream error =>
    if (s.reading stream).ended = false then
      s.fail ("failed reading " ++ stream.name ++ ": " ++ error)
    else none
  | .waitFails error =>
    match s.phase with
    | .working none => s.fail ("failed waiting: " ++ error)
    | _ => none
  | _ => none

/-- `timeout` is the text of the time in seconds. -/
def step (render : Bytes → String) (timeout : String) (s : Supervision capacity maxBytes payload) :
    Label → Option (Supervision capacity maxBytes payload)
  | .spawn => s.stepStart (.working none) true
  | .runtimeFails error =>
    s.stepStart (.returned (.error ("failed to create command runtime: " ++ error))) false
  | .spawnFails error => s.stepStart (.returned (.error ("failed to start: " ++ error))) false
  | .timeout => s.fail ("timed out after " ++ timeout ++ "s")
  | .kill error =>
    match s.phase with
    | .killing failure => some { s with phase := .reaping failure error }
    | _ => none
  | .reap =>
    match s.phase, s.exited with
    | .reaping failure killed, some _ =>
      some { s with phase := .returned (.error (s.detail render failure killed)) }
    | _, _ => none
  | .reapFails error =>
    match s.phase with
    | .reaping failure killed =>
      some { s with phase := .returned (.error (s.detail render failure killed ++
        "\nfailed to reap: " ++ error)) }
    | _ => none
  | .childReads n => if s.spawned then s.stepChild (.childReads n) else none
  | .childWrites stream bytes => if s.spawned then s.stepChild (.childWrites stream bytes) else none
  | .childCloses side => if s.spawned then s.stepChild (.childCloses side) else none
  | .childExits status => if s.spawned then s.stepChild (.childExits status) else none
  | label => if s.isWorking then s.stepWork label else none

/-! ### What a step does -/

section Steps

variable {render : Bytes → String} {timeout : String} {label : Label}
  {s s' : Supervision capacity maxBytes payload}

@[simp] theorem reading_setReading (s : Supervision capacity maxBytes payload)
    (reading : Reading capacity maxBytes) (stream other : Stream) :
    (s.setReading reading stream).reading other =
      if stream = other then reading else s.reading other := by
  cases stream <;> cases other <;> rfl

@[simp] theorem phase_setReading (s : Supervision capacity maxBytes payload)
    (reading : Reading capacity maxBytes) (stream : Stream) :
    (s.setReading reading stream).phase = s.phase := by
  cases stream <;> rfl

@[simp] theorem spawned_setReading (s : Supervision capacity maxBytes payload)
    (reading : Reading capacity maxBytes) (stream : Stream) :
    (s.setReading reading stream).spawned = s.spawned := by
  cases stream <;> rfl

@[simp] theorem exited_setReading (s : Supervision capacity maxBytes payload)
    (reading : Reading capacity maxBytes) (stream : Stream) :
    (s.setReading reading stream).exited = s.exited := by
  cases stream <;> rfl

@[simp] theorem stdin_setReading (s : Supervision capacity maxBytes payload)
    (reading : Reading capacity maxBytes) (stream : Stream) :
    (s.setReading reading stream).stdin = s.stdin := by
  cases stream <;> rfl

/-- All parts but the wait have come to their end. -/
def AllDone (s : Supervision capacity maxBytes payload) : Prop :=
  s.stdin.left = [] ∧ ∀ stream, (s.reading stream).ended = true

theorem allDone_iff : AllDone s ↔
    s.stdin.left = [] ∧ s.stdout.ended = true ∧ s.stderr.ended = true := by
  constructor
  · intro h
    exact ⟨h.1, h.2 .stdout, h.2 .stderr⟩
  · intro h
    refine ⟨h.1, fun stream => ?_⟩
    cases stream with
    | stdout => exact h.2.1
    | stderr => exact h.2.2

/-- The parts are joined when the last one is done, and not before. -/
theorem settle_cases (s : Supervision capacity maxBytes payload) :
    (settle s = s ∧ ∀ status, s.phase = .working (some status) → ¬ AllDone s) ∨
      ∃ status, s.phase = .working (some status) ∧ AllDone s ∧
        settle s =
          { s with phase := .returned (.ok ⟨status, s.stdout.output, s.stderr.output⟩) } := by
  unfold settle
  split
  next status hphase =>
    split
    next hdone => exact Or.inr ⟨status, hphase, allDone_iff.mpr hdone, rfl⟩
    next hdone => exact Or.inl ⟨rfl, fun _ _ h => hdone (allDone_iff.mp h)⟩
  next hphase => exact Or.inl ⟨rfl, fun status h => absurd h (hphase status)⟩

theorem fail_eq_some {error : String} (h : s.fail error = some s') :
    s.isWorking = true ∧ s' = { s with phase := .killing error } := by
  obtain ⟨hworking, h⟩ := Option.ite_none_right_eq_some.mp h
  exact ⟨hworking, (Option.some.inj h).symm⟩

theorem isWorking_iff : s.isWorking = true ↔ ∃ status, s.phase = .working status := by
  unfold isWorking
  cases s.phase <;> simp

/-- What the program does: the supervision stands where it was and has read what it had. -/
structure ChildMoves (s s' : Supervision capacity maxBytes payload) : Prop where
  phase : s'.phase = s.phase
  spawned : s'.spawned = s.spawned
  exited : s.exited = none ∨ s'.exited = s.exited
  left : s'.stdin.left = s.stdin.left
  broken : s.stdin.broken = true → s'.stdin.broken = true
  output : ∀ stream, (s'.reading stream).output = (s.reading stream).output
  ended : ∀ stream, (s'.reading stream).ended = (s.reading stream).ended
  closed : ∀ stream, (s.reading stream).pipe.closed = true →
    (s'.reading stream).pipe.closed = true ∧
      (s'.reading stream).pipe.buffer = (s.reading stream).pipe.buffer

theorem childMoves_setReading {stream : Stream} {reading : Reading capacity maxBytes}
    (houtput : reading.output = (s.reading stream).output)
    (hended : reading.ended = (s.reading stream).ended)
    (hclosed : (s.reading stream).pipe.closed = true → reading.pipe.closed = true ∧
      reading.pipe.buffer = (s.reading stream).pipe.buffer) :
    ChildMoves s (s.setReading reading stream) := by
  refine ⟨phase_setReading .., spawned_setReading .., Or.inr (exited_setReading ..),
    by rw [stdin_setReading], by rw [stdin_setReading]; exact id, ?_, ?_, ?_⟩
  · intro other
    rw [reading_setReading]
    split
    next heq => rw [← heq, houtput]
    next => rfl
  · intro other
    rw [reading_setReading]
    split
    next heq => rw [← heq, hended]
    next => rfl
  · intro other hother
    rw [reading_setReading]
    split
    next heq =>
      rw [← heq] at hother ⊢
      exact hclosed hother
    next => exact ⟨hother, rfl⟩

theorem stepChild_moves (h : s.stepChild label = some s') : ChildMoves s s' := by
  unfold stepChild at h
  split at h
  next n =>
    obtain ⟨stdin, htake, rfl⟩ := Option.map_eq_some_iff.mp h
    obtain ⟨hbroken, hleft⟩ := Feeding.take_eq_some htake
    exact ⟨rfl, rfl, Or.inr rfl, hleft, fun hb => hbroken.trans hb, fun _ => rfl, fun _ => rfl,
      fun _ hclosed => ⟨hclosed, rfl⟩⟩
  next stream bytes =>
    obtain ⟨reading, hput, rfl⟩ := Option.map_eq_some_iff.mp h
    obtain ⟨hopen, houtput, hended⟩ := Reading.put_eq_some hput
    refine childMoves_setReading houtput hended fun hclosed => ?_
    rw [hopen] at hclosed
    cases hclosed
  next =>
    cases h
    exact ⟨rfl, rfl, Or.inr rfl, rfl, fun _ => rfl, fun _ => rfl, fun _ => rfl,
      fun _ hclosed => ⟨hclosed, rfl⟩⟩
  next stream =>
    cases h
    exact childMoves_setReading rfl rfl fun _ => ⟨rfl, rfl⟩
  next status =>
    split at h
    next hnone =>
      cases h
      exact ⟨rfl, rfl, Or.inl hnone, rfl, id, fun _ => rfl, fun _ => rfl,
        fun _ hclosed => ⟨hclosed, rfl⟩⟩
    next => cases h
  next => cases h

/-- How much is left to do in a part of `work`. -/
def partLoad (reading : Reading capacity maxBytes) : Nat :=
  reading.pipe.buffer.length + if reading.ended then 0 else 1

/-- How much is left to do in `work`. -/
def workLoad (s : Supervision capacity maxBytes payload) : Nat :=
  s.stdin.left.length + partLoad s.stdout + partLoad s.stderr +
    match s.phase with
    | .working none => 1
    | _ => 0

/-- A step of one of the parts of `work`, before they are joined. -/
structure PartMoves (s s₁ : Supervision capacity maxBytes payload) : Prop where
  spawned : s₁.spawned = s.spawned
  exited : s₁.exited = s.exited
  phase : s₁.phase = s.phase ∨
    ∃ status, s.phase = .working none ∧ s₁.phase = .working (some status) ∧ s.exited = some status
  broken : s₁.stdin.broken = s.stdin.broken
  closed : ∀ stream, (s₁.reading stream).pipe.closed = (s.reading stream).pipe.closed
  load : s₁.workLoad < s.workLoad

theorem workLoad_setReading {reading : Reading capacity maxBytes} {stream : Stream}
    (h : partLoad reading < partLoad (s.reading stream)) :
    (s.setReading reading stream).workLoad < s.workLoad := by
  unfold workLoad
  rw [phase_setReading, stdin_setReading]
  cases stream with
  | stdout =>
      show s.stdin.left.length + partLoad reading + partLoad s.stderr + _ < _
      have hless : partLoad reading < partLoad s.stdout := h
      omega
  | stderr =>
      show s.stdin.left.length + partLoad s.stdout + partLoad reading + _ < _
      have hless : partLoad reading < partLoad s.stderr := h
      omega

theorem partMoves_setReading {reading : Reading capacity maxBytes} {stream : Stream}
    (hclosed : reading.pipe.closed = (s.reading stream).pipe.closed)
    (hload : partLoad reading < partLoad (s.reading stream)) :
    PartMoves s (s.setReading reading stream) where
  spawned := spawned_setReading ..
  exited := exited_setReading ..
  phase := Or.inl (phase_setReading ..)
  broken := by rw [stdin_setReading]
  closed := by
    intro other
    rw [reading_setReading]
    split
    next heq => rw [← heq, hclosed]
    next => rfl
  load := workLoad_setReading hload

theorem stepWork_moves (h : s.stepWork label = some s') :
    (∃ error, s.isWorking = true ∧ s' = { s with phase := .killing error }) ∨
      ∃ s₁, PartMoves s s₁ ∧ s' = settle s₁ := by
  unfold stepWork at h
  split at h
  next n =>
    obtain ⟨stdin, hwrite, rfl⟩ := Option.map_eq_some_iff.mp h
    obtain ⟨hbroken, hless⟩ := Feeding.write_eq_some hwrite
    refine Or.inr ⟨{ s with stdin := stdin },
      ⟨rfl, rfl, Or.inl rfl, hbroken, fun _ => rfl, ?_⟩, rfl⟩
    unfold workLoad
    simp only
    omega
  next stream n =>
    obtain ⟨reading, hread, rfl⟩ := Option.map_eq_some_iff.mp h
    obtain ⟨hopen, hended, hclosed, hless⟩ := Reading.read_eq_some hread
    refine Or.inr ⟨_, partMoves_setReading hclosed ?_, rfl⟩
    unfold partLoad
    rw [hopen, hended]
    omega
  next stream =>
    obtain ⟨reading, hfinish, rfl⟩ := Option.map_eq_some_iff.mp h
    obtain ⟨hopen, hended, hpipe⟩ := Reading.finish_eq_some hfinish
    refine Or.inr ⟨_, partMoves_setReading (by rw [hpipe]) ?_, rfl⟩
    unfold partLoad
    rw [hopen, hended, hpipe]
    simp
  next =>
    split at h
    next status hphase hexited =>
      cases h
      refine Or.inr ⟨{ s with phase := .working (some status) },
        ⟨rfl, rfl, Or.inr ⟨status, hphase, rfl, hexited⟩, rfl, fun _ => rfl, ?_⟩, rfl⟩
      unfold workLoad
      rw [hphase]
      simp only
      omega
    next => cases h
  next error =>
    obtain ⟨_, h⟩ := Option.ite_none_right_eq_some.mp h
    exact Or.inl ⟨_, fail_eq_some h⟩
  next error =>
    obtain ⟨_, h⟩ := Option.ite_none_right_eq_some.mp h
    exact Or.inl ⟨_, fail_eq_some h⟩
  next stream error =>
    obtain ⟨_, h⟩ := Option.ite_none_right_eq_some.mp h
    exact Or.inl ⟨_, fail_eq_some h⟩
  next error =>
    split at h
    · exact Or.inl ⟨_, fail_eq_some h⟩
    · cases h
  next => cases h

inductive Moves (label : Label) (s : Supervision capacity maxBytes payload) :
    Supervision capacity maxBytes payload → Prop
  | spawns (h : s.phase = .starting) :
      Moves label s { s with phase := .working none, spawned := true }
  | refused (text : String) (h : s.phase = .starting) :
      Moves label s { s with phase := .returned (.error text), spawned := false }
  | child {s' : Supervision capacity maxBytes payload} (hspawned : s.spawned = true)
      (hown : label.own = false) (hmoves : ChildMoves s s') : Moves label s s'
  | fails (error : String) (hworking : s.isWorking = true) :
      Moves label s { s with phase := .killing error }
  | works {s₁ : Supervision capacity maxBytes payload} (hworking : s.isWorking = true)
      (hmoves : PartMoves s s₁) : Moves label s (settle s₁)
  | kills {failure : String} (error : Option String) (h : s.phase = .killing failure) :
      Moves label s { s with phase := .reaping failure error }
  | reaps {failure : String} {killed : Option String} (text : String)
      (h : s.phase = .reaping failure killed)
      (hexited : s.exited.isSome = true ∨ label.isReapFails = true) :
      Moves label s { s with phase := .returned (.error text) }

theorem moves_of_stepWork (h : (if s.isWorking then s.stepWork label else none) = some s') :
    Moves label s s' := by
  obtain ⟨hworking, h⟩ := Option.ite_none_right_eq_some.mp h
  rcases stepWork_moves h with ⟨error, _, rfl⟩ | ⟨s₁, hmoves, rfl⟩
  · exact .fails error hworking
  · exact .works hworking hmoves

theorem moves_of_stepChild (hown : label.own = false)
    (h : (if s.spawned then s.stepChild label else none) = some s') : Moves label s s' := by
  obtain ⟨hspawned, h⟩ := Option.ite_none_right_eq_some.mp h
  exact .child hspawned hown (stepChild_moves h)

theorem step_moves (h : step render timeout s label = some s') : Moves label s s' := by
  cases label with
  | spawn =>
      simp only [step, stepStart] at h
      split at h
      next hphase =>
        cases h
        exact .spawns hphase
      next => cases h
  | runtimeFails error | spawnFails error =>
      simp only [step, stepStart] at h
      split at h
      next hphase =>
        cases h
        exact .refused _ hphase
      next => cases h
  | timeout =>
      obtain ⟨hworking, rfl⟩ := fail_eq_some h
      exact .fails _ hworking
  | kill error =>
      simp only [step] at h
      split at h
      next hphase =>
        cases h
        exact .kills error hphase
      next => cases h
  | reap =>
      simp only [step] at h
      split at h
      next hphase hexited =>
        cases h
        exact .reaps _ hphase (Or.inl (by rw [hexited]; rfl))
      next => cases h
  | reapFails error =>
      simp only [step] at h
      split at h
      next hphase =>
        cases h
        exact .reaps _ hphase (Or.inr rfl)
      next => cases h
  | childReads n => exact moves_of_stepChild rfl h
  | childWrites stream bytes => exact moves_of_stepChild rfl h
  | childCloses side => exact moves_of_stepChild rfl h
  | childExits status => exact moves_of_stepChild rfl h
  | write n => exact moves_of_stepWork h
  | brokenPipe error => exact moves_of_stepWork h
  | read stream n => exact moves_of_stepWork h
  | readEnd stream => exact moves_of_stepWork h
  | wait => exact moves_of_stepWork h
  | writeFails error => exact moves_of_stepWork h
  | readFails stream error => exact moves_of_stepWork h
  | waitFails error => exact moves_of_stepWork h

/-! ### The invariant -/

/-- The result of a program that was joined. -/
structure Joined (s : Supervision capacity maxBytes payload) (output : Output) : Prop where
  exited : s.exited = some output.status
  done : AllDone s
  stdout : output.stdout = s.stdout.output
  stderr : output.stderr = s.stderr.output

structure Sound (s : Supervision capacity maxBytes payload) : Prop where
  starting : s.phase = .starting → s.spawned = false
  waited : ∀ status, s.phase = .working (some status) → s.exited = some status ∧ ¬ AllDone s
  joined : ∀ output, s.phase = .returned (.ok output) → Joined s output

theorem sound_start : Sound (start capacity maxBytes payload) where
  starting := fun _ => rfl
  waited := fun _ h => (by cases h)
  joined := fun _ h => (by cases h)

theorem ChildMoves.allDone (h : ChildMoves s s') : AllDone s' ↔ AllDone s := by
  unfold AllDone
  rw [h.left]
  simp only [h.ended]

theorem ChildMoves.keeps_exit (h : ChildMoves s s') {status : ExitStatus}
    (hexited : s.exited = some status) : s'.exited = some status := by
  rcases h.exited with hnone | hsame
  · rw [hnone] at hexited
    cases hexited
  · rw [hsame, hexited]

theorem sound_settle (hphase : ∃ status, s.phase = .working status)
    (hwaited : ∀ status, s.phase = .working (some status) → s.exited = some status) :
    Sound (settle s) := by
  obtain ⟨status, hphase⟩ := hphase
  rcases settle_cases s with ⟨heq, hopen⟩ | ⟨status', hstatus', hdone, heq⟩
  · rw [heq]
    refine ⟨?_, fun status h => ⟨hwaited status h, hopen status h⟩, ?_⟩
    · intro h
      rw [hphase] at h
      cases h
    · intro output h
      rw [hphase] at h
      cases h
  · rw [heq]
    refine ⟨fun h => (by cases h), fun status h => (by cases h), fun output h => ?_⟩
    cases h
    exact ⟨hwaited status' hstatus', hdone, rfl, rfl⟩

theorem Sound.moves (h : Sound s) (hmoves : Moves label s s') : Sound s' := by
  cases hmoves with
  | spawns _ | refused _ _ | fails _ _ | kills _ _ | reaps _ _ _ =>
      exact ⟨fun h => (by cases h), fun _ h => (by cases h), fun _ h => (by cases h)⟩
  | child hspawned _ hchild =>
      refine ⟨?_, ?_, ?_⟩
      · intro hphase
        rw [hchild.phase] at hphase
        rw [h.starting hphase] at hspawned
        cases hspawned
      · intro status hphase
        rw [hchild.phase] at hphase
        obtain ⟨hexited, hopen⟩ := h.waited status hphase
        exact ⟨hchild.keeps_exit hexited, fun hdone => hopen (hchild.allDone.mp hdone)⟩
      · intro output hphase
        rw [hchild.phase] at hphase
        obtain ⟨hexited, hdone, hstdout, hstderr⟩ := h.joined output hphase
        exact ⟨hchild.keeps_exit hexited, hchild.allDone.mpr hdone,
          hstdout.trans (hchild.output .stdout).symm, hstderr.trans (hchild.output .stderr).symm⟩
  | @works s₁ hworking hpart =>
      obtain ⟨status, hstatus⟩ := isWorking_iff.mp hworking
      rcases hpart.phase with hsame | ⟨status', hnone, hsome, hexited⟩
      · refine sound_settle ⟨status, hsame.trans hstatus⟩ fun status' hstatus' => ?_
        rw [hpart.exited]
        exact (h.waited status' (hsame.symm.trans hstatus')).1
      · refine sound_settle ⟨some status', hsome⟩ fun status'' hstatus'' => ?_
        rw [hsome] at hstatus''
        cases hstatus''
        rw [hpart.exited, hexited]

theorem sound_of_reachable
    (hs : Reachable (step render timeout) (start capacity maxBytes payload) s) : Sound s :=
  reachable_invariant sound_start (fun _ _ _ h hstep => h.moves (step_moves hstep)) hs

/-! ### No program is left behind -/

/-- A program that was started has exited when the call returns. -/
def Reaped (s : Supervision capacity maxBytes payload) : Prop :=
  ∀ text, s.phase = .returned (.error text) → s.spawned = false ∨ s.exited.isSome = true

theorem Reaped.moves (h : Reaped s) (hlabel : label.isReapFails = false)
    (hmoves : Moves label s s') : Reaped s' := by
  cases hmoves with
  | spawns _ | fails _ _ | kills _ _ => exact fun _ h => (by cases h)
  | refused _ _ => exact fun _ _ => Or.inl rfl
  | child hspawned _ hchild =>
      intro text hphase
      rw [hchild.phase] at hphase
      rcases h text hphase with hnone | hexited
      · rw [hspawned] at hnone
        cases hnone
      · obtain ⟨status, hstatus⟩ := Option.isSome_iff_exists.mp hexited
        exact Or.inr (by rw [hchild.keeps_exit hstatus]; rfl)
  | @works s₁ hworking hpart =>
      intro text hphase
      rcases settle_cases s₁ with ⟨heq, _⟩ | ⟨status, _, _, heq⟩
      · rw [heq] at hphase
        obtain ⟨status, hstatus⟩ := isWorking_iff.mp hworking
        rcases hpart.phase with hsame | ⟨_, _, hsome, _⟩
        · rw [hsame, hstatus] at hphase
          cases hphase
        · rw [hsome] at hphase
          cases hphase
      · rw [heq] at hphase
        cases hphase
  | reaps _ _ hexited =>
      refine fun _ _ => Or.inr (hexited.resolve_right ?_)
      rw [hlabel]
      exact Bool.false_ne_true

theorem step_read {stream : Stream} (hworking : s.isWorking = true)
    (hended : (s.reading stream).ended = false) (hbuffer : (s.reading stream).pipe.buffer ≠ []) :
    ∃ reading, (s.reading stream).read 1 = some reading ∧
      step render timeout s (.read stream 1) = some (s.setReading reading stream) := by
  obtain ⟨reading, hread⟩ := Reading.exists_read hended hbuffer
  refine ⟨reading, hread, ?_⟩
  have hopen : (s.setReading reading stream).settle = s.setReading reading stream := by
    rcases settle_cases (s.setReading reading stream) with ⟨heq, _⟩ | ⟨_, _, hdone, _⟩
    · exact heq
    · have hend := hdone.2 stream
      rw [reading_setReading, if_pos rfl, (Reading.read_eq_some hread).2.1] at hend
      cases hend
  simp only [step, stepWork, hworking, if_true, hread, Option.map_some, hopen]

/-- The program has exited, and nobody has the other ends of the pipes. -/
structure Gone (s : Supervision capacity maxBytes payload) : Prop where
  started : s.phase ≠ .starting
  exited : s.exited.isSome = true
  broken : s.stdin.broken = true
  closed : ∀ stream, (s.reading stream).pipe.closed = true

def Over (s : Supervision capacity maxBytes payload) : Prop :=
  ∃ result, s.phase = .returned result

/-- How much is left to do. -/
def load (s : Supervision capacity maxBytes payload) : Nat :=
  match s.phase with
  | .starting => 0
  | .working _ => s.workLoad + 3
  | .killing _ => 2
  | .reaping _ _ => 1
  | .returned _ => 0

theorem load_settle_le (s : Supervision capacity maxBytes payload) : s.settle.load ≤ s.load := by
  rcases settle_cases s with ⟨heq, _⟩ | ⟨_, _, _, heq⟩
  · rw [heq]
  · rw [heq]
    exact Nat.zero_le _

theorem reading_settle (s : Supervision capacity maxBytes payload) (stream : Stream) :
    s.settle.reading stream = s.reading stream := by
  rcases settle_cases s with ⟨heq, _⟩ | ⟨_, _, _, heq⟩
  · rw [heq]
  · rw [heq]
    cases stream <;> rfl

theorem settle_same (s : Supervision capacity maxBytes payload) :
    s.settle.exited = s.exited ∧ s.settle.stdin = s.stdin := by
  rcases settle_cases s with ⟨heq, _⟩ | ⟨_, _, _, heq⟩
  · rw [heq]
    exact ⟨rfl, rfl⟩
  · rw [heq]
    exact ⟨rfl, rfl⟩

theorem Gone.moves (h : Gone s) (hmoves : Moves label s s') : Gone s' := by
  cases hmoves with
  | spawns hphase | refused _ hphase => exact absurd hphase h.started
  | child _ _ hchild =>
      obtain ⟨status, hstatus⟩ := Option.isSome_iff_exists.mp h.exited
      exact ⟨hchild.phase ▸ h.started, by rw [hchild.keeps_exit hstatus]; rfl,
        hchild.broken h.broken, fun stream => (hchild.closed stream (h.closed stream)).1⟩
  | fails _ _ | kills _ _ | reaps _ _ _ =>
      exact ⟨fun h => (by cases h), h.exited, h.broken, fun stream => h.closed stream⟩
  | @works s₁ hworking hpart =>
      obtain ⟨hexited, hstdin⟩ := settle_same s₁
      refine ⟨?_, by rw [hexited, hpart.exited, h.exited], by rw [hstdin, hpart.broken, h.broken],
        fun stream => by rw [reading_settle, hpart.closed, h.closed]⟩
      obtain ⟨status, hstatus⟩ := isWorking_iff.mp hworking
      rcases settle_cases s₁ with ⟨heq, _⟩ | ⟨_, _, _, heq⟩
      · rw [heq]
        rcases hpart.phase with hsame | ⟨_, _, hsome, _⟩
        · rw [hsame, hstatus]
          exact fun h => (by cases h)
        · rw [hsome]
          exact fun h => (by cases h)
      · rw [heq]
        exact fun h => (by cases h)

theorem workLoad_of_child (hchild : ChildMoves s s')
    (hclosed : ∀ stream, (s.reading stream).pipe.closed = true) : s'.workLoad = s.workLoad := by
  have hpart : ∀ stream, partLoad (s'.reading stream) = partLoad (s.reading stream) := by
    intro stream
    unfold partLoad
    rw [(hchild.closed stream (hclosed stream)).2, hchild.ended stream]
  have hstdout : partLoad s'.stdout = partLoad s.stdout := hpart .stdout
  have hstderr : partLoad s'.stderr = partLoad s.stderr := hpart .stderr
  unfold workLoad
  rw [hchild.left, hstdout, hstderr, hchild.phase]

theorem load_of_works {s₁ : Supervision capacity maxBytes payload} (hworking : s.isWorking = true)
    (hpart : PartMoves s s₁) : s₁.settle.load < s.load := by
  have hle := load_settle_le s₁
  have hless := hpart.load
  obtain ⟨status, hstatus⟩ := isWorking_iff.mp hworking
  have hs : s.load = s.workLoad + 3 := by
    unfold load
    rw [hstatus]
  have hs₁ : s₁.load = s₁.workLoad + 3 := by
    unfold load
    rcases hpart.phase with hsame | ⟨_, _, hsome, _⟩
    · rw [hsame, hstatus]
    · rw [hsome]
  omega

theorem load_le_of_moves (h : Gone s) (hmoves : Moves label s s') :
    s'.load ≤ s.load ∧ (label.own = true → s'.load < s.load) := by
  cases hmoves with
  | spawns hphase | refused _ hphase => exact absurd hphase h.started
  | child _ hown hchild =>
      have hsame : s'.load = s.load := by
        unfold load
        rw [hchild.phase, workLoad_of_child hchild h.closed]
      refine ⟨Nat.le_of_eq hsame, fun hlabel => ?_⟩
      rw [hown] at hlabel
      cases hlabel
  | fails error hworking =>
      obtain ⟨status, hstatus⟩ := isWorking_iff.mp hworking
      have hs : s.load = s.workLoad + 3 := by
        unfold load
        rw [hstatus]
      have hs' :
          ({ s with phase := .killing error } : Supervision capacity maxBytes payload).load = 2 :=
        rfl
      omega
  | works hworking hpart =>
      have hless := load_of_works hworking hpart
      omega
  | kills error hphase =>
      have hs : s.load = 2 := by
        unfold load
        rw [hphase]
      rw [hs]
      exact ⟨Nat.le_succ 1, fun _ => Nat.lt_succ_self 1⟩
  | reaps text hphase _ =>
      have hs : s.load = 1 := by
        unfold load
        rw [hphase]
      rw [hs]
      exact ⟨Nat.zero_le 1, fun _ => Nat.zero_lt_one⟩

theorem ready_of_reading {stream : Stream} (h : Gone s) (hworking : s.isWorking = true)
    (hended : (s.reading stream).ended = false) :
    ∃ l s', Label.own l = true ∧ step render timeout s l = some s' := by
  by_cases hbuffer : (s.reading stream).pipe.buffer = []
  · obtain ⟨reading, hfinish⟩ := Reading.exists_finish hended (h.closed stream) hbuffer
    refine ⟨.readEnd stream, (s.setReading reading stream).settle, rfl, ?_⟩
    simp only [step, stepWork, hworking, if_true, hfinish, Option.map_some]
  · obtain ⟨reading, _, hstep⟩ := step_read hworking hended hbuffer
    exact ⟨_, _, rfl, hstep⟩

theorem ready (hsound : Sound s) (h : Gone s) (hover : ¬ Over s) :
    ∃ l s', Label.own l = true ∧ step render timeout s l = some s' := by
  obtain ⟨status, hstatus⟩ := Option.isSome_iff_exists.mp h.exited
  cases hphase : s.phase with
  | starting => exact absurd hphase h.started
  | returned result => exact absurd ⟨result, hphase⟩ hover
  | killing failure =>
      refine ⟨.kill none, { s with phase := .reaping failure none }, rfl, ?_⟩
      simp only [step, hphase]
  | reaping failure killed =>
      refine ⟨.reap, { s with phase := .returned (.error (s.detail render failure killed)) },
        rfl, ?_⟩
      simp only [step, hphase, hstatus]
  | working waited =>
      have hworking : s.isWorking = true := isWorking_iff.mpr ⟨waited, hphase⟩
      by_cases hdone : AllDone s
      · cases waited with
        | some status => exact absurd hdone (hsound.waited status hphase).2
        | none =>
            refine ⟨.wait, settle { s with phase := .working (some status) }, rfl, ?_⟩
            simp only [step, stepWork, hworking, if_true, hphase, hstatus]
      · by_cases hleft : s.stdin.left = []
        · have hnot : ¬ ∀ stream, (s.reading stream).ended = true := fun hall =>
            hdone ⟨hleft, hall⟩
          rw [not_forall] at hnot
          obtain ⟨stream, hopen⟩ := hnot
          exact ready_of_reading h hworking (Bool.eq_false_iff.mpr hopen)
        · refine ⟨.brokenPipe "", { s with phase := .killing ("failed writing stdin: " ++ "") },
            rfl, ?_⟩
          simp only [step, stepWork, hworking, if_true, fail]
          rw [if_pos ⟨h.broken, hleft⟩]

theorem windsDown (render : Bytes → String) (timeout : String) :
    WindsDown (step render timeout : Supervision capacity maxBytes payload → _)
      (fun s => Sound s ∧ Gone s) (fun _ l => l.own) Over load where
  keeps := fun h hstep => ⟨h.1.moves (step_moves hstep), h.2.moves (step_moves hstep)⟩
  ready := fun h hover => ready h.1 h.2 hover
  spends := fun h hown hstep => (load_le_of_moves h.2 (step_moves hstep)).2 hown
  waits := fun h _ hstep => (load_le_of_moves h.2 (step_moves hstep)).1

end Steps

end Supervision

/-! ### `run_command` -/

def contains (text pattern : String) : Bool := decide (pattern.toList <:+: text.toList)

end Command
end Daemon
end WgKotlin
