import WgKotlin.Daemon.SessionProtocol
import WgKotlin.Library.Progress

/-!
# A connection after the shutdown

When the daemon stops, each connection has to come to its end whatever the client
does: it may stop reading while the responses are queued up, it may go on writing,
and packets may still come from the TUN.  Nothing here waits for the client; the calls
of the device and of the system are taken to return.  The write half gives up first,
the session loop then closes the TUN, the worker is told to stop before it is joined,
and the read half is let go once the task has dropped its receiver.
-/

namespace WgKotlin
namespace Daemon

open Proto Library

/-! ### What is left to do -/

/-- The steps of the write half, with those of a task that it may still spawn. -/
def WriteHalf.left : WriteHalf → Nat
  | .ended => 0
  | .greeting | .first | .rejected _ | .responding | .writing _ => 1
  | .calling => 2
  | .locking _ => 4
  | .receiving => 5

def ReadHalf.left : ReadHalf → Nat
  | .ended => 0
  | .waiting | .reading => 1
  | .sending _ => 2

/-- The steps of the task, with those of the worker that it may still start and with the
reports that it may still hand over. -/
def SessionPhase.left : SessionPhase → Nat
  | .finished _ => 0
  | .cancelled | .releasing _ => 1
  | .spawned | .startFailed => 2
  | .joining _ _ => 4
  | .closing _ _ => 5
  | .looping _ _ => 6
  | .announcing _ => 10
  | .starting => 11

/-- The steps of the worker once it has been told to stop.  Until then it may go on. -/
def ReaderThread.left (stopRead : Bool) : ReaderThread → Nat
  | .idle | .ended => 0
  | .reading => 3
  | .sending _ _ => if stopRead then 2 else 3
  | .finishing _ => if stopRead then 1 else 3

/-- How many reports the task can have made. -/
def SessionPhase.mayReport : SessionPhase → Nat
  | .spawned | .cancelled | .starting | .announcing _ | .looping _ _ => 0
  | .startFailed | .closing _ _ => 1
  | .joining _ _ | .releasing _ | .finished _ => 2

namespace SessionPhase

variable {name : String} {shutdown : Bool} {phase phase' : SessionPhase} {event : SessionEvent}
  {reports : List Status} {effect : TaskEffect}

theorem mayReport_le (phase : SessionPhase) : phase.mayReport ≤ 2 := by
  cases phase <;> simp [mayReport]

theorem length_reportOf (result : Except Status Unit) : (reportOf result).length ≤ 1 := by
  cases result with
  | ok _ => exact Nat.zero_le 1
  | error _ => exact Nat.le_refl 1

theorem step_mayReport (h : phase.step name shutdown event = some (phase', reports, effect)) :
    phase.mayReport + reports.length ≤ phase'.mayReport := by
  unfold step at h
  split at h
  · split at h
    · cases h
      split
      · exact Nat.le_refl 0
      · exact Nat.le_refl 0
    · cases h
  · split at h
    · cases h
      exact Nat.le_refl 1
    · cases h
      exact Nat.le_refl 0
    · cases h
  · split at h
    · cases h
      exact Nat.le_refl 0
    · cases h
  · split at h
    · split at h
      · cases h
        exact Nat.le_refl 0
      · cases h
    · split at h
      · cases h
      · cases h
        exact Nat.le_refl 0
      next result _ =>
        cases h
        exact (Nat.zero_add _).symm ▸ length_reportOf result
    · cases h
  · split at h
    · split at h
      · cases h
        exact Nat.le_refl 1
      · cases h
    · cases h
      exact Nat.add_le_add_left (length_reportOf _) 1
    · cases h
  · split at h
    · split at h
      · cases h
        exact Nat.le_refl 2
      · cases h
    · split at h
      · cases h
      · cases h
        exact Nat.le_refl 2
    · cases h
  · split at h
    · cases h
      exact Nat.zero_le 2
    · cases h
  · split at h
    · cases h
      exact Nat.le_succ 1
    · cases h
  · split at h
    · cases h
      exact Nat.le_refl 2
    · cases h
  · cases h

/-- What an event costs a task after the shutdown.  A session that is announced still has its
worker to start, and one that has joined the worker has its reports to make.  The end of the
worker is noted in the same phase. -/
def cost : SessionEvent → Nat
  | .readerEnded _ => 0
  | .announced => 4
  | .readerJoined => 3
  | _ => 1

theorem step_left (h : phase.step name true event = some (phase', reports, effect)) :
    phase'.left + cost event ≤ phase.left := by
  cases event with
  | begin closed =>
      cases phase with
      | spawned =>
          simp only [step, Bool.or_true, if_true] at h
          cases h
          exact Nat.le_refl 2
      | _ => cases h
  | started result =>
      cases phase with
      | starting =>
          cases result with
          | error e =>
              cases h
              exact (by decide : 3 ≤ 11)
          | ok device =>
              cases h
              exact Nat.le_refl 11
      | _ => cases h
  | announced =>
      cases phase with
      | announcing tun =>
          cases h
          exact Nat.le_refl 10
      | _ => cases h
  | readerEnded error =>
      cases phase with
      | looping tun reader | closing tun reader | joining tun reader =>
          obtain ⟨-, h⟩ := Option.ite_none_right_eq_some.mp h
          cases h
          exact Nat.le_refl _
      | _ => cases h
  | turn event =>
      cases phase with
      | looping tun reader =>
          cases h
          exact Nat.le_refl 6
      | _ => cases h
  | closed hook =>
      cases phase with
      | closing tun reader =>
          cases h
          exact Nat.le_refl 5
      | _ => cases h
  | readerJoined =>
      cases phase with
      | joining tun reader =>
          obtain ⟨-, h⟩ := Option.ite_none_left_eq_some.mp h
          cases h
          exact Nat.le_refl 4
      | _ => cases h
  | release =>
      cases phase with
      | cancelled =>
          cases h
          exact Nat.le_refl 1
      | startFailed =>
          cases h
          exact Nat.le_succ 1
      | releasing tun =>
          cases h
          exact Nat.le_refl 1
      | _ => cases h

end SessionPhase

namespace Conversation

section Tasks

variable {macos : Bool} {pid : UInt32} {s s' : Conversation}

/-- What a step of the connection can make of its task. -/
inductive TaskMoves (shutdown : Bool) (task? : Option SessionTask) : Option SessionTask → Prop
  | stay : TaskMoves shutdown task? task?
  | spawn (name : String) : TaskMoves shutdown task? (some (SessionTask.spawn name))
  | move {task : SessionTask} {phase : SessionPhase} {reports : List Status} {effect : TaskEffect}
      (event : SessionEvent) (ht : task? = some task)
      (h : task.phase.step task.name shutdown event = some (phase, reports, effect)) :
      TaskMoves shutdown task?
        (some { task with phase := phase, reports := task.reports ++ reports })

theorem advance_taskMoves {event : SessionEvent} (h : s.advance event = some s') :
    TaskMoves s.shutdown s.task s'.task := by
  obtain ⟨task, phase, reports, effect, ht, hstep, rfl⟩ := advance_eq_some h
  exact .move event ht hstep

theorem serves_taskMoves (h : Serves macos pid s s') : TaskMoves s.shutdown s.task s'.task := by
  cases h with
  | spawn _ => exact .spawn _
  | _ => exact .stay

theorem task_afterTurn (s : Conversation) : s.afterTurn.task = s.task := by
  unfold afterTurn
  split
  · rfl
  · rfl

theorem turn_taskMoves {wake : Wake} (h : s.turn wake = some s') :
    TaskMoves s.shutdown s.task s'.task := by
  unfold turn at h
  split at h
  · exact advance_taskMoves h
  · split at h
    · split at h
      · cases h
      · exact advance_taskMoves h
    · split at h
      · exact advance_taskMoves h
      · cases h
    · split at h
      · unfold takeIncoming at h
        split at h
        · exact (advance_taskMoves h :)
        · split at h
          · exact advance_taskMoves h
          · cases h
      · cases h

theorem stepTask_taskMoves {label : TaskLabel} (h : s.stepTask label = some s') :
    TaskMoves s.shutdown s.task s'.task := by
  cases label with
  | begin | started _ | closed _ => exact advance_taskMoves h
  | announce =>
      simp only [stepTask, announce] at h
      split at h
      · split at h
        · split at h
          · exact (advance_taskMoves h :)
          · cases h
        · exact (advance_taskMoves h :)
      · cases h
  | wake wake =>
      obtain ⟨mid, hmid, rfl⟩ := Option.map_eq_some_iff.mp h
      rw [task_afterTurn]
      exact turn_taskMoves hmid
  | join =>
      simp only [stepTask, joinReader] at h
      split at h
      · cases h
      · exact (advance_taskMoves h :)
  | report =>
      simp only [stepTask, report] at h
      split at h
      · cases h
      · split at h
        · cases h
          exact .stay
        · cases h
          exact .stay
  | release =>
      simp only [stepTask, release] at h
      split at h
      · cases h
      · split at h
        · split at h
          · exact (advance_taskMoves h :)
          · exact advance_taskMoves h
        · cases h

theorem step_taskMoves {label : ConversationLabel} (h : s.step macos pid label = some s') :
    TaskMoves s.shutdown s.task s'.task := by
  cases label with
  | stop | arrive _ =>
      cases h
      exact .stay
  | depart =>
      simp only [step] at h
      split at h
      · cases h
      · cases h
        exact .stay
  | serve label => exact serves_taskMoves (stepServe_serves h)
  | task label => exact stepTask_taskMoves h
  | reader label =>
      simp only [step, stepReader] at h
      split at h
      · cases h
        unfold readTun
        split
        · split
          · exact .stay
          · exact .stay
        · exact .stay
        · exact .stay
      · unfold sendResponse at h
        split at h
        · cases h
          exact .stay
        · split at h
          · cases h
            exact .stay
          · cases h
      · exact (advance_taskMoves h :)
      · cases h

end Tasks

/-! ### What holds at any time -/

/-- The worker has been told to stop and has not been joined. -/
def isTold : SessionPhase → Bool
  | .closing _ _ | .joining _ _ => true
  | _ => false

structure Tidy (s : Conversation) : Prop where
  first : s.write = .calling ∨ s.write = .receiving → s.incoming.received < s.incoming.sent.length
  unsplit : s.read = .waiting → s.write = .greeting ∨ s.write = .first
  told : ∀ task, s.task = some task → isTold task.phase = true → s.stopRead = true
  reports : ∀ task, s.task = some task → task.reports.length ≤ task.phase.mayReport
  pending : s.toReport.length ≤ 2

section Tidy

variable {macos : Bool} {pid : UInt32} {s s' : Conversation}

/-- Before the stream is split, nothing but the greeting leaves it unsplit. -/
theorem stepServe_unsplit {label : ServeLabel} (hwrite : s.write = .greeting ∨ s.write = .first)
    (hread : s.read = .waiting) (h : s.stepServe macos pid label = some s')
    (hwaiting : s'.read = .waiting) : s'.write = .greeting ∨ s'.write = .first := by
  rcases hwrite with hwrite | hwrite
  · cases label with
    | greet =>
        simp only [stepServe, hwrite] at h
        split at h
        · cases h
          cases hwaiting
        · cases h
          exact Or.inr rfl
    | leave =>
        simp only [stepServe] at h
        cases h
        cases hwaiting
    | _ => simp [stepServe, hwrite, hread] at h
  · cases label with
    | first result =>
        simp only [stepServe, hwrite] at h
        split at h
        · cases h
          cases hwaiting
        · cases result with
          | message =>
              simp only [readFirst] at h
              split at h
              · cases h
              · split at h
                · cases h
                  cases hwaiting
                · cases h
                  cases hwaiting
          | closed | invalid =>
              cases h
              cases hwaiting
    | leave =>
        simp only [stepServe] at h
        cases h
        cases hwaiting
    | _ => simp [stepServe, hwrite, hread] at h

theorem serves_waiting (h : Serves macos pid s s') (hread : s'.read = .waiting) :
    s.read = .waiting := by
  cases h with
  | halt | stopDaemon _ _ | split _ _ | readEnd _ | readInvalid _ | readMessage _ _ | forward _
  | forwardError _ => cases hread
  | _ => exact hread

theorem stepServe_first {label : ServeLabel} (h : Tidy s)
    (hstep : s.stepServe macos pid label = some s') :
    s'.write = .calling ∨ s'.write = .receiving →
      s'.incoming.received < s'.incoming.sent.length := by
  intro hwrite'
  cases stepServe_serves hstep with
  | split _ _ =>
      have hle := s.incoming.received_le
      rw [Channel.sent_send, List.length_append, List.length_singleton]
      exact Nat.lt_succ_of_le hle
  | forward _ =>
      have hlt := h.first hwrite'
      rw [Channel.sent_send, List.length_append]
      exact Nat.lt_add_right _ hlt
  | call hwrite => exact h.first (Or.inl hwrite)
  | readEnd _ | readInvalid _ | readMessage _ _ => exact h.first hwrite'
  | _ => simp [halted, Conversation.reject] at hwrite'

theorem Tidy.serve {label : ServeLabel} (h : Tidy s)
    (hstep : s.stepServe macos pid label = some s')
    (hreports : ∀ task, s'.task = some task → task.reports.length ≤ task.phase.mayReport) :
    Tidy s' where
  first := stepServe_first h hstep
  unsplit := by
    intro hwaiting
    have hread := serves_waiting (stepServe_serves hstep) hwaiting
    exact stepServe_unsplit (h.unsplit hread) hread hstep hwaiting
  told := by
    cases stepServe_serves hstep with
    | spawn _ =>
        intro task ht
        cases ht
        intro htold
        cases htold
    | _ => exact h.told
  reports := hreports
  pending := by
    cases stepServe_serves hstep with
    | _ => exact h.pending

theorem told_enter {task : SessionTask} {phase : SessionPhase} {reports : List Status}
    (h : isTold phase = true → s.stopRead = true) :
    ∀ t, (s.enter task phase reports).task = some t → isTold t.phase = true →
      (s.enter task phase reports).stopRead = true := by
  intro t ht
  cases ht
  exact h

/-- A task that is at work has its receiver, so the connection is past its first message. -/
theorem Tidy.work (h : Tidy s) (ho : Orderly pid s) (hwork : Works s s')
    (hreports : ∀ task, s'.task = some task → task.reports.length ≤ task.phase.mayReport) :
    Tidy s' := by
  have hpast : ∀ task, s.task = some task → ¬ (s.write = .calling ∨ s.write = .receiving) := by
    intro task ht hwrite
    have hnone := (ho.fresh (by rcases hwrite with hw | hw <;> rw [hw] <;> rfl)).1
    rw [ht] at hnone
    cases hnone
  cases hwork with
  | begin phase ht hp hp' =>
      refine ⟨h.first, h.unsplit, told_enter ?_, hreports, h.pending⟩
      rcases hp' with rfl | rfl <;> exact fun htold => by cases htold
  | startFailed _ _ _ | started _ _ _ | announce _ _ _ | announceLost _ _ _
  | releaseCancelled _ _ _ | release _ _ _ =>
      exact ⟨h.first, h.unsplit, told_enter (fun htold => by cases htold), hreports, h.pending⟩
  | join ht _ | releaseFailed ht _ _ =>
      refine ⟨h.first, h.unsplit, told_enter (fun htold => by cases htold), hreports, ?_⟩
      exact (List.length_map _).le.trans ((h.reports _ ht).trans (SessionPhase.mayReport_le _))
  | take ht _ _ =>
      exact ⟨fun hw => absurd hw (hpast _ ht), h.unsplit,
        told_enter (fun htold => by cases htold), hreports, h.pending⟩
  | takeLast _ ht _ _ =>
      exact ⟨fun hw => absurd hw (hpast _ ht), h.unsplit, fun _ _ _ => rfl, hreports, h.pending⟩
  | endLoop _ _ _ => exact ⟨h.first, h.unsplit, fun _ _ _ => rfl, hreports, h.pending⟩
  | close _ _ ht hp =>
      refine ⟨h.first, h.unsplit, told_enter fun _ => ?_, hreports, h.pending⟩
      exact h.told _ ht (by rw [hp]; rfl)
  | report hreport _ | reportLost hreport =>
      have hpending := h.pending
      rw [hreport] at hpending
      exact ⟨h.first, h.unsplit, h.told, hreports, (Nat.le_succ _).trans hpending⟩

theorem ReaderEnds.isTold {error : Option String} {phase phase' : SessionPhase}
    (h : ReaderEnds error phase phase') :
    Conversation.isTold phase' = Conversation.isTold phase := by
  cases h with
  | looping _ | closing _ | joining _ => rfl

theorem Tidy.read (h : Tidy s) (hread : ReadsTun s s')
    (hreports : ∀ task, s'.task = some task → task.reports.length ≤ task.phase.mayReport) :
    Tidy s' := by
  cases hread with
  | done _ ht hp =>
      exact ⟨h.first, h.unsplit, told_enter fun htold => h.told _ ht (hp.isTold ▸ htold), hreports,
        h.pending⟩
  | _ => exact ⟨h.first, h.unsplit, h.told, hreports, h.pending⟩

theorem TaskMoves.reports {shutdown : Bool} {task? task?' : Option SessionTask}
    (h : ∀ task, task? = some task → task.reports.length ≤ task.phase.mayReport)
    (hmove : TaskMoves shutdown task? task?') :
    ∀ task, task?' = some task → task.reports.length ≤ task.phase.mayReport := by
  cases hmove with
  | stay => exact h
  | spawn name =>
      intro task ht
      cases ht
      exact Nat.le_refl 0
  | @move task phase reports effect event ht hstep =>
      intro task' ht'
      cases ht'
      have hbound := h task ht
      have hmore := SessionPhase.step_mayReport hstep
      show (task.reports ++ reports).length ≤ phase.mayReport
      rw [List.length_append]
      omega

theorem tidy_step {label : ConversationLabel} (h : Tidy s) (ho : Orderly pid s)
    (hstep : s.step macos pid label = some s') : Tidy s' := by
  have hreports := (step_taskMoves hstep).reports h.reports
  cases label with
  | stop | arrive _ =>
      cases hstep
      exact ⟨h.first, h.unsplit, h.told, h.reports, h.pending⟩
  | depart =>
      simp only [step] at hstep
      split at hstep
      · cases hstep
      · cases hstep
        exact ⟨h.first, h.unsplit, h.told, h.reports, h.pending⟩
  | serve label => exact h.serve hstep hreports
  | task label => exact h.work ho (stepTask_works hstep) hreports
  | reader label => exact h.read (stepReader_readsTun hstep) hreports

end Tidy

/-! ### The steps after the shutdown -/

def taskLeft : Option SessionTask → Nat
  | none => 0
  | some task => task.phase.left

/-- What the task and its worker have still to do. -/
def sessionLeft (s : Conversation) : Nat :=
  taskLeft s.task + s.reader.left s.stopRead + s.toReport.length

/-- What all parties have still to do. -/
def left (s : Conversation) : Nat := s.write.left + s.read.left + s.sessionLeft

/-- The steps that the daemon takes of itself.  The worker is not counted until it has been
told to stop, and packets come from the system. -/
def own (s : Conversation) : ConversationLabel → Bool
  | .stop | .arrive _ | .depart | .serve .leave | .reader (.tun (.packet _)) => false
  | .serve _ | .task _ => true
  | .reader _ => s.stopRead

/-- Both halves of the connection, the task and its worker have come to their end, and the
task has tried to report all it had to report. -/
structure Over (s : Conversation) : Prop where
  read : s.read = .ended
  write : s.write = .ended
  task : ∀ task, s.task = some task → task.phase.isFinished = true
  reader : s.reader = .idle ∨ s.reader = .ended
  reported : s.toReport = []

structure Stopping (pid : UInt32) (s : Conversation) : Prop where
  shutdown : s.shutdown = true
  orderly : Orderly pid s
  tidy : Tidy s

section Stopping

variable {macos : Bool} {pid : UInt32} {s s' : Conversation}

theorem shutdown_step {label : ConversationLabel} (h : s.shutdown = true)
    (hstep : s.step macos pid label = some s') : s'.shutdown = true := by
  cases step_moves hstep with
  | stop => rfl
  | arrive _ | depart _ => exact h
  | serve hserve =>
      cases hserve with
      | stopDaemon _ _ => rfl
      | _ => exact h
  | task hwork =>
      cases hwork with
      | _ => exact h
  | reader hread =>
      cases hread with
      | _ => exact h

theorem Stopping.step {label : ConversationLabel} (h : Stopping pid s)
    (hstep : s.step macos pid label = some s') : Stopping pid s' where
  shutdown := shutdown_step h.shutdown hstep
  orderly := orderly_step h.orderly hstep
  tidy := tidy_step h.tidy h.orderly hstep

theorem left_lt_of_write (hwrite : s'.write.left < s.write.left)
    (hread : s'.read.left ≤ s.read.left) (hsession : s'.sessionLeft = s.sessionLeft) :
    s'.left < s.left := by
  unfold left
  omega

theorem left_lt_of_read (hwrite : s'.write.left ≤ s.write.left)
    (hread : s'.read.left < s.read.left) (hsession : s'.sessionLeft = s.sessionLeft) :
    s'.left < s.left := by
  unfold left
  omega

theorem halted_le (s : Conversation) : s.halted.left ≤ s.left :=
  Nat.add_le_add_right (Nat.zero_le _) _

/-- The read half gives up its message, or it is put with the others. -/
theorem forward_spends {item : Except Status ClientMessage} (hread : s.read = .sending item)
    (h : s.forward item = some s') : s'.left < s.left := by
  have hended : ReadHalf.left .ended < s.read.left := by
    rw [hread]
    exact Nat.zero_lt_two
  unfold forward at h
  cases item with
  | ok message =>
      simp only at h
      split_ifs at h
      · cases h
        refine left_lt_of_read (Nat.le_refl _) ?_ rfl
        rw [hread]
        exact Nat.one_lt_two
      · cases h
        exact left_lt_of_read (Nat.le_refl _) hended rfl
  | error status =>
      simp only at h
      split_ifs at h
      · cases h
        exact left_lt_of_read (Nat.zero_le _) hended rfl
      · cases h
        exact left_lt_of_read (Nat.zero_le _) hended rfl

theorem receiveFirst_spends (hwrite : s.write = .receiving)
    (h : s.receiveFirst macos = some s') : s'.left < s.left := by
  have hrejected : ∀ status, WriteHalf.left (.rejected status) < s.write.left := by
    intro status
    rw [hwrite]
    exact (by decide : 1 < 5)
  unfold receiveFirst at h
  split at h
  · split at h
    · cases h
      exact left_lt_of_write (hrejected _) (Nat.le_refl _) rfl
    · cases h
  · cases h
    exact left_lt_of_write (hrejected _) (Nat.le_refl _) rfl
  · split at h
    · cases h
      exact left_lt_of_write (hrejected _) (Nat.le_refl _) rfl
    · cases h
      refine left_lt_of_write ?_ (Nat.le_refl _) rfl
      rw [hwrite]
      exact Nat.lt_succ_self 4

/-- A task that is spawned now is cancelled as soon as it is polled. -/
theorem lockSessions_spends {config : TunSessionConfig} (hwrite : s.write = .locking config)
    (active : Finset String) : (s.lockSessions config active).left < s.left := by
  unfold lockSessions
  split
  · refine left_lt_of_write ?_ (Nat.le_refl _) rfl
    rw [hwrite]
    exact (by decide : 1 < 4)
  · show 1 + s.read.left + (2 + s.reader.left s.stopRead + s.toReport.length) < s.left
    rw [left, sessionLeft, hwrite]
    show _ < 4 + s.read.left + _
    omega

theorem Stopping.serve_spends {label : ServeLabel} (h : Stopping pid s) (hne : label ≠ .leave)
    (hstep : s.stepServe macos pid label = some s') : s'.left < s.left := by
  have hstop := h.shutdown
  unfold stepServe at hstep
  split at hstep
  next hwrite =>
    rw [if_pos hstop] at hstep
    cases hstep
    exact left_lt_of_write (by rw [hwrite]; exact Nat.one_pos) (Nat.zero_le _) rfl
  next hwrite =>
    rw [if_pos hstop] at hstep
    cases hstep
    exact left_lt_of_write (by rw [hwrite]; exact Nat.one_pos) (Nat.zero_le _) rfl
  next hread =>
    rw [if_pos hstop] at hstep
    cases hstep
    exact left_lt_of_read (Nat.le_refl _) (by rw [hread]; exact Nat.one_pos) rfl
  next item hread => exact forward_spends hread hstep
  next hwrite =>
    rw [if_pos hstop] at hstep
    cases hstep
    exact left_lt_of_write (by rw [hwrite]; exact Nat.one_lt_two) (Nat.le_refl _) rfl
  next hwrite => exact receiveFirst_spends hwrite hstep
  next active config hwrite =>
    cases hstep
    exact lockSessions_spends hwrite active
  next status hwrite =>
    rw [if_pos hstop] at hstep
    cases hstep
    exact left_lt_of_write (by rw [hwrite]; exact Nat.one_pos) (Nat.le_refl _) rfl
  next hwrite =>
    rw [if_pos hstop] at hstep
    cases hstep
    exact left_lt_of_write (by rw [hwrite]; exact Nat.one_pos) (Nat.le_refl _) rfl
  next message hwrite =>
    rw [if_pos hstop] at hstep
    cases hstep
    exact left_lt_of_write (by rw [hwrite]; exact Nat.one_pos) (Nat.le_refl _) rfl
  · exact absurd rfl hne
  · cases hstep

theorem advance_spends {event : SessionEvent} (hstop : s.shutdown = true)
    (h : s.advance event = some s') : s'.left + SessionPhase.cost event ≤ s.left := by
  obtain ⟨task, phase, reports, effect, ht, hstep, rfl⟩ := advance_eq_some h
  rw [hstop] at hstep
  have hphase := SessionPhase.step_left hstep
  show s.write.left + s.read.left + (phase.left + s.reader.left s.stopRead + s.toReport.length) +
    SessionPhase.cost event ≤ s.left
  rw [left, sessionLeft, ht]
  show _ ≤ s.write.left + s.read.left + (task.phase.left + _ + _)
  omega

theorem reader_left_told (reader : ReaderThread) (stopRead : Bool) :
    reader.left true ≤ reader.left stopRead := by
  cases reader with
  | sending _ _ | finishing _ =>
      cases stopRead with
      | true => exact Nat.le_refl _
      | false => simp [ReaderThread.left]
  | _ => exact Nat.le_refl _

theorem afterTurn_le (s : Conversation) : s.afterTurn.left ≤ s.left := by
  unfold afterTurn
  split
  · have htold := reader_left_told s.reader s.stopRead
    show s.write.left + s.read.left + (taskLeft s.task + s.reader.left true + s.toReport.length) ≤
      s.left
    rw [left, sessionLeft]
    omega
  · exact Nat.le_refl _

theorem left_reading (s : Conversation) (responses : Channel (Except Status ServerMessage)) :
    { s with responses := responses, reader := .reading }.left ≤ s.left + 3 := by
  show s.write.left + s.read.left + (taskLeft s.task + 3 + s.toReport.length) ≤ s.left + 3
  rw [left, sessionLeft]
  omega

theorem announce_spends (hstop : s.shutdown = true) (h : s.announce = some s') :
    s'.left < s.left := by
  have hspends : ∀ responses,
      { s with responses := responses, reader := .reading }.advance .announced = some s' →
        s'.left < s.left := by
    intro responses hadvance
    have hcost : s'.left + 4 ≤ _ := advance_spends (by exact hstop) hadvance
    have hmore := left_reading s responses
    omega
  unfold announce at h
  split at h
  · split at h
    · split at h
      · exact hspends _ h
      · cases h
    · exact hspends _ h
  · cases h

/-- The loop sees the shutdown before anything else. -/
theorem wake_spends {wake : Wake} (hstop : s.shutdown = true)
    (h : (s.turn wake).map afterTurn = some s') : s'.left < s.left := by
  obtain ⟨mid, hmid, rfl⟩ := Option.map_eq_some_iff.mp h
  unfold turn at hmid
  rw [if_pos hstop] at hmid
  have hcost : mid.left + 1 ≤ s.left := advance_spends hstop hmid
  have hafter := afterTurn_le mid
  omega

theorem Stopping.join_spends (h : Stopping pid s) (hstep : s.joinReader = some s') :
    s'.left < s.left := by
  unfold joinReader at hstep
  split at hstep
  · cases hstep
  next task ht =>
    have hcost : s'.left + 3 ≤ _ := advance_spends (by exact h.shutdown) hstep
    have hreports : task.reports.length ≤ 2 :=
      (h.tidy.reports task ht).trans task.phase.mayReport_le
    have hmore : { s with
        toReport := task.reports.map fun status => .ok (errorMessage status) }.left ≤
          s.left + 2 := by
      show s.write.left + s.read.left + (taskLeft s.task + s.reader.left s.stopRead +
        (task.reports.map _).length) ≤ s.left + 2
      rw [left, sessionLeft, List.length_map]
      omega
    omega

theorem report_spends (h : s.report = some s') : s'.left < s.left := by
  unfold report at h
  split at h
  · cases h
  next item rest hreport =>
    have hless : ∀ t : Conversation, t.write = s.write → t.read = s.read → t.task = s.task →
        t.reader = s.reader → t.stopRead = s.stopRead → t.toReport = rest → t.left < s.left := by
      intro t hwrite hread htask hreader htold hrest
      rw [left, left, sessionLeft, sessionLeft, hwrite, hread, htask, hreader, htold, hrest,
        hreport, List.length_cons]
      omega
    split at h
    · cases h
      exact hless _ rfl rfl rfl rfl rfl rfl
    · cases h
      exact hless _ rfl rfl rfl rfl rfl rfl

theorem Stopping.release_spends (h : Stopping pid s) (hstep : s.release = some s') :
    s'.left < s.left := by
  unfold Conversation.release at hstep
  split at hstep
  · cases hstep
  next task ht =>
    split at hstep
    next hdone =>
      split at hstep
      next hp =>
        obtain ⟨task', phase, reports, effect, ht', hphase, rfl⟩ := advance_eq_some hstep
        obtain rfl : task = task' := Option.some.inj (ht.symm.trans ht')
        rw [hp] at hphase
        cases hphase
        have hreports := h.tidy.reports task ht
        rw [hp] at hreports
        show s.write.left + s.read.left + (0 + s.reader.left s.stopRead +
          (task.reports.map _).length) < s.left
        rw [left, sessionLeft, ht, hdone, List.length_map]
        show _ < s.write.left + s.read.left + (task.phase.left + _ + 0)
        rw [hp]
        show _ < s.write.left + s.read.left + (2 + _ + 0)
        have hone : task.reports.length ≤ 1 := hreports
        omega
      · have hcost : s'.left + 1 ≤ s.left := advance_spends h.shutdown hstep
        omega
    · cases hstep

theorem Stopping.task_spends {label : TaskLabel} (h : Stopping pid s)
    (hstep : s.stepTask label = some s') : s'.left < s.left := by
  cases label with
  | begin | started _ | closed _ =>
      have hcost : s'.left + 1 ≤ s.left := advance_spends h.shutdown hstep
      exact hcost
  | announce => exact announce_spends h.shutdown hstep
  | wake wake => exact wake_spends h.shutdown hstep
  | join => exact h.join_spends hstep
  | report => exact report_spends hstep
  | release => exact h.release_spends hstep

/-- Where only the worker has moved, only its steps make a difference. -/
theorem left_of_reader (hwrite : s'.write = s.write) (hread : s'.read = s.read)
    (htask : s'.task = s.task) (hreport : s'.toReport = s.toReport) :
    s'.left + s.reader.left s.stopRead = s.left + s'.reader.left s'.stopRead := by
  rw [left, left, sessionLeft, sessionLeft, hwrite, hread, htask, hreport]
  omega

/-- The worker ends, and its task hears of it. -/
theorem done_spends {error : Option String} (hstop : s.shutdown = true)
    (hreader : s.reader = .finishing error)
    (h : { s with reader := .ended }.advance (.readerEnded error) = some s') :
    s'.left < s.left := by
  have hcost : s'.left + 0 ≤ { s with reader := .ended }.left := advance_spends (by exact hstop) h
  have hset : { s with reader := .ended }.left + s.reader.left s.stopRead = s.left + 0 :=
    left_of_reader rfl rfl rfl rfl
  have hone : 0 < s.reader.left s.stopRead := by
    rw [hreader]
    cases s.stopRead with
    | true => exact Nat.one_pos
    | false => exact Nat.zero_lt_succ 2
  omega

/-- A packet may still come from the TUN, but then the worker is further. -/
theorem readTun_left (result : TunRead) (hreader : s.reader = .reading) :
    (s.readTun result).left ≤ s.left := by
  have hthree : s.reader.left s.stopRead = 3 := by rw [hreader]; rfl
  have hle : ∀ s' : Conversation, s'.write = s.write → s'.read = s.read → s'.task = s.task →
      s'.toReport = s.toReport → s'.reader.left s'.stopRead ≤ 3 → s'.left ≤ s.left := by
    intro s' hwrite hread htask hreport hthree'
    have hset := left_of_reader hwrite hread htask hreport
    omega
  have hbound : ∀ (stopRead : Bool) (reader : ReaderThread), reader.left stopRead ≤ 3 := by
    intro stopRead reader
    cases stopRead <;> cases reader <;> simp [ReaderThread.left]
  cases result with
  | packet data =>
      simp only [readTun]
      split
      · exact hle _ rfl rfl rfl rfl (hbound _ _)
      · exact hle _ rfl rfl rfl rfl (hbound _ _)
  | interrupted => exact hle _ rfl rfl rfl rfl (hbound _ _)
  | failed e => exact hle _ rfl rfl rfl rfl (hbound _ _)

/-- A worker that has been told to stop sends nothing more. -/
theorem reader_spends {label : ReaderLabel} (hstop : s.shutdown = true) (htold : s.stopRead = true)
    (hne : ∀ data, label ≠ .tun (.packet data)) (h : s.stepReader label = some s') :
    s'.left < s.left := by
  have hless : ∀ t : Conversation, t.write = s.write → t.read = s.read → t.task = s.task →
      t.toReport = s.toReport → t.reader.left t.stopRead < s.reader.left s.stopRead →
      t.left < s.left := by
    intro t hwrite hread htask hreport hlt
    have hset := left_of_reader hwrite hread htask hreport
    omega
  unfold stepReader at h
  split at h
  next result hreader =>
    cases h
    rw [hreader, htold] at hless
    cases result with
    | packet data => exact absurd rfl (hne data)
    | interrupted =>
        refine hless _ rfl rfl rfl rfl ?_
        show ReaderThread.left s.stopRead (.finishing none) < 3
        rw [htold]
        exact (by decide : 1 < 3)
    | failed e =>
        refine hless _ rfl rfl rfl rfl ?_
        show (if s.stopRead then 2 else 3) < 3
        rw [htold]
        exact (by decide : 2 < 3)
  next message error hreader =>
    have hfirst : (s.stopRead || !s.responsesOpen) = true := by rw [htold, Bool.true_or]
    unfold sendResponse at h
    rw [if_pos hfirst] at h
    cases h
    refine hless _ rfl rfl rfl rfl ?_
    rw [hreader]
    have hfinishing : afterResponse false error = .finishing error := by
      cases error with
      | none => rfl
      | some e => rfl
    show ReaderThread.left s.stopRead (afterResponse false error) < _
    rw [hfinishing, htold]
    exact Nat.one_lt_two
  next error hreader => exact done_spends hstop hreader h
  · cases h

/-- What the worker does before it is told to stop. -/
theorem reader_waits {label : ReaderLabel} (hstop : s.shutdown = true)
    (h : s.stepReader label = some s') : s'.left ≤ s.left := by
  by_cases hown : s.stopRead = true ∧ ∀ data, label ≠ .tun (.packet data)
  · exact (reader_spends hstop hown.1 hown.2 h).le
  · unfold stepReader at h
    split at h
    next result hreader =>
      cases h
      exact readTun_left result hreader
    next message error hreader =>
      have htold : s.stopRead = false := by
        cases hb : s.stopRead with
        | true => exact absurd ⟨hb, by simp⟩ hown
        | false => rfl
      have hthree : s.reader.left s.stopRead = 3 := by rw [hreader, htold]; rfl
      have hle : ∀ (sent : Bool) (responses : Channel (Except Status ServerMessage)),
          { s with responses := responses, reader := afterResponse sent error }.left ≤ s.left := by
        intro sent responses
        have hset : { s with responses := responses, reader := afterResponse sent error }.left +
            s.reader.left s.stopRead = s.left + (afterResponse sent error).left s.stopRead :=
          left_of_reader rfl rfl rfl rfl
        have hbound : (afterResponse sent error).left s.stopRead ≤ 3 := by
          rw [htold]
          cases error <;> cases sent <;> exact Nat.le_refl 3
        omega
      unfold sendResponse at h
      split at h
      · cases h
        exact hle false s.responses
      · split at h
        · cases h
          exact hle true _
        · cases h
    next error hreader => exact (done_spends hstop hreader h).le
    · cases h

theorem Stopping.spends {label : ConversationLabel} (h : Stopping pid s)
    (hown : s.own label = true) (hstep : s.step macos pid label = some s') :
    s'.left < s.left := by
  cases label with
  | stop | arrive _ | depart => cases hown
  | serve label =>
      refine h.serve_spends ?_ hstep
      rintro rfl
      cases hown
  | task label => exact h.task_spends hstep
  | reader label =>
      have hne : ∀ data, label ≠ .tun (.packet data) := by
        rintro data rfl
        cases hown
      have htold : s.stopRead = true := by
        cases label with
        | tun result =>
            cases result with
            | packet data => exact absurd rfl (hne data)
            | _ => exact hown
        | _ => exact hown
      exact reader_spends h.shutdown htold hne hstep

theorem Stopping.waits {label : ConversationLabel} (h : Stopping pid s)
    (hown : s.own label = false) (hstep : s.step macos pid label = some s') :
    s'.left ≤ s.left := by
  cases label with
  | stop | arrive _ =>
      cases hstep
      exact Nat.le_refl _
  | depart =>
      simp only [Conversation.step] at hstep
      split at hstep
      · cases hstep
      · cases hstep
        exact Nat.le_refl _
  | serve label =>
      cases label with
      | leave =>
          simp only [Conversation.step, stepServe] at hstep
          cases hstep
          exact halted_le s
      | _ => cases hown
  | task label => cases hown
  | reader label => exact reader_waits h.shutdown hstep

/-! ### Nobody is left waiting -/

/-- A write half gives up wherever it stands; `session` has its first message. -/
theorem Stopping.write_ready (h : Stopping pid s) (hwrite : s.write ≠ .ended) :
    ∃ l, s.own l = true ∧ (s.step macos pid l).isSome = true := by
  have hstop := h.shutdown
  cases hw : s.write with
  | greeting => exact ⟨.serve .greet, rfl, by simp [Conversation.step, stepServe, hw, hstop]⟩
  | first =>
      exact ⟨.serve (.first .closed), rfl, by simp [Conversation.step, stepServe, hw, hstop]⟩
  | calling => exact ⟨.serve .call, rfl, by simp [Conversation.step, stepServe, hw, hstop]⟩
  | receiving =>
      refine ⟨.serve .receive, rfl, ?_⟩
      have hlt := h.tidy.first (Or.inr hw)
      have hreceive : s.incoming.receive.isSome = true := by simp [Channel.receive, hlt]
      obtain ⟨⟨item, incoming⟩, hitem⟩ := Option.isSome_iff_exists.mp hreceive
      simp only [Conversation.step, stepServe, hw, receiveFirst, hitem]
      cases item with
      | error status => rfl
      | ok message =>
          simp only
          split
          · rfl
          · rfl
  | locking config => exact ⟨.serve (.lock ∅), rfl, by simp [Conversation.step, stepServe, hw]⟩
  | rejected status =>
      exact ⟨.serve .reject, rfl, by simp [Conversation.step, stepServe, hw, hstop]⟩
  | responding => exact ⟨.serve .next, rfl, by simp [Conversation.step, stepServe, hw, hstop]⟩
  | writing message =>
      exact ⟨.serve .wrote, rfl, by simp [Conversation.step, stepServe, hw, hstop]⟩
  | ended => exact absurd hw hwrite

theorem advance_isSome {event : SessionEvent} {task : SessionTask} (ht : s.task = some task)
    (h : (task.phase.step task.name s.shutdown event).isSome = true) :
    (s.advance event).isSome = true := by
  obtain ⟨⟨phase, reports, effect⟩, hstep⟩ := Option.isSome_iff_exists.mp h
  simp [advance, ht, SessionTask.step, hstep]

/-- A worker that has been told to stop is not held up by a full queue. -/
theorem Stopping.worker_ready (h : Stopping pid s) {task : SessionTask} {tun : TunSession}
    (ht : s.task = some task) (hp : task.phase = .joining tun .running) :
    ∃ l, s.own l = true ∧ (s.step macos pid l).isSome = true := by
  have htold : s.stopRead = true := h.tidy.told task ht (by rw [hp]; rfl)
  have hinLoop : InLoop .running task.phase := hp ▸ InLoop.joining tun
  have hworker : Worker s.reader .running := by
    have hstaged := h.orderly.staged
    rw [ht, staged_of_inLoop hinLoop] at hstaged
    exact hstaged.2
  cases hr : s.reader with
  | reading =>
      exact ⟨.reader (.tun .interrupted), htold, by simp [Conversation.step, stepReader, hr]⟩
  | sending message error =>
      exact ⟨.reader .respond, htold, by
        simp [Conversation.step, stepReader, hr, sendResponse, htold]⟩
  | finishing error =>
      refine ⟨.reader .done, htold, ?_⟩
      simp only [Conversation.step, stepReader, hr]
      refine advance_isSome ht ?_
      rw [hp]
      rfl
  | idle | ended =>
      rw [hr] at hworker
      exact hworker.elim

theorem report_ready (h : s.toReport ≠ []) :
    ∃ l, s.own l = true ∧ (s.step macos pid l).isSome = true := by
  refine ⟨.task .report, rfl, ?_⟩
  obtain ⟨item, rest, hcons⟩ := List.exists_cons_of_ne_nil h
  simp only [Conversation.step, stepTask, report, hcons]
  split
  · rfl
  · rfl

theorem Stopping.task_ready (h : Stopping pid s) {task : SessionTask} (ht : s.task = some task)
    (hwrite : s.write = .ended) (hphase : task.phase.isFinished = false) :
    ∃ l, s.own l = true ∧ (s.step macos pid l).isSome = true := by
  by_cases hreport : s.toReport = []
  · cases hp : task.phase with
    | spawned => exact ⟨.task .begin, rfl, advance_isSome ht (by rw [hp]; rfl)⟩
    | starting =>
        exact ⟨.task (.started (.error "")), rfl, advance_isSome ht (by rw [hp]; rfl)⟩
    | announcing tun =>
        -- Nobody receives the responses any more, so there is nothing to wait for.
        have hclosed : s.responsesOpen = false := by simp [responsesOpen, hwrite]
        obtain ⟨name, phase, reports⟩ := task
        cases hp
        refine ⟨.task .announce, rfl, ?_⟩
        simp only [Conversation.step, stepTask, announce, ht, hclosed, Bool.false_eq_true, if_false]
        exact advance_isSome rfl rfl
    | looping tun reader =>
        refine ⟨.task (.wake .responsesClosed), rfl, ?_⟩
        simp only [Conversation.step, stepTask, turn, h.shutdown, if_true, Option.isSome_map]
        refine advance_isSome ht ?_
        rw [hp, h.shutdown]
        rfl
    | closing tun reader =>
        exact ⟨.task (.closed (.ok ())), rfl, advance_isSome ht (by rw [hp]; rfl)⟩
    | joining tun reader =>
        cases reader with
        | running => exact h.worker_ready ht hp
        | ended error =>
            refine ⟨.task .join, rfl, ?_⟩
            simp only [Conversation.step, stepTask, joinReader, ht]
            exact advance_isSome rfl (by rw [hp]; rfl)
    | cancelled | releasing _ =>
        refine ⟨.task .release, rfl, ?_⟩
        simp only [Conversation.step, stepTask, release, ht, hreport, if_true, hp]
        exact advance_isSome ht (by rw [hp]; rfl)
    | startFailed =>
        refine ⟨.task .release, rfl, ?_⟩
        simp only [Conversation.step, stepTask, release, ht, hreport, if_true, hp]
        exact advance_isSome rfl (by rw [hp]; rfl)
    | finished tun =>
        rw [hp] at hphase
        cases hphase
  · exact report_ready hreport

/-- Once the task has dropped its receiver nothing holds up the read half. -/
theorem Stopping.read_ready (h : Stopping pid s) (hwrite : s.write = .ended)
    (hfinished : ∀ task, s.task = some task → task.phase.isFinished = true)
    (hread : s.read ≠ .ended) : ∃ l, s.own l = true ∧ (s.step macos pid l).isSome = true := by
  have hclosed : s.incomingOpen = false := by
    unfold incomingOpen
    cases ht : s.task with
    | none => simp [hwrite]
    | some task => simp [hfinished task ht]
  cases hr : s.read with
  | waiting => rcases h.tidy.unsplit hr with hw | hw <;> simp [hwrite] at hw
  | reading =>
      exact ⟨.serve (.read .closed), rfl, by
        simp [Conversation.step, stepServe, hwrite, hr, h.shutdown]⟩
  | sending item =>
      refine ⟨.serve .forward, rfl, ?_⟩
      cases item with
      | ok message => simp [Conversation.step, stepServe, hwrite, hr, forward, hclosed]
      | error status => simp [Conversation.step, stepServe, hwrite, hr, forward, hclosed]
  | ended => exact absurd hr hread

theorem Stopping.reader_over (h : Stopping pid s)
    (hfinished : ∀ task, s.task = some task → task.phase.isFinished = true) :
    s.reader = .idle ∨ s.reader = .ended := by
  have hstaged := h.orderly.staged
  cases ht : s.task with
  | none =>
      rw [ht] at hstaged
      exact Or.inl hstaged.1
  | some task =>
      have hphase := hfinished task ht
      obtain ⟨name, phase, reports⟩ := task
      rw [ht] at hstaged
      cases phase with
      | finished tun =>
          cases tun with
          | none => exact Or.inl hstaged.1
          | some tun => exact Or.inr hstaged.1
      | _ => cases hphase

theorem Stopping.ready (h : Stopping pid s) (hover : ¬ s.Over) :
    ∃ l s', s.own l = true ∧ s.step macos pid l = some s' := by
  have henabled : ∃ l, s.own l = true ∧ (s.step macos pid l).isSome = true := by
    by_cases hwrite : s.write = .ended
    · by_cases htask : ∃ task, s.task = some task ∧ task.phase.isFinished = false
      · obtain ⟨task, ht, hphase⟩ := htask
        exact h.task_ready ht hwrite hphase
      · have hfinished : ∀ task, s.task = some task → task.phase.isFinished = true := by
          intro task ht
          cases hp : task.phase.isFinished with
          | true => rfl
          | false => exact absurd ⟨task, ht, hp⟩ htask
        by_cases hreport : s.toReport = []
        · exact h.read_ready hwrite hfinished fun hread =>
            hover ⟨hread, hwrite, hfinished, h.reader_over hfinished, hreport⟩
        · exact report_ready hreport
    · exact h.write_ready hwrite
  obtain ⟨l, hown, hsome⟩ := henabled
  obtain ⟨s', hs'⟩ := Option.isSome_iff_exists.mp hsome
  exact ⟨l, s', hown, hs'⟩

end Stopping

theorem windsDown (macos : Bool) (pid : UInt32) :
    WindsDown (step macos pid) (Stopping pid) own Over left where
  keeps := fun h hstep => h.step hstep
  ready := fun h hover => h.ready hover
  spends := fun h hown hstep => h.spends hown hstep
  waits := fun h hown hstep => h.waits hown hstep

theorem worker_left_le {reader : ReaderThread} {known : Reader} (stopRead : Bool)
    (h : Worker reader known) : reader.left stopRead ≤ 3 := by
  cases reader with
  | idle | ended => exact Nat.zero_le 3
  | reading => exact Nat.le_refl 3
  | sending _ _ | finishing _ => cases stopRead <;> simp [ReaderThread.left]

/-- The worker is counted with the task until it runs. -/
theorem Staged.left_le {reader : ReaderThread} {toReport : List (Except Status ServerMessage)}
    {task : Option SessionTask} {stopRead : Bool} (h : Staged reader toReport task)
    (hpending : toReport.length ≤ 2) :
    taskLeft task + reader.left stopRead + toReport.length ≤ 11 := by
  cases task with
  | none =>
      obtain ⟨rfl, rfl⟩ := h
      exact Nat.zero_le 11
  | some task =>
      obtain ⟨name, phase, reports⟩ := task
      cases phase with
      | spawned | cancelled | starting | announcing _ | startFailed =>
          obtain ⟨rfl, rfl, _⟩ := h
          simp [taskLeft, SessionPhase.left, ReaderThread.left]
      | looping _ _ | closing _ _ | joining _ _ =>
          obtain ⟨rfl, hworker⟩ := h
          have hle := worker_left_le stopRead hworker
          simp only [taskLeft, SessionPhase.left, List.length_nil]
          omega
      | releasing _ =>
          obtain ⟨rfl, _⟩ := h
          simp only [taskLeft, SessionPhase.left, ReaderThread.left]
          omega
      | finished tun =>
          cases tun with
          | none =>
              obtain ⟨rfl, _⟩ := h
              simp only [taskLeft, SessionPhase.left, ReaderThread.left]
              omega
          | some _ =>
              obtain ⟨rfl, _⟩ := h
              simp only [taskLeft, SessionPhase.left, ReaderThread.left]
              omega

/-- The task has not been spawned while the write half counts its steps. -/
theorem Stopping.left_le {pid : UInt32} {s : Conversation} (h : Stopping pid s) : s.left ≤ 14 := by
  have hread : s.read.left ≤ 2 := by cases s.read <;> simp [ReadHalf.left]
  have hsession : s.sessionLeft ≤ 11 := h.orderly.staged.left_le h.tidy.pending
  by_cases hopening : opening s.write = true
  · have htask := (h.orderly.fresh hopening).1
    have hstaged := h.orderly.staged
    rw [htask] at hstaged
    have hwrite : s.write.left ≤ 5 := by cases s.write <;> simp [WriteHalf.left]
    have hzero : s.sessionLeft = 0 := by
      simp only [sessionLeft, htask, hstaged.1, hstaged.2]
      rfl
    unfold left
    omega
  · have hwrite : s.write.left ≤ 1 := by
      cases hw : s.write with
      | greeting | first | calling | receiving | locking _ =>
          exact absurd (by rw [hw]; rfl) hopening
      | _ => simp [WriteHalf.left]
    unfold left
    omega

end Conversation
end Daemon
end WgKotlin
