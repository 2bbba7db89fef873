import WgKotlin.Daemon.Conversation

/-!
# The steps of one connection

One relation for each party says what a step of it can do, with the conditions
that the invariants need.  Where a channel is full or closed, a step that sends
and one that does not are told apart.
-/

namespace WgKotlin
namespace Daemon
namespace Conversation

open Proto Library

/-! ### What a step of the connection can do -/

inductive Serves (macos : Bool) (pid : UInt32) (s : Conversation) : Conversation → Prop
  | halt : Serves macos pid s s.halted
  | greet (h : s.write = .greeting) :
      Serves macos pid s
        { s with outbound := s.outbound.send (readyMessage pid), write := .first }
  | stopDaemon {message : ClientMessage} {inbound : Channel ClientMessage}
      (h : s.write = .first) (hm : s.inbound.receive = some (message, inbound)) :
      Serves macos pid s { s.halted with inbound := inbound, shutdown := true }
  | split {message : ClientMessage} {inbound : Channel ClientMessage}
      (h : s.write = .first) (hm : s.inbound.receive = some (message, inbound)) :
      Serves macos pid s
        { s with
          inbound := inbound
          incoming := s.incoming.send (.ok message)
          read := .reading
          write := .calling }
  | readEnd (h : s.read ≠ .waiting) : Serves macos pid s { s with read := .ended }
  | readInvalid (h : s.read = .reading) :
      Serves macos pid s { s with read := .sending (.error invalidFrame) }
  | readMessage {message : ClientMessage} {inbound : Channel ClientMessage}
      (h : s.read = .reading) (hm : s.inbound.receive = some (message, inbound)) :
      Serves macos pid s { s with inbound := inbound, read := .sending (.ok message) }
  | forward {message : ClientMessage} (h : s.read = .sending (.ok message)) :
      Serves macos pid s { s with incoming := s.incoming.send (.ok message), read := .reading }
  | forwardError {status : Status} (h : s.read = .sending (.error status)) :
      Serves macos pid s { s.halted with incoming := s.incoming.send (.error status) }
  | call (h : s.write = .calling) : Serves macos pid s { s with write := .receiving }
  | refuse (status : Status)
      (h : s.write = .calling ∨ s.write = .receiving ∨ ∃ config, s.write = .locking config) :
      Serves macos pid s (s.reject status)
  | refuseFirst (status : Status) {item : Except Status ClientMessage}
      {incoming : Channel (Except Status ClientMessage)} (h : s.write = .receiving)
      (hm : s.incoming.receive = some (item, incoming)) :
      Serves macos pid s ({ s with incoming := incoming }.reject status)
  | accept {message : ClientMessage} {incoming : Channel (Except Status ClientMessage)}
      {config : TunSessionConfig} (h : s.write = .receiving)
      (hm : s.incoming.receive = some (.ok message, incoming))
      (hconfig : checkFirst macos message = .ok config) :
      Serves macos pid s { s with incoming := incoming, write := .locking config }
  | spawn {config : TunSessionConfig} (h : s.write = .locking config) :
      Serves macos pid s
        { s with task := some (SessionTask.spawn config.interfaceName), write := .responding }
  | reject {status : Status} (h : s.write = .rejected status) :
      Serves macos pid s
        { s with outbound := s.outbound.send (errorMessage status), write := .ended }
  | writeEnd : Serves macos pid s { s with write := .ended }
  | next {item : Except Status ServerMessage} {responses : Channel (Except Status ServerMessage)}
      (h : s.write = .responding) (hm : s.responses.receive = some (item, responses)) :
      Serves macos pid s { s with responses := responses, write := .writing (frameOf item) }
  | wrote {message : ServerMessage} (h : s.write = .writing message) :
      Serves macos pid s { s with outbound := s.outbound.send message, write := .responding }

section Serves

variable {macos : Bool} {pid : UInt32} {s s' : Conversation}

theorem readFirst_serves {result : FrameRead} (hwrite : s.write = .first)
    (h : s.readFirst result = some s') : Serves macos pid s s' := by
  cases result with
  | message =>
      simp only [readFirst] at h
      split at h
      · cases h
      next message inbound hm =>
        split at h
        · cases h
          exact .stopDaemon hwrite hm
        · cases h
          exact .split hwrite hm
  | closed =>
      cases h
      exact .halt
  | invalid =>
      cases h
      exact .halt

theorem readNext_serves {result : FrameRead} (hread : s.read = .reading)
    (h : s.readNext result = some s') : Serves macos pid s s' := by
  cases result with
  | message =>
      simp only [readNext] at h
      split at h
      · cases h
      next message inbound hm =>
        cases h
        exact .readMessage hread hm
  | closed =>
      cases h
      exact .readEnd (by simp [hread])
  | invalid =>
      cases h
      exact .readInvalid hread

theorem forward_serves {item : Except Status ClientMessage} (hread : s.read = .sending item)
    (h : s.forward item = some s') : Serves macos pid s s' := by
  unfold forward at h
  cases item with
  | ok message =>
      simp only at h
      split_ifs at h
      · cases h
        exact .forward hread
      · cases h
        exact .readEnd (by simp [hread])
  | error status =>
      simp only at h
      split_ifs at h
      · cases h
        exact .forwardError hread
      · cases h
        exact .halt

theorem receiveFirst_serves (hwrite : s.write = .receiving)
    (h : s.receiveFirst macos = some s') : Serves macos pid s s' := by
  unfold receiveFirst at h
  split at h
  · split at h
    · cases h
      exact .refuse _ (Or.inr (Or.inl hwrite))
    · cases h
  next status incoming hm =>
    cases h
    exact .refuseFirst status hwrite hm
  next message incoming hm =>
    split at h
    next status _ =>
      cases h
      exact .refuseFirst status hwrite hm
    next config hconfig =>
      cases h
      exact .accept hwrite hm hconfig

theorem lockSessions_serves {config : TunSessionConfig} (hwrite : s.write = .locking config)
    (active : Finset String) : Serves macos pid s (s.lockSessions config active) := by
  unfold lockSessions
  split
  · exact .refuse _ (Or.inr (Or.inr ⟨config, hwrite⟩))
  · exact .spawn hwrite

theorem nextResponse_serves (hwrite : s.write = .responding)
    (h : s.nextResponse = some s') : Serves macos pid s s' := by
  unfold nextResponse at h
  split at h
  next item responses hm =>
    cases h
    exact .next hwrite hm
  · split at h
    · cases h
      exact .writeEnd
    · cases h

theorem stepServe_serves {label : ServeLabel} (h : s.stepServe macos pid label = some s') :
    Serves macos pid s s' := by
  unfold stepServe at h
  split at h
  next hwrite =>
    split at h
    · cases h
      exact .halt
    · cases h
      exact .greet hwrite
  next hwrite =>
    split at h
    · cases h
      exact .halt
    · exact readFirst_serves hwrite h
  next hread =>
    split at h
    · cases h
      exact .readEnd (by simp [hread])
    · exact readNext_serves hread h
  next item hread => exact forward_serves hread h
  next hwrite =>
    split at h
    · cases h
      exact .refuse _ (Or.inl hwrite)
    · cases h
      exact .call hwrite
  next hwrite => exact receiveFirst_serves hwrite h
  next active config hwrite =>
    cases h
    exact lockSessions_serves hwrite active
  next status hwrite =>
    split at h
    · cases h
      exact .writeEnd
    · cases h
      exact .reject hwrite
  next hwrite =>
    split at h
    · cases h
      exact .writeEnd
    · exact nextResponse_serves hwrite h
  next message hwrite =>
    split at h
    · cases h
      exact .writeEnd
    · cases h
      exact .wrote hwrite
  · cases h
    exact .halt
  · cases h

end Serves

/-! ### What a step of the task can do -/

/-- The task in another phase, with more to report. -/
def enter (s : Conversation) (task : SessionTask) (phase : SessionPhase) (reports : List Status) :
    Conversation :=
  { s with task := some { task with phase := phase, reports := task.reports ++ reports } }

inductive Works (s : Conversation) : Conversation → Prop
  | begin {task : SessionTask} (phase : SessionPhase) (ht : s.task = some task)
      (hp : task.phase = .spawned) (hp' : phase = .cancelled ∨ phase = .starting) :
      Works s (s.enter task phase [])
  | startFailed {task : SessionTask} (status : Status) (ht : s.task = some task)
      (hp : task.phase = .starting) : Works s (s.enter task .startFailed [status])
  | started {task : SessionTask} (tun : TunSession) (ht : s.task = some task)
      (hp : task.phase = .starting) : Works s (s.enter task (.announcing tun) [])
  | announce {task : SessionTask} {tun : TunSession} (ht : s.task = some task)
      (hp : task.phase = .announcing tun) (hopen : s.responsesOpen = true) :
      Works s
        ({ s with
          responses := s.responses.send (.ok (startedMessage tun.interfaceName))
          reader := .reading }.enter task (.looping tun .running) [])
  | announceLost {task : SessionTask} {tun : TunSession} (ht : s.task = some task)
      (hp : task.phase = .announcing tun) (hopen : s.responsesOpen = false) :
      Works s ({ s with reader := .reading }.enter task (.looping tun .running) [])
  | take {task : SessionTask} {tun : TunSession} {reader : Reader}
      {item : Except Status ClientMessage} {incoming : Channel (Except Status ClientMessage)}
      (ht : s.task = some task) (hp : task.phase = .looping tun reader)
      (hm : s.incoming.receive = some (item, incoming)) :
      Works s
        ({ s with incoming := incoming, tunWrites := s.tunWrites ++ (outgoing item).toList }.enter
          task (.looping tun reader) [])
  | takeLast {task : SessionTask} {tun : TunSession} {reader : Reader} (reports : List Status)
      {item : Except Status ClientMessage} {incoming : Channel (Except Status ClientMessage)}
      (ht : s.task = some task) (hp : task.phase = .looping tun reader)
      (hm : s.incoming.receive = some (item, incoming)) :
      Works s
        ({ s with incoming := incoming, stopRead := true }.enter task (.closing tun reader) reports)
  | endLoop {task : SessionTask} {tun : TunSession} {reader : Reader} (reports : List Status)
      (ht : s.task = some task) (hp : task.phase = .looping tun reader) :
      Works s ({ s with stopRead := true }.enter task (.closing tun reader) reports)
  | close {task : SessionTask} {tun : TunSession} {reader : Reader} (tun' : TunSession)
      (reports : List Status) (ht : s.task = some task) (hp : task.phase = .closing tun reader) :
      Works s (s.enter task (.joining tun' reader) reports)
  | join {task : SessionTask} {tun : TunSession} {error : Option String}
      (ht : s.task = some task) (hp : task.phase = .joining tun (.ended error)) :
      Works s
        ({ s with toReport := task.reports.map fun status => .ok (errorMessage status) }.enter task
          (.releasing tun) [])
  | report {item : Except Status ServerMessage} {rest : List (Except Status ServerMessage)}
      (h : s.toReport = item :: rest) (hopen : s.responsesOpen = true) :
      Works s { s with responses := s.responses.send item, toReport := rest }
  | reportLost {item : Except Status ServerMessage} {rest : List (Except Status ServerMessage)}
      (h : s.toReport = item :: rest) : Works s { s with toReport := rest }
  | releaseCancelled {task : SessionTask} (ht : s.task = some task) (hp : task.phase = .cancelled)
      (hdone : s.toReport = []) : Works s (s.enter task (.finished none) [])
  | releaseFailed {task : SessionTask} (ht : s.task = some task) (hp : task.phase = .startFailed)
      (hdone : s.toReport = []) :
      Works s ({ s with toReport := task.reports.map .error }.enter task (.finished none) [])
  | release {task : SessionTask} {tun : TunSession} (ht : s.task = some task)
      (hp : task.phase = .releasing tun) (hdone : s.toReport = []) :
      Works s (s.enter task (.finished (some tun)) [])

theorem advance_eq_some {s s' : Conversation} {event : SessionEvent}
    (h : s.advance event = some s') :
    ∃ task phase reports effect, s.task = some task ∧
      task.phase.step task.name s.shutdown event = some (phase, reports, effect) ∧
      s' = s.enter task phase reports := by
  unfold advance at h
  split at h
  · cases h
  next task ht =>
    unfold SessionTask.step at h
    split at h
    · cases h
    next task' effect hstep =>
      split at hstep
      · cases hstep
      next phase reports effect hphase =>
        cases hstep
        cases h
        exact ⟨task, phase, reports, effect, ht, hphase, rfl⟩

/-- A packet that the loop takes is written, unless the loop ends with it. -/
theorem loopTurn_incoming {reader : Reader} {item : Except Status ClientMessage}
    {written : Except String Unit} {result : Option (Except Status Unit)}
    (h : loopTurn false reader (.incoming (item.map some) written) = some result) :
    (result = none ∧ writtenOf item written = (outgoing item).toList) ∨
      (result ≠ none ∧ writtenOf item written = []) := by
  have hlost : ∀ item : Except Status ClientMessage, outgoing item = none →
      writtenOf item written = [] ∧ (outgoing item).toList = [] := by
    intro item hnone
    rw [hnone]
    refine ⟨?_, rfl⟩
    cases written with
    | ok _ =>
        rw [writtenOf, hnone]
        rfl
    | error _ => rfl
  cases item with
  | error status =>
      cases h
      exact Or.inr ⟨by simp, (hlost _ rfl).1⟩
  | ok message =>
      obtain ⟨payload⟩ := message
      cases payload with
      | none =>
          cases h
          refine Or.inl ⟨rfl, ?_⟩
          rw [(hlost _ rfl).1, (hlost _ rfl).2]
      | some payload =>
          cases payload with
          | config config =>
              cases h
              exact Or.inr ⟨by simp, (hlost _ rfl).1⟩
          | shutdown flag =>
              cases h
              exact Or.inr ⟨by simp, (hlost _ rfl).1⟩
          | outgoingPacket data =>
              by_cases hdata : CarriesPacket data
              · have hwrite : ¬ (maxPacketFrameSize < data.length ∨ data = []) := hdata
                simp only [loopTurn, Except.map, if_neg hwrite] at h
                cases written with
                | ok _ =>
                    cases h
                    exact Or.inl ⟨rfl, rfl⟩
                | error e =>
                    cases h
                    exact Or.inr ⟨by simp, rfl⟩
              · have hnone : outgoing (.ok { payload := some (.outgoingPacket data) }) = none := by
                  rw [outgoing, if_neg hdata]
                have hskip : maxPacketFrameSize < data.length ∨ data = [] := not_not.mp hdata
                simp only [loopTurn, Except.map, if_pos hskip] at h
                cases h
                refine Or.inl ⟨rfl, ?_⟩
                rw [(hlost _ hnone).1, (hlost _ hnone).2]

section Works

variable {s s' : Conversation}

theorem begin_works {closed : Bool} (h : s.advance (.begin closed) = some s') : Works s s' := by
  obtain ⟨task, phase, reports, effect, ht, hstep, rfl⟩ := advance_eq_some h
  cases hp : task.phase with
  | spawned =>
      simp only [hp, SessionPhase.step] at hstep
      split at hstep
      · cases hstep
        exact .begin _ ht hp (Or.inl rfl)
      · cases hstep
        exact .begin _ ht hp (Or.inr rfl)
  | _ =>
      rw [hp] at hstep
      cases hstep

theorem started_works {result : Except String String} (h : s.advance (.started result) = some s') :
    Works s s' := by
  obtain ⟨task, phase, reports, effect, ht, hstep, rfl⟩ := advance_eq_some h
  cases hp : task.phase with
  | starting =>
      rw [hp] at hstep
      cases result with
      | error e =>
          cases hstep
          exact .startFailed _ ht hp
      | ok device =>
          cases hstep
          exact .started _ ht hp
  | _ =>
      rw [hp] at hstep
      cases hstep

theorem announce_works (h : s.announce = some s') : Works s s' := by
  unfold announce at h
  split at h
  next name tun reports ht =>
    have hannounced : ∀ t : Conversation, t.advance .announced = some s' → t.task = s.task →
        s' = t.enter { name := name, phase := .announcing tun, reports := reports }
          (.looping tun .running) [] := by
      intro t hstep htask
      obtain ⟨task', phase, reports', effect, ht', hphase, rfl⟩ := advance_eq_some hstep
      rw [htask, ht, Option.some.injEq] at ht'
      subst ht'
      cases hphase
      rfl
    split at h
    next hopen =>
      split at h
      · rw [hannounced _ h rfl]
        exact .announce ht rfl hopen
      · cases h
    next hopen =>
      rw [hannounced _ h rfl]
      exact .announceLost ht rfl (Bool.eq_false_iff.mpr hopen)
  · cases h

/-- The end of the loop, as far as it does not depend on what ended it. -/
theorem turn_eq_some {event : LoopEvent} (h : s.advance (.turn event) = some s') :
    ∃ task tun reader result, s.task = some task ∧ task.phase = .looping tun reader ∧
      loopTurn s.shutdown reader event = some result ∧
      s' = match result with
        | none => s.enter task (.looping tun reader) []
        | some r => s.enter task (.closing tun reader) (reportOf r) := by
  obtain ⟨task, phase, reports, effect, ht, hstep, rfl⟩ := advance_eq_some h
  cases hp : task.phase with
  | looping tun reader =>
      simp only [hp, SessionPhase.step] at hstep
      split at hstep
      · cases hstep
      next hturn =>
        cases hstep
        exact ⟨task, tun, reader, none, ht, hp, hturn, rfl⟩
      next result hturn =>
        cases hstep
        exact ⟨task, tun, reader, some result, ht, hp, hturn, rfl⟩
  | _ =>
      rw [hp] at hstep
      cases hstep

/-- A turn that takes no message ends the loop. -/
theorem endLoop_works {event : LoopEvent}
    (hends : ∀ reader, loopTurn s.shutdown reader event ≠ some none)
    (h : s.advance (.turn event) = some s') : Works s s'.afterTurn := by
  obtain ⟨task, tun, reader, result, ht, hp, hturn, rfl⟩ := turn_eq_some h
  cases result with
  | none => exact absurd hturn (hends reader)
  | some r => exact .endLoop (reportOf r) ht hp

theorem takeIncoming_works {written : Except String Unit} (hshutdown : s.shutdown = false)
    (h : s.takeIncoming written = some s') : Works s s'.afterTurn := by
  unfold takeIncoming at h
  split at h
  next item incoming hm =>
    obtain ⟨task, tun, reader, result, ht, hp, hturn, rfl⟩ := turn_eq_some h
    simp only [hshutdown] at hturn
    rcases loopTurn_incoming hturn with ⟨rfl, hwritten⟩ | ⟨hends, hwritten⟩
    · rw [hwritten]
      exact .take ht hp hm
    · obtain ⟨r, rfl⟩ := Option.ne_none_iff_exists'.mp hends
      rw [hwritten, List.append_nil]
      exact .takeLast (reportOf r) ht hp hm
  next hm =>
    split at h
    · refine endLoop_works ?_ h
      intro reader
      rw [hshutdown]
      simp [loopTurn]
    · cases h

theorem turn_works {wake : Wake} (h : s.turn wake = some s') : Works s s'.afterTurn := by
  have hclosed : ∀ reader, loopTurn s.shutdown reader .responsesClosed ≠ some none := by
    intro reader
    cases s.shutdown with
    | true => simp [loopTurn]
    | false => simp [loopTurn]
  unfold turn at h
  split at h
  · exact endLoop_works hclosed h
  next hshutdown =>
    rw [Bool.not_eq_true] at hshutdown
    cases wake with
    | responsesClosed =>
        simp only at h
        split at h
        · cases h
        · exact endLoop_works hclosed h
    | readDone =>
        simp only at h
        split at h
        · refine endLoop_works ?_ h
          intro reader
          rw [hshutdown]
          cases reader with
          | running => simp [loopTurn]
          | ended error =>
              cases error with
              | none => simp [loopTurn]
              | some e => simp [loopTurn]
        · cases h
    | incoming written =>
        simp only at h
        split at h
        · exact takeIncoming_works hshutdown h
        · cases h

theorem closed_works {hook : Except String Unit} (h : s.advance (.closed hook) = some s') :
    Works s s' := by
  obtain ⟨task, phase, reports, effect, ht, hstep, rfl⟩ := advance_eq_some h
  cases hp : task.phase with
  | closing tun reader =>
      rw [hp] at hstep
      cases hstep
      exact .close _ _ ht hp
  | _ =>
      rw [hp] at hstep
      cases hstep

theorem joinReader_works (h : s.joinReader = some s') : Works s s' := by
  unfold joinReader at h
  split at h
  · cases h
  next task ht =>
    obtain ⟨task', phase, reports, effect, ht', hstep, rfl⟩ := advance_eq_some h
    obtain rfl : task = task' := Option.some.inj (ht.symm.trans ht')
    cases hp : task.phase with
    | joining tun reader =>
        simp only [hp, SessionPhase.step] at hstep
        cases reader with
        | running => cases hstep
        | ended error =>
            cases hstep
            exact .join ht hp
    | _ =>
        rw [hp] at hstep
        cases hstep

theorem report_works (h : s.report = some s') : Works s s' := by
  unfold report at h
  split at h
  · cases h
  next item rest hreport =>
    split at h
    next hopen =>
      cases h
      exact .report hreport (Bool.and_eq_true_iff.mp hopen).1
    · cases h
      exact .reportLost hreport

theorem release_works (h : s.release = some s') : Works s s' := by
  unfold release at h
  split at h
  · cases h
  next task ht =>
    split at h
    next hdone =>
      split at h
      next hp =>
        obtain ⟨task', phase, reports, effect, ht', hstep, rfl⟩ := advance_eq_some h
        obtain rfl : task = task' := Option.some.inj (ht.symm.trans ht')
        rw [hp] at hstep
        cases hstep
        exact .releaseFailed ht hp hdone
      next hfailed =>
        obtain ⟨task', phase, reports, effect, ht', hstep, rfl⟩ := advance_eq_some h
        obtain rfl : task = task' := Option.some.inj (ht.symm.trans ht')
        cases hp : task.phase with
        | cancelled =>
            rw [hp] at hstep
            cases hstep
            exact .releaseCancelled ht hp hdone
        | startFailed => exact absurd hp hfailed
        | releasing tun =>
            rw [hp] at hstep
            cases hstep
            exact .release ht hp hdone
        | _ =>
            rw [hp] at hstep
            cases hstep
    · cases h

theorem stepTask_works {label : TaskLabel} (h : s.stepTask label = some s') : Works s s' := by
  cases label with
  | begin => exact begin_works h
  | started result => exact started_works h
  | announce => exact announce_works h
  | wake wake =>
      obtain ⟨mid, hturn, rfl⟩ := Option.map_eq_some_iff.mp h
      exact turn_works hturn
  | closed hook => exact closed_works h
  | join => exact joinReader_works h
  | report => exact report_works h
  | release => exact release_works h

end Works

/-! ### What a step of the worker can do -/

/-- The phase of the task when the worker has ended. -/
inductive ReaderEnds (error : Option String) : SessionPhase → SessionPhase → Prop
  | looping (tun : TunSession) :
      ReaderEnds error (.looping tun .running) (.looping tun (.ended error))
  | closing (tun : TunSession) :
      ReaderEnds error (.closing tun .running) (.closing tun (.ended error))
  | joining (tun : TunSession) :
      ReaderEnds error (.joining tun .running) (.joining tun (.ended error))

inductive ReadsTun (s : Conversation) : Conversation → Prop
  | packet {data : Bytes} (h : s.reader = .reading) (hdata : CarriesPacket data) :
      ReadsTun s
        { s with tunReads := s.tunReads ++ [data], reader := .sending (packetMessage data) none }
  | skip {data : Bytes} (h : s.reader = .reading) (hdata : ¬ CarriesPacket data) :
      ReadsTun s { s with tunReads := s.tunReads ++ [data] }
  | interrupted (h : s.reader = .reading) : ReadsTun s { s with reader := .finishing none }
  | failed (status : Status) (error : String) (h : s.reader = .reading) :
      ReadsTun s { s with reader := .sending (errorMessage status) (some error) }
  | respond {message : ServerMessage} {error : Option String}
      (h : s.reader = .sending message error) (hopen : s.responsesOpen = true) :
      ReadsTun s
        { s with responses := s.responses.send (.ok message), reader := afterResponse true error }
  | lose {message : ServerMessage} {error : Option String}
      (h : s.reader = .sending message error) :
      ReadsTun s { s with reader := afterResponse false error }
  | done {task : SessionTask} {error : Option String} {phase : SessionPhase}
      (h : s.reader = .finishing error) (ht : s.task = some task)
      (hp : ReaderEnds error task.phase phase) :
      ReadsTun s ({ s with reader := .ended }.enter task phase [])

section ReadsTun

variable {s s' : Conversation}

theorem readTun_readsTun (result : TunRead) (h : s.reader = .reading) :
    ReadsTun s (s.readTun result) := by
  cases result with
  | packet data =>
      simp only [readTun]
      split
      next hdata => exact .packet h hdata
      next hdata => exact .skip h hdata
  | interrupted => exact .interrupted h
  | failed e => exact .failed _ _ h

theorem sendResponse_readsTun {message : ServerMessage} {error : Option String}
    (hreader : s.reader = .sending message error) (h : s.sendResponse message error = some s') :
    ReadsTun s s' := by
  unfold sendResponse at h
  split at h
  · cases h
    exact .lose hreader
  next hsend =>
    split at h
    · cases h
      simp only [Bool.or_eq_true, not_or, Bool.not_eq_true, Bool.not_eq_false'] at hsend
      exact .respond hreader hsend.2
    · cases h

theorem done_readsTun {error : Option String} (hreader : s.reader = .finishing error)
    (h : { s with reader := .ended }.advance (.readerEnded error) = some s') : ReadsTun s s' := by
  obtain ⟨task, phase, reports, effect, ht, hstep, rfl⟩ := advance_eq_some h
  cases hp : task.phase with
  | looping tun reader =>
      simp only [hp, SessionPhase.step] at hstep
      obtain ⟨rfl, hstep⟩ := Option.ite_none_right_eq_some.mp hstep
      cases hstep
      exact .done hreader ht (hp ▸ .looping tun)
  | closing tun reader =>
      simp only [hp, SessionPhase.step] at hstep
      obtain ⟨rfl, hstep⟩ := Option.ite_none_right_eq_some.mp hstep
      cases hstep
      exact .done hreader ht (hp ▸ .closing tun)
  | joining tun reader =>
      simp only [hp, SessionPhase.step] at hstep
      obtain ⟨rfl, hstep⟩ := Option.ite_none_right_eq_some.mp hstep
      cases hstep
      exact .done hreader ht (hp ▸ .joining tun)
  | _ =>
      rw [hp] at hstep
      cases hstep

theorem stepReader_readsTun {label : ReaderLabel} (h : s.stepReader label = some s') :
    ReadsTun s s' := by
  unfold stepReader at h
  split at h
  next result hreader =>
    cases h
    exact readTun_readsTun result hreader
  next message error hreader => exact sendResponse_readsTun hreader h
  next error hreader => exact done_readsTun hreader h
  · cases h

end ReadsTun

/-! ### What a step can do -/

inductive Moves (macos : Bool) (pid : UInt32) (s : Conversation) : Conversation → Prop
  | stop : Moves macos pid s { s with shutdown := true }
  | arrive (message : ClientMessage) :
      Moves macos pid s { s with inbound := s.inbound.send message }
  | depart {message : ServerMessage} {outbound : Channel ServerMessage}
      (hm : s.outbound.receive = some (message, outbound)) :
      Moves macos pid s { s with outbound := outbound }
  | serve {s' : Conversation} (h : Serves macos pid s s') : Moves macos pid s s'
  | task {s' : Conversation} (h : Works s s') : Moves macos pid s s'
  | reader {s' : Conversation} (h : ReadsTun s s') : Moves macos pid s s'

theorem step_moves {macos : Bool} {pid : UInt32} {s s' : Conversation} {label : ConversationLabel}
    (h : s.step macos pid label = some s') : Moves macos pid s s' := by
  cases label with
  | stop =>
      cases h
      exact .stop
  | arrive message =>
      cases h
      exact .arrive message
  | depart =>
      simp only [step] at h
      split at h
      · cases h
      next message outbound hm =>
        cases h
        exact .depart hm
  | serve label => exact .serve (stepServe_serves h)
  | task label => exact .task (stepTask_works h)
  | reader label => exact .reader (stepReader_readsTun h)

end Conversation

end Daemon
end WgKotlin
