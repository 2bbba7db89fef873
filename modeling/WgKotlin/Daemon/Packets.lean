import WgKotlin.Daemon.SessionProtocol

/-!
# The packets of a connection

Each process between the client and the TUN passes on the packets that it takes,
in their order, until it stops.  The links are independent of each other: what one
process has taken is what the channel before it has delivered.
-/

namespace WgKotlin
namespace Daemon

open Proto Library

/-- The packet that a frame of the client carries to the TUN. -/
def outgoingData (message : ClientMessage) : Option Bytes := Conversation.outgoing (.ok message)

/-- The packet that a frame of the daemon carries to the client. -/
def incomingData (message : ServerMessage) : Option Bytes :=
  match message.payload with
  | some (.incomingPacket data) => some data
  | _ => none

namespace Conversation

/-! ### What each process holds -/

def heldByReadHalf : ReadHalf → Option (List Bytes)
  | .waiting | .reading => some []
  | .sending item => some (outgoing item).toList
  | .ended => none

/-- The session loop holds nothing between two turns; it has stopped when there will
be no other turn. -/
def heldByLoop (write : WriteHalf) : Option SessionTask → Option (List Bytes)
  | none => if opening write then some [] else none
  | some task =>
    match task.phase with
    | .spawned | .starting | .announcing _ | .looping _ _ => some []
    | _ => none

def heldByWorker : ReaderThread → Option (List Bytes)
  | .idle | .reading => some []
  | .sending message _ => some (incomingData message).toList
  | .finishing _ | .ended => none

structure Passes (s : Conversation) : Prop where
  waits : s.write = .greeting ∨ s.write = .first → s.read = .waiting
  readHalf : Relays (s.incoming.sent.filterMap outgoing)
    (s.inbound.delivered.filterMap outgoingData) (heldByReadHalf s.read)
  loop : Relays s.tunWrites (s.incoming.delivered.filterMap outgoing)
    (heldByLoop s.write s.task)
  worker : Relays (s.responses.sent.filterMap (incomingData ∘ frameOf))
    (s.tunReads.filter fun data => decide (CarriesPacket data)) (heldByWorker s.reader)

theorem passes_start : Passes start := ⟨fun _ => rfl, rfl, rfl, rfl⟩

theorem filterMap_append_singleton {α β : Type} (f : α → Option β) (l : List α) (a : α) :
    (l ++ [a]).filterMap f = l.filterMap f ++ (f a).toList := by
  rw [List.filterMap_append]
  cases h : f a with
  | none => simp [h]
  | some b => simp [h]

/-- What a reception adds to what the receiver has taken. -/
theorem filterMap_delivered_of_receive {α β : Type} {c c' : Channel α} {a : α}
    (h : c.receive = some (a, c')) {f : α → Option β} :
    c'.delivered.filterMap f = c.delivered.filterMap f ++ (f a).toList := by
  rw [Channel.delivered_of_receive h, filterMap_append_singleton]

/-! ### The connection -/

section Steps

variable {macos : Bool} {pid : UInt32} {s s' : Conversation}

/-- What matters of the write half is whether `session` has returned. -/
theorem Passes.keepLoop (h : Passes s) {write : WriteHalf}
    (hwrite : opening write = opening s.write) :
    Relays s.tunWrites (s.incoming.delivered.filterMap outgoing) (heldByLoop write s.task) := by
  have hheld : heldByLoop write s.task = heldByLoop s.write s.task := by
    cases s.task with
    | none => rw [heldByLoop, heldByLoop, hwrite]
    | some task => rfl
  rw [hheld]
  exact h.loop

/-- The loop is stopped with the write half, unless there is a task. -/
theorem Passes.closeLoop (h : Passes s) {write : WriteHalf} (hwrite : opening write = false) :
    Relays s.tunWrites (s.incoming.delivered.filterMap outgoing) (heldByLoop write s.task) := by
  have hloop := h.loop
  cases htask : s.task with
  | none =>
      rw [heldByLoop, hwrite]
      exact hloop.stop
  | some task =>
      rw [htask] at hloop
      exact hloop

/-- The message that was accepted is a configuration. -/
theorem outgoing_of_checkFirst {message : ClientMessage} {config : TunSessionConfig}
    (h : checkFirst macos message = .ok config) : outgoing (.ok message) = none := by
  obtain ⟨payload⟩ := message
  cases payload with
  | none => rfl
  | some payload =>
      cases payload with
      | outgoingPacket data => cases h
      | config _ => rfl
      | shutdown _ => rfl

theorem Passes.serve (h : Passes s) (horderly : Orderly pid s) (hserve : Serves macos pid s s') :
    Passes s' := by
  have hread := h.readHalf
  have hloop := h.loop
  have hworker := h.worker
  cases hserve with
  | halt => exact ⟨(by simp [halted]), hread.stop, h.closeLoop rfl, hworker⟩
  | writeEnd => exact ⟨(by simp), hread, h.closeLoop rfl, hworker⟩
  | reject hwrite => exact ⟨(by simp), hread, h.closeLoop rfl, hworker⟩
  | refuse status _ => exact ⟨(by simp [Conversation.reject]), hread, h.closeLoop rfl, hworker⟩
  | greet hwrite =>
      exact ⟨fun _ => h.waits (Or.inl hwrite), hread, h.keepLoop (by rw [hwrite]; rfl), hworker⟩
  | call hwrite =>
      exact ⟨(by simp), hread, h.keepLoop (by rw [hwrite]; rfl), hworker⟩
  | stopDaemon hwrite hm =>
      refine ⟨(by simp [halted]), ?_, h.closeLoop rfl, hworker⟩
      show Relays _ (Channel.delivered _ |>.filterMap outgoingData) none
      rw [filterMap_delivered_of_receive hm]
      exact hread.lose _
  | split hwrite hm =>
      rw [h.waits (Or.inr hwrite)] at hread
      refine ⟨(by simp), ?_, ?_, hworker⟩
      · show Relays ((_ ++ [_]).filterMap outgoing) (Channel.delivered _ |>.filterMap _) (some [])
        rw [filterMap_delivered_of_receive hm, filterMap_append_singleton]
        exact (hread.take _).pass
      · show Relays _ ((Channel.send _ _).delivered.filterMap outgoing) (heldByLoop .calling _)
        rw [Channel.delivered_send]
        exact h.keepLoop (by rw [hwrite]; rfl)
  | readEnd hstarted =>
      exact ⟨fun hw => absurd (h.waits hw) hstarted, hread.stop, hloop, hworker⟩
  | readInvalid hreading =>
      rw [hreading] at hread
      exact ⟨fun hw => absurd (h.waits hw) (by simp [hreading]), hread, hloop, hworker⟩
  | readMessage hreading hm =>
      rw [hreading] at hread
      refine ⟨fun hw => absurd (h.waits hw) (by simp [hreading]), ?_, hloop, hworker⟩
      show Relays _ (Channel.delivered _ |>.filterMap outgoingData) _
      rw [filterMap_delivered_of_receive hm]
      exact hread.take _
  | forward hsending =>
      rw [hsending] at hread
      refine ⟨fun hw => absurd (h.waits hw) (by simp [hsending]), ?_, ?_, hworker⟩
      · show Relays ((_ ++ [_]).filterMap outgoing) _ (some [])
        rw [filterMap_append_singleton]
        exact hread.pass
      · show Relays _ ((Channel.send _ _).delivered.filterMap outgoing) _
        rw [Channel.delivered_send]
        exact hloop
  | forwardError hsending =>
      rw [hsending] at hread
      refine ⟨(by simp [halted]), ?_, ?_, hworker⟩
      · show Relays ((_ ++ [_]).filterMap outgoing) _ none
        rw [filterMap_append_singleton]
        exact hread.pass.stop
      · show Relays _ ((Channel.send _ _).delivered.filterMap outgoing) (heldByLoop .ended _)
        rw [Channel.delivered_send]
        exact h.closeLoop rfl
  | @refuseFirst status item incoming hwrite hm =>
      have htask := (horderly.fresh (by rw [hwrite]; rfl)).1
      refine ⟨(by simp [Conversation.reject]), ?_, ?_, hworker⟩
      · show Relays (incoming.sent.filterMap outgoing) _ _
        rw [Channel.sent_of_receive hm]
        exact hread
      · show Relays s.tunWrites (incoming.delivered.filterMap outgoing)
          (heldByLoop (.rejected status) s.task)
        rw [filterMap_delivered_of_receive hm, htask]
        exact hloop.lose _
  | @accept message incoming config hwrite hm hconfig =>
      refine ⟨(by simp), ?_, ?_, hworker⟩
      · show Relays (incoming.sent.filterMap outgoing) _ _
        rw [Channel.sent_of_receive hm]
        exact hread
      · show Relays _ (incoming.delivered.filterMap outgoing) (heldByLoop (.locking config) _)
        rw [filterMap_delivered_of_receive hm, outgoing_of_checkFirst hconfig,
          Option.toList_none, List.append_nil]
        exact h.keepLoop (by rw [hwrite]; rfl)
  | spawn hwrite =>
      have htask := (horderly.fresh (by rw [hwrite]; rfl)).1
      rw [hwrite, htask] at hloop
      exact ⟨(by simp), hread, hloop, hworker⟩
  | next hwrite hm =>
      refine ⟨(by simp), hread, h.keepLoop (by rw [hwrite]; rfl), ?_⟩
      show Relays (Channel.sent _ |>.filterMap _) _ _
      rw [Channel.sent_of_receive hm]
      exact hworker
  | wrote hwrite =>
      exact ⟨(by simp), hread, h.keepLoop (by rw [hwrite]; rfl), hworker⟩

/-! ### The task and the worker -/

theorem Passes.work (h : Passes s) (horderly : Orderly pid s) (hwork : Works s s') : Passes s' := by
  have hread := h.readHalf
  have hloop := h.loop
  have hworker := h.worker
  cases hwork with
  | @begin task phase ht hp hp' =>
      simp only [ht, heldByLoop, hp] at hloop
      rcases hp' with rfl | rfl
      · exact ⟨h.waits, hread, hloop.stop, hworker⟩
      · exact ⟨h.waits, hread, hloop, hworker⟩
  | startFailed status ht hp => exact ⟨h.waits, hread, hloop.stop, hworker⟩
  | started tun ht hp =>
      simp only [ht, heldByLoop, hp] at hloop
      exact ⟨h.waits, hread, hloop, hworker⟩
  | announce ht hp hopen =>
      have hidle := horderly.staged
      simp only [ht, Staged, hp] at hidle
      simp only [ht, heldByLoop, hp] at hloop
      rw [hidle.1] at hworker
      refine ⟨h.waits, hread, hloop, ?_⟩
      show Relays ((_ ++ [_]).filterMap _) _ (some [])
      rw [filterMap_append_singleton]
      exact hworker.pass
  | announceLost ht hp hopen =>
      have hidle := horderly.staged
      simp only [ht, Staged, hp] at hidle
      simp only [ht, heldByLoop, hp] at hloop
      rw [hidle.1] at hworker
      exact ⟨h.waits, hread, hloop, hworker⟩
  | @take task tun reader item incoming ht hp hm =>
      simp only [ht, heldByLoop, hp] at hloop
      refine ⟨h.waits, ?_, ?_, hworker⟩
      · show Relays (incoming.sent.filterMap outgoing) _ _
        rw [Channel.sent_of_receive hm]
        exact hread
      · show Relays _ (incoming.delivered.filterMap outgoing) (some [])
        rw [filterMap_delivered_of_receive hm]
        exact (hloop.take _).pass
  | @takeLast task tun reader reports item incoming ht hp hm =>
      refine ⟨h.waits, ?_, ?_, hworker⟩
      · show Relays (incoming.sent.filterMap outgoing) _ _
        rw [Channel.sent_of_receive hm]
        exact hread
      · show Relays _ (incoming.delivered.filterMap outgoing) none
        rw [filterMap_delivered_of_receive hm]
        exact hloop.lose _
  | endLoop reports ht hp => exact ⟨h.waits, hread, hloop.stop, hworker⟩
  | close tun' reports ht hp => exact ⟨h.waits, hread, hloop.stop, hworker⟩
  | join ht hp => exact ⟨h.waits, hread, hloop.stop, hworker⟩
  | @report item rest hreport hopen =>
      refine ⟨h.waits, hread, hloop, ?_⟩
      have hnone : incomingData (frameOf item) = none := by
        have hstaged := horderly.staged
        rw [hreport] at hstaged
        obtain ⟨task, ht, hp | ⟨_, _, _, status, rfl⟩⟩ := hstaged.reporting
        · rw [ht, staged_of_behind hp] at hstaged
          obtain ⟨status, rfl⟩ := hstaged.2 item List.mem_cons_self
          rfl
        · rfl
      show Relays ((_ ++ [_]).filterMap _) _ _
      rw [filterMap_append_singleton, Function.comp_apply, hnone, Option.toList_none,
        List.append_nil]
      exact hworker
  | reportLost hreport => exact ⟨h.waits, hread, hloop, hworker⟩
  | releaseCancelled ht hp hdone => exact ⟨h.waits, hread, hloop.stop, hworker⟩
  | releaseFailed ht hp hdone => exact ⟨h.waits, hread, hloop.stop, hworker⟩
  | release ht hp hdone => exact ⟨h.waits, hread, hloop.stop, hworker⟩

theorem ReaderEnds.heldByLoop_eq {error : Option String} {phase phase' : SessionPhase}
    (h : ReaderEnds error phase phase') (write : WriteHalf) (name : String)
    (reports reports' : List Status) :
    heldByLoop write (some { name := name, phase := phase', reports := reports' }) =
      heldByLoop write (some { name := name, phase := phase, reports := reports }) := by
  cases h with
  | _ => rfl

theorem Passes.read (h : Passes s) (hread : ReadsTun s s') : Passes s' := by
  have hworker := h.worker
  cases hread with
  | @packet data hreader hdata =>
      rw [hreader] at hworker
      refine ⟨h.waits, h.readHalf, h.loop, ?_⟩
      show Relays _ ((_ ++ [_]).filter _) (some [data])
      rw [List.filter_append, List.filter_singleton, decide_eq_true hdata]
      exact hworker.take [data]
  | @skip data hreader hdata =>
      refine ⟨h.waits, h.readHalf, h.loop, ?_⟩
      show Relays _ ((_ ++ [_]).filter _) _
      rw [List.filter_append, List.filter_singleton, decide_eq_false hdata]
      simpa using hworker
  | interrupted hreader => exact ⟨h.waits, h.readHalf, h.loop, hworker.stop⟩
  | failed status error hreader =>
      rw [hreader] at hworker
      exact ⟨h.waits, h.readHalf, h.loop, hworker⟩
  | @respond message error hreader hopen =>
      rw [hreader] at hworker
      refine ⟨h.waits, h.readHalf, h.loop, ?_⟩
      show Relays ((_ ++ [_]).filterMap _) _ (heldByWorker (afterResponse true error))
      rw [filterMap_append_singleton]
      cases error with
      | none => exact hworker.pass
      | some e => exact hworker.pass.stop
  | @lose message error hreader =>
      refine ⟨h.waits, h.readHalf, h.loop, ?_⟩
      cases error with
      | none => exact hworker.stop
      | some e => exact hworker.stop
  | @done task error phase hreader ht hp =>
      have hloop := h.loop
      rw [ht] at hloop
      refine ⟨h.waits, h.readHalf, ?_, hworker.stop⟩
      show Relays s.tunWrites _ (heldByLoop s.write
        (some { name := task.name, phase := phase, reports := task.reports ++ [] }))
      rw [hp.heldByLoop_eq s.write task.name task.reports]
      exact hloop

theorem passes_step {label : ConversationLabel} (h : Passes s) (horderly : Orderly pid s)
    (hstep : s.step macos pid label = some s') : Passes s' := by
  cases step_moves hstep with
  | stop => exact ⟨h.waits, h.readHalf, h.loop, h.worker⟩
  | arrive message =>
      refine ⟨h.waits, ?_, h.loop, h.worker⟩
      show Relays _ ((Channel.send _ _).delivered.filterMap _) _
      rw [Channel.delivered_send]
      exact h.readHalf
  | depart hm => exact ⟨h.waits, h.readHalf, h.loop, h.worker⟩
  | serve hserve => exact h.serve horderly hserve
  | task hwork => exact h.work horderly hwork
  | reader hread => exact h.read hread

/-! ### Both directions -/

/-- What is written to the TUN was sent by the client, in that order. -/
theorem Passes.tunWrites_isPrefix (h : Passes s) :
    s.tunWrites <+: s.inbound.sent.filterMap outgoingData := by
  have htaken := s.incoming.delivered_isPrefix.filterMap outgoing
  have harrived := s.inbound.delivered_isPrefix.filterMap outgoingData
  exact h.loop.follows.trans (htaken.trans (h.readHalf.follows.trans harrived))

/-- What is sent to the client was read from the TUN, in that order. -/
theorem Passes.frames_isPrefix (h : Passes s) (horderly : Orderly pid s) :
    s.outbound.sent.filterMap incomingData <+:
      s.tunReads.filter fun data => decide (CarriesPacket data) := by
  have hreceived := s.responses.delivered_isPrefix.filterMap (incomingData ∘ frameOf)
  have hended : s.outbound.sent <+: readyMessage pid :: s.responses.delivered.map frameOf ∨
      ∃ status, s.outbound.sent = [readyMessage pid, errorMessage status] := horderly.answers.ended
  rcases hended with hsent | ⟨status, hsent⟩
  · have hframes := hsent.filterMap incomingData
    have hready : incomingData (readyMessage pid) = none := rfl
    rw [List.filterMap_cons_none hready, List.filterMap_map] at hframes
    exact hframes.trans (hreceived.trans h.worker.follows)
  · rw [hsent]
    exact List.nil_prefix

theorem passes_of_reachable (h : Reachable (step macos pid) start s) : Passes s :=
  reachable_induction passes_start
    (fun _ _ _ hs hpasses hstep => passes_step hpasses (orderly_of_reachable hs) hstep) h

/-! ### Before and after the session loop -/

/-- Without a task nothing has been written. -/
def Unopened (s : Conversation) : Prop := s.task = none → s.tunWrites = []

theorem unopened_step {label : ConversationLabel} (h : Unopened s)
    (hstep : s.step macos pid label = some s') : Unopened s' := by
  cases step_moves hstep with
  | stop | arrive _ | depart _ => exact h
  | serve hserve =>
      cases hserve with
      | spawn _ =>
          intro hnone
          cases hnone
      | _ => exact h
  | task hwork =>
      cases hwork with
      | report _ _ | reportLost _ => exact h
      | _ =>
          intro hnone
          cases hnone
  | reader hread =>
      cases hread with
      | done _ _ _ =>
          intro hnone
          cases hnone
      | _ => exact h

/-- There will be no other turn of the session loop. -/
def loopEnded : SessionPhase → Bool
  | .spawned | .starting | .announcing _ | .looping _ _ => false
  | _ => true

/-- The loop has ended, with these packets written. -/
def LoopOver (written : List Bytes) (s : Conversation) : Prop :=
  ∃ task, s.task = some task ∧ loopEnded task.phase = true ∧ s.tunWrites = written

theorem LoopOver.work {written : List Bytes} (h : LoopOver written s) (hwork : Works s s') :
    LoopOver written s' := by
  obtain ⟨task, ht, hended, hwritten⟩ := h
  have hsame : ∀ {t : SessionTask}, s.task = some t → t.phase = task.phase := by
    intro t ht'
    rw [ht, Option.some.injEq] at ht'
    rw [ht']
  cases hwork with
  | begin _ ht' hp _ | startFailed _ ht' hp | started _ ht' hp | announce ht' hp _
  | announceLost ht' hp _ | take ht' hp _ | takeLast _ ht' hp _ | endLoop _ ht' hp =>
      rw [← hsame ht', hp] at hended
      cases hended
  | report _ _ | reportLost _ => exact ⟨task, ht, hended, hwritten⟩
  | _ => exact ⟨_, rfl, rfl, hwritten⟩

theorem loopOver_step {written : List Bytes} {label : ConversationLabel}
    (h : LoopOver written s) (horderly : Orderly pid s)
    (hstep : s.step macos pid label = some s') : LoopOver written s' := by
  obtain ⟨task, ht, hended, hwritten⟩ := h
  cases step_moves hstep with
  | stop | arrive _ | depart _ => exact ⟨task, ht, hended, hwritten⟩
  | serve hserve =>
      cases hserve with
      | spawn hwrite => exact horderly.not_opening ht (by rw [hwrite]; rfl)
      | _ => exact ⟨task, ht, hended, hwritten⟩
  | task hwork => exact LoopOver.work ⟨task, ht, hended, hwritten⟩ hwork
  | reader hread =>
      cases hread with
      | @done task' error phase _ ht' hp =>
          rw [ht, Option.some.injEq] at ht'
          subst ht'
          refine ⟨_, rfl, ?_, hwritten⟩
          show loopEnded phase = true
          generalize task.phase = current at hended hp
          cases hp with
          | looping tun => cases hended
          | closing tun => rfl
          | joining tun => rfl
      | _ => exact ⟨task, ht, hended, hwritten⟩

/-- The session loop takes a second configuration, a shutdown as a message, an
invalid frame or the shutdown of the daemon. -/
inductive TakesEnd (s : Conversation) : Wake → Prop
  | shutdown (wake : Wake) (h : s.shutdown = true) : TakesEnd s wake
  | config {config : TunSessionConfig} {written : Except String Unit}
      (h : s.incoming.queue.head? = some (.ok { payload := some (.config config) })) :
      TakesEnd s (.incoming written)
  | shutdownMessage {flag : Bool} {written : Except String Unit}
      (h : s.incoming.queue.head? = some (.ok { payload := some (.shutdown flag) })) :
      TakesEnd s (.incoming written)
  | invalidFrame {status : Status} {written : Except String Unit}
      (h : s.incoming.queue.head? = some (.error status)) : TakesEnd s (.incoming written)

theorem loopOver_of_turn {event : LoopEvent}
    (hends : ∀ reader, loopTurn s.shutdown reader event ≠ some none)
    (h : s.advance (.turn event) = some s') : LoopOver s.tunWrites s'.afterTurn := by
  obtain ⟨task, tun, reader, result, ht, hp, hturn, rfl⟩ := turn_eq_some h
  cases result with
  | none => exact absurd hturn (hends reader)
  | some r => exact ⟨_, rfl, rfl, rfl⟩

/-- A message with which every turn ends the loop. -/
theorem loopOver_of_item {item : Except Status ClientMessage} {written : Except String Unit}
    (hitem : s.incoming.queue.head? = some item) (hnone : outgoing item = none)
    (hends : ∀ reader, loopTurn false reader (.incoming (item.map some) written) ≠ some none)
    (hshutdown : s.shutdown = false) (h : s.takeIncoming written = some s') :
    LoopOver s.tunWrites s'.afterTurn := by
  unfold takeIncoming at h
  split at h
  next item' incoming hm =>
    have hqueue := (Channel.receive_eq_some hm).2.2
    rw [hqueue, List.head?_cons, Option.some.injEq] at hitem
    subst hitem
    have hwritten : s.tunWrites ++ writtenOf item' written = s.tunWrites := by
      cases written with
      | ok _ => rw [writtenOf, hnone, Option.toList_none, List.append_nil]
      | error _ => rw [writtenOf, List.append_nil]
    rw [hwritten] at h
    rw [← hshutdown] at hends
    exact loopOver_of_turn (s := { s with incoming := incoming }) hends h
  next hm =>
    unfold Channel.receive at hm
    split at hm
    · cases hm
    next hlt =>
      have hempty : s.incoming.queue = [] := List.drop_eq_nil_of_le (Nat.not_lt.mp hlt)
      rw [hempty] at hitem
      cases hitem

theorem loopOver_of_takesEnd {wake : Wake} (hend : TakesEnd s wake)
    (h : s.step macos pid (.task (.wake wake)) = some s') : LoopOver s.tunWrites s' := by
  obtain ⟨mid, hturn, rfl⟩ := Option.map_eq_some_iff.mp h
  unfold turn at hturn
  split at hturn
  next hshutdown =>
    refine loopOver_of_turn ?_ hturn
    intro reader
    rw [hshutdown]
    simp [loopTurn]
  next hrunning =>
    have hshutdown : s.shutdown = false := Bool.eq_false_iff.mpr hrunning
    cases hend with
    | shutdown wake hdown => exact absurd hdown hrunning
    | config hitem =>
        obtain ⟨_, hturn⟩ := Option.ite_none_right_eq_some.mp hturn
        exact loopOver_of_item hitem rfl (by simp [loopTurn, Except.map]) hshutdown hturn
    | shutdownMessage hitem =>
        obtain ⟨_, hturn⟩ := Option.ite_none_right_eq_some.mp hturn
        exact loopOver_of_item hitem rfl (by simp [loopTurn, Except.map]) hshutdown hturn
    | invalidFrame hitem =>
        obtain ⟨_, hturn⟩ := Option.ite_none_right_eq_some.mp hturn
        exact loopOver_of_item hitem rfl (by simp [loopTurn, Except.map]) hshutdown hturn

end Steps

end Conversation

end Daemon
end WgKotlin
