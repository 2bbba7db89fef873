import WgKotlin.Daemon.ConversationSteps

/-!
# The frames of a connection

Three parties put responses into one channel: the task, the worker that reads the
TUN, and the task again when it closes the session.  The order of the responses
follows from where the task and the worker are, and the frames that are written
are the responses behind the greeting.
-/

namespace WgKotlin
namespace Daemon

open Proto Library

/-- A whole session, or one that was refused: `Ready (Error | Started IncomingPacket* Error*)`. -/
inductive SessionWord (pid : UInt32) : List ServerMessage → Prop
  | refused (status : Status) : SessionWord pid [readyMessage pid, errorMessage status]
  | served (interfaceName : String) (packets : List Bytes) (errors : List Status)
      (hpackets : ∀ data ∈ packets, 1 ≤ data.length ∧ data.length ≤ 65535) :
      SessionWord pid
        (readyMessage pid :: startedMessage interfaceName ::
          (packets.map packetMessage ++ errors.map errorMessage))

theorem carriesPacket_iff {data : Bytes} :
    CarriesPacket data ↔ 1 ≤ data.length ∧ data.length ≤ 65535 := by
  rw [CarriesPacket, maxPacketFrameSize, ← List.length_eq_zero_iff]
  omega

namespace Conversation

/-! ### The responses -/

/-- A session that has been started, and no errors. -/
inductive Packets : List (Except Status ServerMessage) → Prop
  | mk (interfaceName : String) (packets : List Bytes)
      (hpackets : ∀ data ∈ packets, CarriesPacket data) :
      Packets (.ok (startedMessage interfaceName) ::
        packets.map fun data => .ok (packetMessage data))

/-- Errors follow. -/
inductive Errors : List (Except Status ServerMessage) → Prop
  | mk {items : List (Except Status ServerMessage)} (h : Packets items) (errors : List Status) :
      Errors (items ++ errors.map fun status => .ok (errorMessage status))

/-- What the responses of a session can be at any time. -/
def Conforms (items : List (Except Status ServerMessage)) : Prop :=
  items = [] ∨ (∃ status, items = [.error status]) ∨ Errors items

section Responses

variable {items : List (Except Status ServerMessage)}

theorem Packets.push (h : Packets items) {data : Bytes} (hdata : CarriesPacket data) :
    Packets (items ++ [.ok (packetMessage data)]) := by
  obtain ⟨interfaceName, packets, hpackets⟩ := h
  have hall : ∀ d ∈ packets ++ [data], CarriesPacket d := by
    intro d hd
    rcases List.mem_append.mp hd with hd | hd
    · exact hpackets d hd
    · rw [List.mem_singleton.mp hd]
      exact hdata
  have hpush := Packets.mk interfaceName (packets ++ [data]) hall
  rwa [List.map_append, ← List.cons_append] at hpush

theorem Packets.errors (h : Packets items) : Errors items := by
  have herrors := Errors.mk h []
  rwa [List.map_nil, List.append_nil] at herrors

theorem Errors.push (h : Errors items) (status : Status) :
    Errors (items ++ [.ok (errorMessage status)]) := by
  obtain ⟨h, errors⟩ := h
  have hpush := Errors.mk h (errors ++ [status])
  rwa [List.map_append, ← List.append_assoc] at hpush

theorem Errors.conforms (h : Errors items) : Conforms items := Or.inr (Or.inr h)

/-- The greeting and the responses are the beginning of a word. -/
theorem Conforms.word (pid : UInt32) (h : Conforms items) :
    ∃ word, SessionWord pid word ∧ readyMessage pid :: items.map frameOf <+: word := by
  rcases h with rfl | ⟨status, rfl⟩ | ⟨⟨interfaceName, packets, hpackets⟩, errors⟩
  · exact ⟨_, .served "" [] [] (by simp), [startedMessage ""], rfl⟩
  · exact ⟨_, .refused status, List.prefix_refl _⟩
  · refine ⟨_, .served interfaceName packets errors ?_, ?_⟩
    · intro data hdata
      exact carriesPacket_iff.mp (hpackets data hdata)
    · have hframes : frameOf ∘ (fun data : Bytes => Except.ok (packetMessage data)) =
          packetMessage := rfl
      have herrors : frameOf ∘ (fun status : Status => Except.ok (errorMessage status)) =
          errorMessage := rfl
      rw [List.map_append, List.map_cons, List.map_map, List.map_map, hframes, herrors]
      exact List.prefix_refl _

end Responses

/-! ### Where the parties are -/

/-- The worker, and what the task knows of it. -/
def Worker : ReaderThread → Reader → Prop
  | .reading, .running => True
  | .sending message none, .running => ∃ data, CarriesPacket data ∧ message = packetMessage data
  | .sending message (some _), .running => ∃ status, message = errorMessage status
  | .finishing _, .running => True
  | .ended, .ended _ => True
  | _, _ => False

/-- What the task has still to report, and where its worker is. -/
def Staged (reader : ReaderThread) (toReport : List (Except Status ServerMessage)) :
    Option SessionTask → Prop
  | none => reader = .idle ∧ toReport = []
  | some task =>
    match task.phase with
    | .spawned | .cancelled | .starting | .announcing _ =>
      reader = .idle ∧ toReport = [] ∧ task.reports = []
    | .startFailed => reader = .idle ∧ toReport = [] ∧ ∃ status, task.reports = [status]
    | .finished none =>
      reader = .idle ∧ (toReport = [] ∨ ∃ status, toReport = [.error status])
    | .looping _ known | .closing _ known | .joining _ known =>
      toReport = [] ∧ Worker reader known
    | .releasing _ | .finished (some _) =>
      reader = .ended ∧ ∀ item ∈ toReport, ∃ status, item = .ok (errorMessage status)

/-- The worker is the only one that sends until it ends. -/
def Streamed (sent : List (Except Status ServerMessage)) : ReaderThread → Prop
  | .reading | .sending _ _ => Packets sent
  | _ => Errors sent

/-- What the responses are while somebody receives them. -/
def Shaped (sent : List (Except Status ServerMessage)) (reader : ReaderThread)
    (toReport : List (Except Status ServerMessage)) : Option SessionTask → Prop
  | none => sent = []
  | some task =>
    match task.phase with
    | .spawned | .cancelled | .starting | .announcing _ | .startFailed => sent = []
    | .finished none => sent = [] ∨ toReport = [] ∧ ∃ status, sent = [.error status]
    | .looping _ _ | .closing _ _ | .joining _ _ => Streamed sent reader
    | .releasing _ | .finished (some _) => Errors sent

/-- The worker has been spawned and not been joined. -/
inductive InLoop (known : Reader) : SessionPhase → Prop
  | looping (tun : TunSession) : InLoop known (.looping tun known)
  | closing (tun : TunSession) : InLoop known (.closing tun known)
  | joining (tun : TunSession) : InLoop known (.joining tun known)

/-- The worker has been joined. -/
inductive Behind : SessionPhase → Prop
  | releasing (tun : TunSession) : Behind (.releasing tun)
  | finished (tun : TunSession) : Behind (.finished (some tun))

section Phases

variable {reader : ReaderThread} {sent toReport : List (Except Status ServerMessage)}
  {task : SessionTask}

theorem staged_of_inLoop {known : Reader} (hp : InLoop known task.phase) :
    Staged reader toReport (some task) ↔ toReport = [] ∧ Worker reader known := by
  obtain ⟨name, phase, reports⟩ := task
  cases hp with
  | _ => rfl

theorem shaped_of_inLoop {known : Reader} (hp : InLoop known task.phase) :
    Shaped sent reader toReport (some task) ↔ Streamed sent reader := by
  obtain ⟨name, phase, reports⟩ := task
  cases hp with
  | _ => rfl

theorem staged_of_behind (hp : Behind task.phase) :
    Staged reader toReport (some task) ↔
      reader = .ended ∧ ∀ item ∈ toReport, ∃ status, item = .ok (errorMessage status) := by
  obtain ⟨name, phase, reports⟩ := task
  cases hp with
  | _ => rfl

theorem shaped_of_behind (hp : Behind task.phase) :
    Shaped sent reader toReport (some task) ↔ Errors sent := by
  obtain ⟨name, phase, reports⟩ := task
  cases hp with
  | _ => rfl

theorem ReaderEnds.inLoop {error : Option String} {phase phase' : SessionPhase}
    (h : ReaderEnds error phase phase') : InLoop (.ended error) phase' := by
  cases h with
  | looping tun => exact .looping tun
  | closing tun => exact .closing tun
  | joining tun => exact .joining tun

end Phases

/-- `session` has not returned yet. -/
def opening : WriteHalf → Bool
  | .greeting | .first | .calling | .receiving | .locking _ => true
  | _ => false

/-- The frames that were written, and the responses that were received for them. -/
def Answers (ready : ServerMessage) (received frames : List ServerMessage) : WriteHalf → Prop
  | .greeting => received = [] ∧ frames = []
  | .first | .calling | .receiving | .locking _ | .rejected _ => received = [] ∧ frames = [ready]
  | .responding => frames = ready :: received
  | .writing message => frames ++ [message] = ready :: received
  | .ended => frames <+: ready :: received ∨ ∃ status, frames = [ready, errorMessage status]

structure Orderly (pid : UInt32) (s : Conversation) : Prop where
  answers : Answers (readyMessage pid) (s.responses.delivered.map frameOf) s.outbound.sent s.write
  conforms : Conforms s.responses.sent
  fresh : opening s.write = true → s.task = none ∧ s.responses.sent = []
  staged : Staged s.reader s.toReport s.task
  shaped : s.responsesOpen = true → Shaped s.responses.sent s.reader s.toReport s.task

theorem orderly_start (pid : UInt32) : Orderly pid start where
  answers := ⟨rfl, rfl⟩
  conforms := Or.inl rfl
  fresh := fun _ => ⟨rfl, rfl⟩
  staged := ⟨rfl, rfl⟩
  shaped := fun h => by cases h

/-- A write half that ends has written the beginning of what it was to write. -/
theorem Answers.ended {ready : ServerMessage} {received frames : List ServerMessage}
    {write : WriteHalf} (h : Answers ready received frames write) :
    Answers ready received frames .ended := by
  cases write with
  | greeting => exact Or.inl (by simp [h.2])
  | responding => exact Or.inl (h ▸ List.prefix_refl _)
  | writing message => exact Or.inl ⟨[message], h⟩
  | ended => exact h
  | _ => exact Or.inl (by simp [h.1, h.2])

/-! ### Every step keeps the order -/

section Steps

variable {macos : Bool} {pid : UInt32} {s s' : Conversation}

/-- Until `session` returns there is the greeting and nothing else. -/
theorem Answers.of_opening {ready : ServerMessage} {received frames : List ServerMessage}
    {write write' : WriteHalf} (h : Answers ready received frames write)
    (hwrite : opening write = true) (hgreeting : write ≠ .greeting)
    (hwrite' : opening write' = true ∧ write' ≠ .greeting ∨ ∃ status, write' = .rejected status) :
    Answers ready received frames write' := by
  have hgreeted : received = [] ∧ frames = [ready] := by
    cases write with
    | greeting => exact absurd rfl hgreeting
    | rejected _ | responding | writing _ | ended => cases hwrite
    | _ => exact h
  rcases hwrite' with ⟨hopening, hne⟩ | ⟨status, rfl⟩
  · cases write' with
    | greeting => exact absurd rfl hne
    | rejected _ | responding | writing _ | ended => cases hopening
    | _ => exact hgreeted
  · exact hgreeted

theorem Orderly.serve (h : Orderly pid s) (hserve : Serves macos pid s s') : Orderly pid s' := by
  obtain ⟨hanswers, hconforms, hfresh, hstaged, hshaped⟩ := h
  cases hserve with
  | halt | stopDaemon _ _ | forwardError _ | writeEnd =>
      exact ⟨hanswers.ended, hconforms, (by intro ho; cases ho), hstaged, (by intro ho; cases ho)⟩
  | readEnd _ | readInvalid _ | readMessage _ _ | forward _ =>
      exact ⟨hanswers, hconforms, hfresh, hstaged, hshaped⟩
  | greet hwrite =>
      rw [hwrite] at hanswers hfresh
      obtain ⟨hreceived, hframes⟩ := hanswers
      refine ⟨⟨hreceived, ?_⟩, hconforms, hfresh, hstaged, (by intro ho; cases ho)⟩
      rw [Channel.sent_send, hframes, List.nil_append]
  | split hwrite _ | call hwrite | accept hwrite _ _ =>
      rw [hwrite] at hanswers hfresh
      exact ⟨hanswers.of_opening rfl (by simp) (Or.inl ⟨rfl, by simp⟩), hconforms, hfresh,
        hstaged, (by intro ho; cases ho)⟩
  | refuse status hwrite =>
      have hopening : opening s.write = true ∧ s.write ≠ .greeting := by
        rcases hwrite with hwrite | hwrite | ⟨config, hwrite⟩
        · rw [hwrite]
          exact ⟨rfl, by simp⟩
        · rw [hwrite]
          exact ⟨rfl, by simp⟩
        · rw [hwrite]
          exact ⟨rfl, by simp⟩
      exact ⟨hanswers.of_opening hopening.1 hopening.2 (Or.inr ⟨status, rfl⟩), hconforms,
        (by intro ho; cases ho), hstaged, (by intro ho; cases ho)⟩
  | refuseFirst status hwrite _ =>
      rw [hwrite] at hanswers
      exact ⟨hanswers.of_opening rfl (by simp) (Or.inr ⟨status, rfl⟩), hconforms,
        (by intro ho; cases ho), hstaged, (by intro ho; cases ho)⟩
  | spawn hwrite =>
      rw [hwrite] at hanswers hfresh
      obtain ⟨hreceived, hframes⟩ := hanswers
      obtain ⟨htask, hsent⟩ := hfresh rfl
      rw [htask] at hstaged
      refine ⟨?_, hconforms, (by intro ho; cases ho), ⟨hstaged.1, hstaged.2, rfl⟩, fun _ => hsent⟩
      show s.outbound.sent = _ :: _
      rw [hframes, hreceived]
  | @reject status hwrite =>
      rw [hwrite] at hanswers
      obtain ⟨_, hframes⟩ := hanswers
      refine ⟨Or.inr ⟨status, ?_⟩, hconforms, (by intro ho; cases ho), hstaged,
        (by intro ho; cases ho)⟩
      rw [Channel.sent_send, hframes]
      rfl
  | next hwrite hm =>
      have hopen : s.responsesOpen = true := by rw [responsesOpen, hwrite]
      rw [hwrite] at hanswers
      have hframes : s.outbound.sent = readyMessage pid :: s.responses.delivered.map frameOf :=
        hanswers
      have hsent := Channel.sent_of_receive hm
      refine ⟨?_, hsent ▸ hconforms, (by intro ho; cases ho), hstaged, fun _ => ?_⟩
      · show s.outbound.sent ++ [_] = _
        rw [Channel.delivered_of_receive hm, List.map_append, hframes]
        rfl
      · show Shaped _ _ _ _
        rw [hsent]
        exact hshaped hopen
  | wrote hwrite =>
      have hopen : s.responsesOpen = true := by rw [responsesOpen, hwrite]
      rw [hwrite] at hanswers
      exact ⟨hanswers, hconforms, (by intro ho; cases ho), hstaged, fun _ => hshaped hopen⟩

/-- With a task the write half is behind `session`. -/
theorem Orderly.not_opening (h : Orderly pid s) {task : SessionTask} (ht : s.task = some task)
    {P : Prop} (hopening : opening s.write = true) : P := by
  have hnone := (h.fresh hopening).1
  rw [ht] at hnone
  cases hnone

/-- A step of the task that sends nothing and leaves the worker alone. -/
theorem Orderly.enter (h : Orderly pid s) {task : SessionTask} {phase : SessionPhase}
    {reports : List Status} {t : Conversation} (ht : s.task = some task)
    (hwrite : t.write = s.write) (houtbound : t.outbound = s.outbound)
    (hresponses : t.responses = s.responses)
    (hstaged : Staged t.reader t.toReport
      (some { task with phase := phase, reports := task.reports ++ reports }))
    (hshaped : s.responsesOpen = true → Shaped s.responses.sent t.reader t.toReport
      (some { task with phase := phase, reports := task.reports ++ reports })) :
    Orderly pid (t.enter task phase reports) := by
  have hopen : t.responsesOpen = s.responsesOpen := by rw [responsesOpen, hwrite]; rfl
  refine ⟨?_, ?_, ?_, hstaged, ?_⟩
  · show Answers _ (t.responses.delivered.map frameOf) t.outbound.sent t.write
    rw [hwrite, houtbound, hresponses]
    exact h.answers
  · show Conforms t.responses.sent
    rw [hresponses]
    exact h.conforms
  · intro hopening
    exact h.not_opening ht (hwrite ▸ hopening)
  · intro ho
    show Shaped t.responses.sent _ _ _
    rw [hresponses]
    exact hshaped (hopen.symm.trans ho)

/-- The responses are sent to somebody who receives them. -/
theorem Orderly.push (h : Orderly pid s) {item : Except Status ServerMessage} {t : Conversation}
    (hopen : s.responsesOpen = true) (hwrite : t.write = s.write)
    (houtbound : t.outbound = s.outbound) (hresponses : t.responses = s.responses.send item)
    (hconforms : Conforms (s.responses.sent ++ [item]))
    (hstaged : Staged t.reader t.toReport t.task)
    (hshaped : Shaped (s.responses.sent ++ [item]) t.reader t.toReport t.task) :
    Orderly pid t := by
  refine ⟨?_, ?_, ?_, hstaged, fun _ => ?_⟩
  · rw [hwrite, houtbound, hresponses, Channel.delivered_send]
    exact h.answers
  · rw [hresponses]
    exact hconforms
  · intro hopening
    rw [hwrite] at hopening
    unfold responsesOpen at hopen
    cases hphase : s.write with
    | responding | writing _ =>
        rw [hphase] at hopening
        cases hopening
    | _ =>
        rw [hphase] at hopen
        cases hopen
  · rw [hresponses]
    exact hshaped

/-- A task that has something to report has failed to start, or is behind its loop. -/
theorem Staged.reporting {reader : ReaderThread} {item : Except Status ServerMessage}
    {rest : List (Except Status ServerMessage)} {task : Option SessionTask}
    (h : Staged reader (item :: rest) task) :
    ∃ t, task = some t ∧
      (Behind t.phase ∨
        t.phase = .finished none ∧ reader = .idle ∧ rest = [] ∧
          ∃ status, item = .error status) := by
  cases task with
  | none => cases h.2
  | some t =>
      refine ⟨t, rfl, ?_⟩
      cases hp : t.phase with
      | spawned | cancelled | starting | announcing _ | startFailed =>
          simp only [Staged, hp] at h
          cases h.2.1
      | looping _ _ | closing _ _ | joining _ _ =>
          simp only [Staged, hp] at h
          cases h.1
      | releasing tun => exact Or.inl (.releasing tun)
      | finished tun =>
          cases tun with
          | none =>
              simp only [Staged, hp] at h
              obtain ⟨hreader, hnil | ⟨status, hone⟩⟩ := h
              · cases hnil
              · cases hone
                exact Or.inr ⟨rfl, hreader, rfl, status, rfl⟩
          | some tun => exact Or.inl (.finished tun)

theorem Staged.tail {reader : ReaderThread} {item : Except Status ServerMessage}
    {rest : List (Except Status ServerMessage)} {task : Option SessionTask}
    (h : Staged reader (item :: rest) task) : Staged reader rest task := by
  obtain ⟨task, rfl, hp | ⟨hp, hreader, rfl, _⟩⟩ := h.reporting
  · rw [staged_of_behind hp] at h ⊢
    exact ⟨h.1, fun i hi => h.2 i (List.mem_cons_of_mem _ hi)⟩
  · simp only [Staged, hp]
    exact ⟨hreader, Or.inl trivial⟩

theorem Orderly.report (h : Orderly pid s) {item : Except Status ServerMessage}
    {rest : List (Except Status ServerMessage)} (hreport : s.toReport = item :: rest)
    (hopen : s.responsesOpen = true) :
    Orderly pid { s with responses := s.responses.send item, toReport := rest } := by
  have hstaged := h.staged
  have hshaped := h.shaped hopen
  rw [hreport] at hstaged hshaped
  have htail := hstaged.tail
  obtain ⟨task, ht, hp | ⟨hp, _, rfl, status, rfl⟩⟩ := hstaged.reporting
  · rw [ht, staged_of_behind hp] at hstaged
    rw [ht, shaped_of_behind hp] at hshaped
    obtain ⟨status, rfl⟩ := hstaged.2 item List.mem_cons_self
    have herrors := hshaped.push status
    refine h.push hopen rfl rfl rfl herrors.conforms htail ?_
    rw [ht, shaped_of_behind hp]
    exact herrors
  · simp only [ht, Shaped, hp] at hshaped
    rcases hshaped with hsent | ⟨hnil, _⟩
    · have hone : s.responses.sent ++ [.error status] = [.error status] := by
        rw [hsent, List.nil_append]
      refine h.push hopen rfl rfl rfl (Or.inr (Or.inl ⟨status, hone⟩)) htail ?_
      simp only [ht, Shaped, hp]
      exact Or.inr ⟨trivial, status, hone⟩
    · cases hnil

theorem Orderly.reportLost (h : Orderly pid s) {item : Except Status ServerMessage}
    {rest : List (Except Status ServerMessage)} (hreport : s.toReport = item :: rest) :
    Orderly pid { s with toReport := rest } := by
  have hstaged := h.staged
  have hshaped := h.shaped
  rw [hreport] at hstaged hshaped
  refine ⟨h.answers, h.conforms, h.fresh, hstaged.tail, ?_⟩
  obtain ⟨task, ht, hp | ⟨hp, _, rfl, _⟩⟩ := hstaged.reporting
  · rw [ht, shaped_of_behind hp] at hshaped ⊢
    exact hshaped
  · simp only [ht, Shaped, hp] at hshaped ⊢
    intro hopen
    rcases hshaped hopen with hsent | ⟨hnil, _⟩
    · exact Or.inl hsent
    · cases hnil

theorem Orderly.work (h : Orderly pid s) (hwork : Works s s') : Orderly pid s' := by
  have hstaged := h.staged
  have hshaped := h.shaped
  cases hwork with
  | @begin task phase ht hp hp' =>
      simp only [ht, Staged, hp] at hstaged
      simp only [ht, Shaped, hp] at hshaped
      obtain ⟨hreader, hnone, hreports⟩ := hstaged
      have hkept : task.reports ++ [] = [] := by rw [List.append_nil, hreports]
      rcases hp' with rfl | rfl
      · exact h.enter ht rfl rfl rfl ⟨hreader, hnone, hkept⟩ hshaped
      · exact h.enter ht rfl rfl rfl ⟨hreader, hnone, hkept⟩ hshaped
  | @startFailed task status ht hp =>
      simp only [ht, Staged, hp] at hstaged
      simp only [ht, Shaped, hp] at hshaped
      obtain ⟨hreader, hnone, hreports⟩ := hstaged
      have hkept : task.reports ++ [status] = [status] := by rw [hreports, List.nil_append]
      exact h.enter ht rfl rfl rfl ⟨hreader, hnone, status, hkept⟩ hshaped
  | @started task tun ht hp =>
      simp only [ht, Staged, hp] at hstaged
      simp only [ht, Shaped, hp] at hshaped
      obtain ⟨hreader, hnone, hreports⟩ := hstaged
      have hkept : task.reports ++ [] = [] := by rw [List.append_nil, hreports]
      exact h.enter ht rfl rfl rfl ⟨hreader, hnone, hkept⟩ hshaped
  | @announce task tun ht hp hopen =>
      simp only [ht, Staged, hp] at hstaged
      simp only [ht, Shaped, hp] at hshaped
      have hpackets : Packets (s.responses.sent ++ [.ok (startedMessage tun.interfaceName)]) := by
        rw [hshaped hopen]
        exact .mk tun.interfaceName [] (by simp)
      exact h.push hopen rfl rfl rfl hpackets.errors.conforms ⟨hstaged.2.1, trivial⟩ hpackets
  | announceLost ht hp hopen =>
      simp only [ht, Staged, hp] at hstaged
      refine h.enter ht rfl rfl rfl ⟨hstaged.2.1, trivial⟩ ?_
      intro ho
      rw [hopen] at ho
      cases ho
  | take ht hp _ | takeLast reports ht hp _ | endLoop reports ht hp | close tun' reports ht hp =>
      simp only [ht, Staged, hp] at hstaged
      simp only [ht, Shaped, hp] at hshaped
      exact h.enter ht rfl rfl rfl hstaged hshaped
  | @join task tun error ht hp =>
      simp only [ht, Staged, hp] at hstaged
      simp only [ht, Shaped, hp] at hshaped
      have hreader : s.reader = .ended := by
        cases hthread : s.reader with
        | ended => rfl
        | sending message e =>
            rw [hthread] at hstaged
            cases e with
            | none => cases hstaged.2
            | some e => cases hstaged.2
        | _ =>
            rw [hthread] at hstaged
            cases hstaged.2
      rw [hreader] at hshaped
      refine h.enter ht rfl rfl rfl ⟨hreader, ?_⟩ hshaped
      intro item hitem
      obtain ⟨status, _, rfl⟩ := List.mem_map.mp hitem
      exact ⟨status, rfl⟩
  | report hreport hopen => exact h.report hreport hopen
  | reportLost hreport => exact h.reportLost hreport
  | releaseCancelled ht hp hdone =>
      simp only [ht, Staged, hp] at hstaged
      simp only [ht, Shaped, hp] at hshaped
      exact h.enter ht rfl rfl rfl ⟨hstaged.1, Or.inl hdone⟩ fun ho => Or.inl (hshaped ho)
  | @releaseFailed task ht hp hdone =>
      simp only [ht, Staged, hp] at hstaged
      simp only [ht, Shaped, hp] at hshaped
      obtain ⟨hreader, _, status, hreports⟩ := hstaged
      have hone : task.reports.map Except.error =
          [(.error status : Except Status ServerMessage)] := by
        rw [hreports]
        rfl
      exact h.enter ht rfl rfl rfl ⟨hreader, Or.inr ⟨status, hone⟩⟩ fun ho => Or.inl (hshaped ho)
  | release ht hp hdone =>
      simp only [ht, Staged, hp] at hstaged
      simp only [ht, Shaped, hp] at hshaped
      exact h.enter ht rfl rfl rfl hstaged hshaped

/-- The worker is in its loop while it reads or sends. -/
theorem Staged.inLoop {reader : ReaderThread} {toReport : List (Except Status ServerMessage)}
    {task : Option SessionTask} (h : Staged reader toReport task) (hidle : reader ≠ .idle)
    (hended : reader ≠ .ended) :
    ∃ t, task = some t ∧ InLoop .running t.phase ∧ toReport = [] ∧ Worker reader .running := by
  have hrunning : ∀ {known : Reader}, Worker reader known → known = .running := by
    intro known hworker
    cases known with
    | running => rfl
    | ended e =>
        cases reader with
        | ended => exact absurd rfl hended
        | sending message error =>
            cases error with
            | none => cases hworker
            | some _ => cases hworker
        | _ => cases hworker
  cases task with
  | none => exact absurd h.1 hidle
  | some t =>
      obtain ⟨name, phase, reports⟩ := t
      refine ⟨_, rfl, ?_⟩
      cases phase with
      | looping tun known =>
          obtain rfl := hrunning h.2
          exact ⟨.looping tun, h.1, h.2⟩
      | closing tun known =>
          obtain rfl := hrunning h.2
          exact ⟨.closing tun, h.1, h.2⟩
      | joining tun known =>
          obtain rfl := hrunning h.2
          exact ⟨.joining tun, h.1, h.2⟩
      | releasing tun => exact absurd h.1 hended
      | finished tun =>
          cases tun with
          | none => exact absurd h.1 hidle
          | some tun => exact absurd h.1 hended
      | _ => exact absurd h.1 hidle

/-- A step of the worker that sends nothing. -/
theorem Orderly.moveReader (h : Orderly pid s) {reader : ReaderThread} {tunReads : List Bytes}
    {task : SessionTask} (ht : s.task = some task) (hp : InLoop .running task.phase)
    (hreport : s.toReport = []) (hworker : Worker reader .running)
    (hstreamed : s.responsesOpen = true → Streamed s.responses.sent reader) :
    Orderly pid { s with reader := reader, tunReads := tunReads } := by
  refine ⟨h.answers, h.conforms, h.fresh, ?_, ?_⟩
  · rw [ht, staged_of_inLoop hp]
    exact ⟨hreport, hworker⟩
  · intro hopen
    rw [ht, shaped_of_inLoop hp]
    exact hstreamed hopen

theorem Orderly.read (h : Orderly pid s) (hread : ReadsTun s s') : Orderly pid s' := by
  have hinLoop : s.reader ≠ .idle → s.reader ≠ .ended → ∃ task, s.task = some task ∧
      InLoop .running task.phase ∧ s.toReport = [] ∧ Worker s.reader .running ∧
      (s.responsesOpen = true → Streamed s.responses.sent s.reader) := by
    intro hidle hended
    obtain ⟨task, ht, hp, hreport, hworker⟩ := h.staged.inLoop hidle hended
    have hshaped := h.shaped
    rw [ht, shaped_of_inLoop hp] at hshaped
    exact ⟨task, ht, hp, hreport, hworker, hshaped⟩
  cases hread with
  | @packet data hreader hdata =>
      obtain ⟨task, ht, hp, hreport, _, hstreamed⟩ :=
        hinLoop (by simp [hreader]) (by simp [hreader])
      rw [hreader] at hstreamed
      exact h.moveReader ht hp hreport ⟨data, hdata, rfl⟩ hstreamed
  | skip hreader hdata =>
      obtain ⟨task, ht, hp, hreport, hworker, hstreamed⟩ :=
        hinLoop (by simp [hreader]) (by simp [hreader])
      exact h.moveReader ht hp hreport hworker hstreamed
  | interrupted hreader =>
      obtain ⟨task, ht, hp, hreport, _, hstreamed⟩ :=
        hinLoop (by simp [hreader]) (by simp [hreader])
      rw [hreader] at hstreamed
      exact h.moveReader ht hp hreport trivial fun ho => (hstreamed ho).errors
  | failed status error hreader =>
      obtain ⟨task, ht, hp, hreport, _, hstreamed⟩ :=
        hinLoop (by simp [hreader]) (by simp [hreader])
      rw [hreader] at hstreamed
      exact h.moveReader ht hp hreport ⟨status, rfl⟩ hstreamed
  | @respond message error hreader hopen =>
      obtain ⟨task, ht, hp, hreport, hworker, hstreamed⟩ :=
        hinLoop (by simp [hreader]) (by simp [hreader])
      rw [hreader] at hworker hstreamed
      have hpackets : Packets s.responses.sent := hstreamed hopen
      cases error with
      | none =>
          obtain ⟨data, hdata, rfl⟩ := hworker
          have hpush := hpackets.push hdata
          refine h.push hopen rfl rfl rfl hpush.errors.conforms ?_ ?_
          · rw [ht, staged_of_inLoop hp]
            exact ⟨hreport, trivial⟩
          · rw [ht, shaped_of_inLoop hp]
            exact hpush
      | some e =>
          obtain ⟨status, rfl⟩ := hworker
          have hpush := hpackets.errors.push status
          refine h.push hopen rfl rfl rfl hpush.conforms ?_ ?_
          · rw [ht, staged_of_inLoop hp]
            exact ⟨hreport, trivial⟩
          · rw [ht, shaped_of_inLoop hp]
            exact hpush
  | @lose message error hreader =>
      obtain ⟨task, ht, hp, hreport, _, hstreamed⟩ :=
        hinLoop (by simp [hreader]) (by simp [hreader])
      rw [hreader] at hstreamed
      have herrors : s.responsesOpen = true → Errors s.responses.sent :=
        fun ho => Packets.errors (hstreamed ho)
      cases error with
      | none => exact h.moveReader ht hp hreport trivial herrors
      | some e => exact h.moveReader ht hp hreport trivial herrors
  | @done task error phase hreader ht hp =>
      obtain ⟨task', ht', hp', hreport, _, hstreamed⟩ :=
        hinLoop (by simp [hreader]) (by simp [hreader])
      rw [hreader] at hstreamed
      have hphase := hp.inLoop
      refine h.enter ht rfl rfl rfl ?_ ?_
      · rw [staged_of_inLoop hphase]
        exact ⟨hreport, trivial⟩
      · intro hopen
        rw [shaped_of_inLoop hphase]
        exact hstreamed hopen

theorem orderly_step {label : ConversationLabel} (h : Orderly pid s)
    (hstep : s.step macos pid label = some s') : Orderly pid s' := by
  cases step_moves hstep with
  | stop | arrive _ => exact ⟨h.answers, h.conforms, h.fresh, h.staged, h.shaped⟩
  | depart hm =>
      refine ⟨?_, h.conforms, h.fresh, h.staged, h.shaped⟩
      rw [Channel.sent_of_receive hm]
      exact h.answers
  | serve hserve => exact h.serve hserve
  | task hwork => exact h.work hwork
  | reader hread => exact h.read hread

end Steps

/-- The frames of a connection are the beginning of a session. -/
theorem Orderly.word {pid : UInt32} {s : Conversation} (h : Orderly pid s) :
    ∃ word, SessionWord pid word ∧ s.outbound.sent <+: word := by
  obtain ⟨word, hword, hresponses⟩ := h.conforms.word pid
  have hreceived : readyMessage pid :: s.responses.delivered.map frameOf <+: word := by
    refine List.IsPrefix.trans ?_ hresponses
    exact (List.prefix_cons_inj _).mpr (s.responses.delivered_isPrefix.map frameOf)
  have hended : s.outbound.sent <+: readyMessage pid :: s.responses.delivered.map frameOf ∨
      ∃ status, s.outbound.sent = [readyMessage pid, errorMessage status] := h.answers.ended
  rcases hended with hsent | ⟨status, hsent⟩
  · exact ⟨word, hword, hsent.trans hreceived⟩
  · rw [hsent]
    exact ⟨_, .refused status, List.prefix_refl _⟩

theorem orderly_of_reachable {macos : Bool} {pid : UInt32} {s : Conversation}
    (h : Reachable (step macos pid) start s) : Orderly pid s :=
  reachable_invariant (orderly_start pid) (fun _ _ _ hs hstep => orderly_step hs hstep) h

end Conversation

end Daemon
end WgKotlin
