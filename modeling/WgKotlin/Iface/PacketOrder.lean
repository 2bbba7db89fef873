import WgKotlin.Daemon.Packets
import WgKotlin.Iface.SessionAgreement

/-!
# Packets between the pipe and the TUN

The coroutines of the bridge are the two processes at the client's end.  With the
processes of the daemon they make one chain in each direction.
-/

namespace WgKotlin
namespace Iface

open Daemon Library Proto

namespace Session

/-! ### What the coroutines hold -/

def heldByWriter : WriterRoutine → Option (List Bytes)
  | .waiting | .receiving => some []
  | .writing data => some (outgoingData { payload := some (.outgoingPacket data) }).toList
  | .ended _ => none

/-- A bridge that could not be opened has no reader. -/
def heldByReader (reader : ReaderRoutine) : OpenPhase → Option (List Bytes)
  | .failed _ => none
  | _ =>
    match reader with
    | .waiting | .reading => some []
    | .sending data => some [data]
    | .ended _ => none

structure Crosses (s : Session) : Prop where
  idle : s.bridge.phase ≠ .opened → s.bridge.writer = .waiting
  writer : Relays (s.daemon.inbound.sent.filterMap outgoingData) s.bridge.taken
    (heldByWriter s.bridge.writer)
  reader : Relays s.bridge.put (s.daemon.outbound.delivered.filterMap incomingData)
    (heldByReader s.bridge.reader s.bridge.phase)

theorem crosses_start : Crosses start := ⟨fun _ => rfl, rfl, rfl⟩

variable {macos : Bool} {pid : UInt32} {config : TunSessionConfig} {expectedPid : Int}
  {s s' : Session}

/-! ### The messages -/

theorem incomingData_eq_none {message : ServerMessage}
    (h : ∀ data, message.payload ≠ some (.incomingPacket data)) : incomingData message = none := by
  obtain ⟨payload⟩ := message
  cases payload with
  | none => rfl
  | some payload =>
      cases payload with
      | incomingPacket data => exact absurd rfl (h data)
      | _ => rfl

theorem incomingData_of_awaitReady {message : ServerMessage}
    (h : awaitReady expectedPid message = .ok ()) : incomingData message = none := by
  refine incomingData_eq_none fun data hdata => ?_
  simp [awaitReady, hdata] at h

theorem incomingData_of_acceptReply {message : ServerMessage}
    (h : acceptReply message = .ok ()) : incomingData message = none := by
  refine incomingData_eq_none fun data hdata => ?_
  simp [acceptReply, hdata] at h

theorem incomingData_of_acceptMessage {message : ServerMessage} {data : Bytes}
    (h : acceptMessage message = .ok data) : incomingData message = some data := by
  obtain ⟨payload⟩ := message
  cases payload with
  | none => cases h
  | some payload =>
      cases payload with
      | incomingPacket data =>
          cases h
          rfl
      | _ => cases h

theorem outgoingData_of_length {data : Bytes} (h : 1 ≤ data.length ∧ data.length ≤ 65535) :
    outgoingData { payload := some (.outgoingPacket data) } = some data := by
  have hdata : CarriesPacket data := carriesPacket_iff.mpr h
  rw [outgoingData, Conversation.outgoing, if_pos hdata]

/-! ### Every step keeps the order -/

theorem Crosses.receives (h : Crosses s) (hattuned : Attuned s) {message : ServerMessage}
    {outbound : Channel ServerMessage} {bridge : Bridge}
    (hm : s.daemon.outbound.receive = some (message, outbound))
    (hreceives : Receives s.bridge message bridge) :
    Crosses { daemon := { s.daemon with outbound := outbound }, bridge := bridge } := by
  have hreader := h.reader
  have hplace := hattuned.place
  have hdelivered : outbound.delivered.filterMap incomingData =
      s.daemon.outbound.delivered.filterMap incomingData ++ (incomingData message).toList :=
    Conversation.filterMap_delivered_of_receive hm
  cases hreceives with
  | ready hphase hready =>
      rw [hphase] at hreader
      refine ⟨fun _ => h.idle (by simp [hphase]), h.writer, ?_⟩
      show Relays _ (outbound.delivered.filterMap incomingData) _
      rw [hdelivered, incomingData_of_awaitReady hready, Option.toList_none, List.append_nil]
      exact hreader
  | notReady hphase hready =>
      refine ⟨fun _ => h.idle (by simp [hphase]), h.writer, ?_⟩
      show Relays _ (outbound.delivered.filterMap incomingData) none
      rw [hdelivered]
      exact hreader.lose _
  | opened hphase hreply =>
      have hidle := h.idle (by simp [hphase])
      have hwriter := h.writer
      rw [hphase] at hplace hreader
      rw [hplace.2] at hreader
      rw [hidle] at hwriter
      refine ⟨(by simp), hwriter, ?_⟩
      show Relays _ (outbound.delivered.filterMap incomingData) (some [])
      rw [hdelivered, incomingData_of_acceptReply hreply, Option.toList_none, List.append_nil]
      exact hreader
  | refused hphase hreply =>
      refine ⟨fun _ => h.idle (by simp [hphase]), h.writer, ?_⟩
      show Relays _ (outbound.delivered.filterMap incomingData) none
      rw [hdelivered]
      exact hreader.lose _
  | @packet data hread hdata =>
      have hopened := hplace.opened (by simp [hread])
      rw [hopened, hread] at hreader
      refine ⟨h.idle, h.writer, ?_⟩
      show Relays _ (outbound.delivered.filterMap incomingData)
        (heldByReader (.sending data) s.bridge.phase)
      rw [hopened, hdelivered, incomingData_of_acceptMessage hdata]
      exact hreader.take [data]
  | @failed e hread he =>
      have hopened := hplace.opened (by simp [hread])
      obtain ⟨closed, failures, hend⟩ := s.bridge.endReader_eq e
      rw [hend]
      refine ⟨h.idle, h.writer, ?_⟩
      show Relays _ (outbound.delivered.filterMap incomingData)
        (heldByReader (.ended (some e)) s.bridge.phase)
      rw [hopened, hdelivered]
      exact hreader.lose _

theorem Crosses.writes (h : Crosses s) {payload : ClientPayload} {bridge : Bridge}
    (hwrites : Writes config s.bridge payload bridge) : Crosses (s.arrive payload bridge) := by
  have hreader := h.reader
  have hwriter := h.writer
  cases hwrites with
  | config hphase =>
      rw [hphase] at hreader
      refine ⟨fun _ => h.idle (by simp [hphase]), ?_, hreader⟩
      show Relays ((_ ++ [_]).filterMap outgoingData) _ _
      rw [Conversation.filterMap_append_singleton]
      have hconfig : outgoingData { payload := some (.config config) } = none := rfl
      rw [hconfig, Option.toList_none, List.append_nil]
      exact hwriter
  | packet hwriting =>
      rw [hwriting] at hwriter
      refine ⟨?_, ?_, hreader⟩
      · intro hphase
        rw [h.idle hphase] at hwriting
        cases hwriting
      · show Relays ((_ ++ [_]).filterMap outgoingData) _ (some [])
        rw [Conversation.filterMap_append_singleton]
        exact hwriter.pass

theorem Crosses.rests (h : Crosses s) (hattuned : Attuned s) {bridge : Bridge}
    (hrests : Rests s.bridge bridge) : Crosses { s with bridge := bridge } := by
  have hreader := h.reader
  have hwriter := h.writer
  have hplace := hattuned.place
  -- The writer runs in an open session only.
  have hopened : ∀ {writer : WriterRoutine}, s.bridge.writer ≠ .waiting →
      s.bridge.phase ≠ .opened → writer = .waiting :=
    fun hne hphase => absurd (h.idle hphase) hne
  cases hrests with
  | abandon message hphase => exact ⟨fun _ => h.idle hphase.1, hwriter, hreader.stop⟩
  | @put data hsending =>
      have hopen := hplace.opened (by simp [hsending])
      rw [hopen, hsending] at hreader
      refine ⟨h.idle, hwriter, ?_⟩
      show Relays (s.bridge.put ++ [data]) _ (heldByReader .reading s.bridge.phase)
      rw [hopen]
      exact hreader.pass
  | @take data hreceiving hdata =>
      rw [hreceiving] at hwriter
      refine ⟨hopened (by simp [hreceiving]), ?_, hreader⟩
      show Relays _ (s.bridge.taken ++ [data]) (some _)
      rw [outgoingData_of_length hdata]
      exact hwriter.take [data]
  | takeInvalid data hreceiving =>
      obtain ⟨closed, failures, hend⟩ :=
        Bridge.endWriter_eq { s.bridge with taken := s.bridge.taken ++ [data] } .invalidLength
      rw [hend]
      exact ⟨hopened (by simp [hreceiving]), hwriter.lose [data], hreader⟩
  | readFails message hstarted =>
      obtain ⟨closed, failures, hend⟩ := s.bridge.endReader_eq (.transport message)
      rw [hend]
      refine ⟨h.idle, hwriter, ?_⟩
      show Relays _ _ (heldByReader (.ended _) s.bridge.phase)
      rw [hplace.opened hstarted]
      exact hreader.stop
  | writeFails message hstarted =>
      obtain ⟨closed, failures, hend⟩ := s.bridge.endWriter_eq (.transport message)
      rw [hend]
      exact ⟨hopened hstarted, hwriter.stop, hreader⟩
  | cancelReader hstarted =>
      refine ⟨h.idle, hwriter, ?_⟩
      show Relays _ _ (heldByReader (.ended none) s.bridge.phase)
      rw [hplace.opened hstarted]
      exact hreader.stop
  | cancelWriter hstarted => exact ⟨hopened hstarted, hwriter.stop, hreader⟩
  | close => exact ⟨h.idle, hwriter, hreader⟩

theorem crosses_of_reachable (h : Reachable (step macos pid config expectedPid) start s) :
    Crosses s := by
  refine reachable_induction crosses_start ?_ h
  intro s label s' hreachable hcrosses hstep
  have hattuned := attuned_of_reachable hreachable
  rcases step_cases hstep with htalks | ⟨l, daemon, hl, hframe, rfl⟩
  · cases htalks with
    | read hm hreceives => exact hcrosses.receives hattuned hm hreceives
    | write hwrites => exact hcrosses.writes hwrites
    | rest hrests => exact hcrosses.rests hattuned hrests
  · refine ⟨hcrosses.idle, ?_, ?_⟩
    · show Relays (daemon.inbound.sent.filterMap outgoingData) _ _
      rw [hframe.inbound]
      exact hcrosses.writer
    · show Relays _ (daemon.outbound.delivered.filterMap incomingData) _
      rw [hframe.delivered]
      exact hcrosses.reader

end Session

/-- Packets cross the connection in order: those that are written to the TUN are a
prefix of those taken from the pipe, and those put on the pipe are a prefix of those
read from the TUN.  Nothing is written before a configuration is accepted, nor after
the session loop has taken what ends it. -/
theorem packets_cross_in_order (macos : Bool) (pid : UInt32) (config : TunSessionConfig)
    (expectedPid : Int) :
    (∀ s, Reachable (Session.step macos pid config expectedPid) Session.start s →
      s.daemon.tunWrites <+: s.bridge.taken ∧
        s.bridge.put <+: s.daemon.tunReads.filter fun data =>
          decide (1 ≤ data.length ∧ data.length ≤ 65535)) ∧
    (∀ s, Reachable (Conversation.step macos pid) Conversation.start s →
      s.task = none → s.tunWrites = []) ∧
    ∀ s, Reachable (Conversation.step macos pid) Conversation.start s →
      ∀ wake s' labels t, Conversation.TakesEnd s wake →
        s.step macos pid (.task (.wake wake)) = some s' →
        run (Conversation.step macos pid) s' labels = some t → t.tunWrites = s.tunWrites := by
  refine ⟨?_, ?_, ?_⟩
  · intro s hs
    have hcrosses := Session.crosses_of_reachable hs
    have hdaemon := Session.reachable_daemon hs
    have hpasses := Conversation.passes_of_reachable hdaemon
    have hframes := hpasses.frames_isPrefix (Conversation.orderly_of_reachable hdaemon)
    have hread := s.daemon.outbound.delivered_isPrefix.filterMap incomingData
    refine ⟨hpasses.tunWrites_isPrefix.trans hcrosses.writer.follows, ?_⟩
    simp only [← carriesPacket_iff]
    exact hcrosses.reader.follows.trans (hread.trans hframes)
  · intro s hs
    have hunopened : Conversation.Unopened s :=
      reachable_invariant (fun _ => rfl)
        (fun _ _ _ h hstep => Conversation.unopened_step h hstep) hs
    exact hunopened
  · intro s hs wake s' labels t hend hstep hrun
    have hover : Conversation.LoopOver s.tunWrites t ∧ Conversation.Orderly pid t := by
      refine run_invariant (P := fun _ => True)
        (I := fun t => Conversation.LoopOver s.tunWrites t ∧ Conversation.Orderly pid t)
        ?_ (fun _ _ => trivial) ⟨Conversation.loopOver_of_takesEnd hend hstep, ?_⟩ hrun
      · intro t l t' _ ht hl
        exact ⟨Conversation.loopOver_step ht.1 ht.2 hl, Conversation.orderly_step ht.2 hl⟩
      · exact Conversation.orderly_step (Conversation.orderly_of_reachable hs) hstep
    obtain ⟨⟨task, _, _, hwritten⟩, _⟩ := hover
    exact hwritten

theorem packets_cross_in_order_served :
    ∃ s, run (Session.step false 7 System.exampleConfig 7) Session.start Session.servedLabels =
        some s ∧
      s.daemon.tunWrites = [[69, 1]] ∧ s.bridge.put = [[69, 2]] ∧
      s.daemon.tunWrites <+: s.bridge.taken := by
  have hpackets : (run (Session.step false 7 System.exampleConfig 7) Session.start
      Session.servedLabels).map (fun s => (s.daemon.tunWrites, s.bridge.put)) =
        some ([[69, 1]], [[69, 2]]) := by
    decide +kernel
  obtain ⟨s, hrun, hpairs⟩ := Option.map_eq_some_iff.mp hpackets
  obtain ⟨hwrites, hput⟩ := Prod.mk.inj hpairs
  have horder := (packets_cross_in_order false 7 System.exampleConfig 7).1 s ⟨_, hrun⟩
  exact ⟨s, hrun, hwrites, hput, horder.1⟩

end Iface
end WgKotlin
