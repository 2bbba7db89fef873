import WgKotlin.Iface.Bridge

/-!
# Daemon and client agree on the session

Every connection of the daemon carries the beginning of a session, whatever its
client sends, and the bridge has a branch for every message of a session.
-/

namespace WgKotlin

open Daemon Library Proto

/-! ### The client's ends of the connection -/

namespace Daemon
namespace Conversation

/-- What only the client moves. -/
structure ClientFrame (s s' : Conversation) : Prop where
  inbound : s'.inbound.sent = s.inbound.sent
  received : s'.outbound.received = s.outbound.received
  delivered : s'.outbound.delivered = s.outbound.delivered

section Frame

variable {macos : Bool} {pid : UInt32} {s s' : Conversation}

theorem Serves.clientFrame (h : Serves macos pid s s') : ClientFrame s s' := by
  cases h with
  | greet _ | reject _ | wrote _ => exact ⟨rfl, rfl, Channel.delivered_send _ _⟩
  | stopDaemon _ hm | split _ hm | readMessage _ hm => exact ⟨Channel.sent_of_receive hm, rfl, rfl⟩
  | _ => exact ⟨rfl, rfl, rfl⟩

theorem Works.clientFrame (h : Works s s') : ClientFrame s s' := by
  cases h with
  | _ => exact ⟨rfl, rfl, rfl⟩

theorem ReadsTun.clientFrame (h : ReadsTun s s') : ClientFrame s s' := by
  cases h with
  | _ => exact ⟨rfl, rfl, rfl⟩

end Frame

end Conversation
end Daemon

namespace Iface
namespace Session

variable {macos : Bool} {pid : UInt32} {config : TunSessionConfig} {expectedPid : Int}
  {s s' : Session}

/-- A step is one of the bridge, or one of the daemon that leaves the client's ends alone. -/
theorem step_cases {label : SessionLabel}
    (h : s.step macos pid config expectedPid label = some s') :
    Talks config s s' ∨
      ∃ l daemon, s.daemon.step macos pid l = some daemon ∧
        Conversation.ClientFrame s.daemon daemon ∧ s' = { s with daemon := daemon } := by
  cases label with
  | bridge label => exact Or.inl (stepBridge_talks h)
  | daemon label =>
      refine Or.inr ⟨label, ?_⟩
      cases label with
      | arrive message => cases h
      | depart => cases h
      | stop =>
          cases h
          exact ⟨_, rfl, ⟨rfl, rfl, rfl⟩, rfl⟩
      | serve l =>
          simp only [step] at h
          split at h
          · cases h
          next daemon hstep =>
            cases h
            exact ⟨daemon, hstep, (Conversation.stepServe_serves hstep).clientFrame, rfl⟩
      | task l =>
          simp only [step] at h
          split at h
          · cases h
          next daemon hstep =>
            cases h
            exact ⟨daemon, hstep, (Conversation.stepTask_works hstep).clientFrame, rfl⟩
      | reader l =>
          simp only [step] at h
          split at h
          · cases h
          next daemon hstep =>
            cases h
            exact ⟨daemon, hstep, (Conversation.stepReader_readsTun hstep).clientFrame, rfl⟩

/-- The bridge is a client that the daemon may have. -/
theorem Talks.daemon (h : Talks config s s') (macos : Bool) (pid : UInt32) :
    s'.daemon = s.daemon ∨ ∃ l, s.daemon.step macos pid l = some s'.daemon := by
  cases h with
  | read hm h =>
      refine Or.inr ⟨.depart, ?_⟩
      simp only [Conversation.step, hm]
  | @write payload bridge h => exact Or.inr ⟨.arrive { payload := some payload }, rfl⟩
  | rest h => exact Or.inl rfl

theorem reachable_daemon (h : Reachable (step macos pid config expectedPid) start s) :
    Reachable (Conversation.step macos pid) Conversation.start s.daemon := by
  refine reachable_invariant
    (I := fun s => Reachable (Conversation.step macos pid) Conversation.start s.daemon)
    ⟨[], rfl⟩ ?_ h
  intro s label s' hs h
  rcases step_cases h with htalks | ⟨l, daemon, hl, _, rfl⟩
  · rcases htalks.daemon macos pid with heq | ⟨l, hl⟩
    · rw [heq]
      exact hs
    · exact hs.next hl
  · exact hs.next hl

/-! ### The messages of a session -/

theorem acceptReply_of_word {word : List ServerMessage} (hword : SessionWord pid word)
    {message : ServerMessage} (h : word[1]? = some message) :
    acceptReply message ≠ .error .notAccepted := by
  cases hword with
  | refused status =>
      cases h
      simp [acceptReply, errorMessage]
  | served interfaceName packets errors hpackets =>
      cases h
      simp only [acceptReply, startedMessage]
      split
      · simp
      · simp

theorem acceptMessage_of_word {word : List ServerMessage} (hword : SessionWord pid word) {i : Nat}
    (hi : 2 ≤ i) {message : ServerMessage} (h : word[i]? = some message) :
    acceptMessage message ≠ .error .unexpectedMessage := by
  obtain ⟨k, rfl⟩ := Nat.exists_eq_add_of_le' hi
  cases hword with
  | refused status => cases h
  | served interfaceName packets errors hpackets =>
      have hmem : message ∈ packets.map packetMessage ++ errors.map errorMessage :=
        List.mem_of_getElem? h
      rcases List.mem_append.mp hmem with hpacket | herror
      · obtain ⟨data, _, rfl⟩ := List.mem_map.mp hpacket
        simp [acceptMessage, packetMessage]
      · obtain ⟨status, _, rfl⟩ := List.mem_map.mp herror
        simp [acceptMessage, errorMessage]

/-! ### Where the bridge is in the session -/

/-- How many messages the bridge has read in each phase. -/
def Place (received : Nat) (reader : ReaderRoutine) : OpenPhase → Prop
  | .awaitingReady => received = 0 ∧ reader = .waiting
  | .configuring | .awaitingReply => received = 1 ∧ reader = .waiting
  | .opened => 2 ≤ received
  | .failed e => e ≠ .notAccepted ∧ reader = .waiting

structure Attuned (s : Session) : Prop where
  place : Place s.daemon.outbound.received s.bridge.reader s.bridge.phase
  reader : s.bridge.reader ≠ .ended (some .unexpectedMessage)

/-- The reader runs in an open session only. -/
theorem Place.opened {received : Nat} {reader : ReaderRoutine} {phase : OpenPhase}
    (h : Place received reader phase) (hreader : reader ≠ .waiting) : phase = .opened := by
  cases phase with
  | opened => rfl
  | _ => exact absurd h.2 hreader

theorem awaitReady_ne (message : ServerMessage) :
    awaitReady expectedPid message ≠ .error .notAccepted := by
  unfold awaitReady
  split
  · split
    · simp
    · simp
  · simp

theorem Attuned.receives (h : Attuned s) {message : ServerMessage}
    {outbound : Channel ServerMessage} {bridge : Bridge}
    (hm : s.daemon.outbound.receive = some (message, outbound))
    (hreceives : Receives s.bridge message bridge) {word : List ServerMessage}
    (hword : SessionWord pid word) (hsent : s.daemon.outbound.sent <+: word) :
    Attuned { daemon := { s.daemon with outbound := outbound }, bridge := bridge } := by
  obtain ⟨hplace, hreader⟩ := h
  obtain ⟨hget, hreceived⟩ := Channel.getElem?_of_receive hm
  have hmessage : word[s.daemon.outbound.received]? = some message := by
    obtain ⟨rest, rfl⟩ := hsent
    rw [List.getElem?_append_left (List.getElem?_eq_some_iff.mp hget).1]
    exact hget
  cases hreceives with
  | ready hphase hready =>
      rw [hphase] at hplace
      refine ⟨⟨?_, hplace.2⟩, hreader⟩
      rw [hreceived, hplace.1]
  | @notReady expectedPid e hphase hready =>
      rw [hphase] at hplace
      refine ⟨⟨?_, hplace.2⟩, hreader⟩
      rintro rfl
      exact awaitReady_ne message hready
  | opened hphase hreply =>
      rw [hphase] at hplace
      refine ⟨?_, by simp⟩
      show 2 ≤ outbound.received
      rw [hreceived, hplace.1]
  | refused hphase hreply =>
      rw [hphase] at hplace
      rw [hplace.1] at hmessage
      refine ⟨⟨?_, hplace.2⟩, hreader⟩
      rintro rfl
      exact acceptReply_of_word hword hmessage hreply
  | packet hread hdata =>
      have hopened := hplace.opened (by simp [hread])
      rw [hopened] at hplace
      refine ⟨?_, by simp⟩
      show Place outbound.received _ s.bridge.phase
      rw [hopened, hreceived]
      exact Nat.le_succ_of_le hplace
  | @failed e hread he =>
      have hopened := hplace.opened (by simp [hread])
      rw [hopened] at hplace
      obtain ⟨closed, failures, hend⟩ := s.bridge.endReader_eq e
      rw [hend]
      refine ⟨?_, ?_⟩
      · show Place outbound.received _ s.bridge.phase
        rw [hopened, hreceived]
        exact Nat.le_succ_of_le hplace
      · intro hunexpected
        cases hunexpected
        exact acceptMessage_of_word hword hplace hmessage he

theorem Attuned.writes (h : Attuned s) {payload : ClientPayload} {bridge : Bridge}
    (hwrites : Writes config s.bridge payload bridge) : Attuned (s.arrive payload bridge) := by
  obtain ⟨hplace, hreader⟩ := h
  cases hwrites with
  | config hphase =>
      rw [hphase] at hplace
      exact ⟨hplace, hreader⟩
  | packet hwriter => exact ⟨hplace, hreader⟩

theorem Attuned.rests (h : Attuned s) {bridge : Bridge} (hrests : Rests s.bridge bridge) :
    Attuned { s with bridge := bridge } := by
  obtain ⟨hplace, hreader⟩ := h
  -- A reader that has been started stays in an open session.
  have hmoved : ∀ {reader : ReaderRoutine}, s.bridge.reader ≠ .waiting →
      Place s.daemon.outbound.received reader s.bridge.phase := by
    intro reader hstarted
    have hopened := hplace.opened hstarted
    rw [hopened] at hplace ⊢
    exact hplace
  cases hrests with
  | abandon message hphase =>
      refine ⟨⟨by simp, ?_⟩, hreader⟩
      cases hp : s.bridge.phase with
      | opened => exact absurd hp hphase.1
      | failed e => exact absurd hp (hphase.2 e)
      | _ =>
          rw [hp] at hplace
          exact hplace.2
  | put hsending => exact ⟨hmoved (by simp [hsending]), by simp⟩
  | take _ _ | cancelWriter _ | close => exact ⟨hplace, hreader⟩
  | takeInvalid data _ =>
      obtain ⟨closed, failures, hend⟩ :=
        Bridge.endWriter_eq { s.bridge with taken := s.bridge.taken ++ [data] } .invalidLength
      rw [hend]
      exact ⟨hplace, hreader⟩
  | writeFails message _ =>
      obtain ⟨closed, failures, hend⟩ := s.bridge.endWriter_eq (.transport message)
      rw [hend]
      exact ⟨hplace, hreader⟩
  | readFails message hstarted =>
      obtain ⟨closed, failures, hend⟩ := s.bridge.endReader_eq (.transport message)
      rw [hend]
      exact ⟨hmoved hstarted, by simp⟩
  | cancelReader hstarted => exact ⟨hmoved hstarted, by simp⟩

theorem attuned_start : Attuned start := ⟨⟨rfl, rfl⟩, by simp [start, Bridge.start]⟩

theorem attuned_of_reachable (h : Reachable (step macos pid config expectedPid) start s) :
    Attuned s := by
  refine reachable_induction attuned_start ?_ h
  intro s label s' hreachable hattuned hstep
  rcases step_cases hstep with htalks | ⟨l, daemon, hl, hframe, rfl⟩
  · obtain ⟨word, hword, hsent⟩ :=
      (Conversation.orderly_of_reachable (reachable_daemon hreachable)).word
    cases htalks with
    | read hm hreceives => exact hattuned.receives hm hreceives hword hsent
    | write hwrites => exact hattuned.writes hwrites
    | rest hrests => exact hattuned.rests hrests
  · refine ⟨?_, hattuned.reader⟩
    show Place daemon.outbound.received _ _
    rw [hframe.received]
    exact hattuned.place

end Session

/-- The frames of every connection are the beginning of a session, whatever its
client sends, and a bridge that is the client finds a branch for each of them. -/
theorem session_protocol_agreed (macos : Bool) (pid : UInt32) (config : TunSessionConfig)
    (expectedPid : Int) :
    (∀ s, Reachable (Conversation.step macos pid) Conversation.start s →
      ∃ word, SessionWord pid word ∧ s.outbound.sent <+: word) ∧
    ∀ s, Reachable (Session.step macos pid config expectedPid) Session.start s →
      s.bridge.phase ≠ .failed .notAccepted ∧
        s.bridge.reader ≠ .ended (some .unexpectedMessage) := by
  refine ⟨?_, ?_⟩
  · intro s hs
    exact (Conversation.orderly_of_reachable hs).word
  · intro s hs
    have hattuned := Session.attuned_of_reachable hs
    refine ⟨?_, hattuned.reader⟩
    intro hphase
    have hplace := hattuned.place
    rw [hphase] at hplace
    exact hplace.1 rfl

theorem session_protocol_agreed_served :
    ∃ s, run (Session.step false 7 System.exampleConfig 7) Session.start Session.servedLabels =
        some s ∧
      s.daemon.outbound.sent =
        [readyMessage 7, startedMessage "utun7", packetMessage [69, 2],
          errorMessage {
            code := .internal
            message := "failed reading TUN packet: device is gone" }] ∧
      (∃ word, SessionWord 7 word ∧ s.daemon.outbound.sent <+: word) ∧
      s.bridge.reader ≠ .ended (some .unexpectedMessage) := by
  have hsent : (run (Session.step false 7 System.exampleConfig 7) Session.start
      Session.servedLabels).map (fun s => s.daemon.outbound.sent) =
        some [readyMessage 7, startedMessage "utun7", packetMessage [69, 2],
          errorMessage {
            code := .internal
            message := "failed reading TUN packet: device is gone" }] := by
    decide +kernel
  obtain ⟨s, hrun, hframes⟩ := Option.map_eq_some_iff.mp hsent
  obtain ⟨hword, hbridge⟩ := session_protocol_agreed false 7 System.exampleConfig 7
  have hdaemon := Session.reachable_daemon ⟨_, hrun⟩
  exact ⟨s, hrun, hframes, hword s.daemon hdaemon, (hbridge s ⟨_, hrun⟩).2⟩

end Iface

end WgKotlin
