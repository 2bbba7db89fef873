import WgKotlin.Ipc.Frame

/-!
# The two frame codecs

The daemon and the client write the same bytes, read back what either of them has
written, and agree on every stream about its first frame.
-/

namespace WgKotlin

open Library

variable {M : Type}

/-! ### Writing -/

theorem Daemon.Ipc.writeFrame_eq (encode : M → Bytes) (m : M) :
    writeFrame encode m =
      if FitsFrame (encode m).length then .ok (frame (encode m)) else .error invalidLength := by
  have hempty : (encode m).isEmpty = true ↔ (encode m).length = 0 := by
    rw [List.isEmpty_iff, List.length_eq_zero_iff]
  rw [writeFrame]
  simp only [hempty, fitsFrame_iff, ite_not]
  by_cases hfits : FitsFrame (encode m).length
  · have hcast : (UInt32.ofNat (encode m).length).toNat = (encode m).length :=
      UInt32.toNat_ofNat_of_lt' hfits.lt
    rw [if_neg (fitsFrame_iff.mp hfits), if_neg (fitsFrame_iff.mp hfits), hcast, frame]
  · have hinvalid := not_not.mp (mt fitsFrame_iff.mpr hfits)
    rw [if_pos hinvalid, if_pos hinvalid]

theorem IpcProtocol.writeMessage_eq (encode : M → Bytes) (m : M) :
    writeMessage encode m =
      if FitsFrame (encode m).length then .ok (frame (encode m)) else .error invalidLength := by
  have hrange : (1 ≤ ((encode m).length : Int) ∧ ((encode m).length : Int) ≤ maxFrameSize) ↔
      FitsFrame (encode m).length := by
    rw [FitsFrame, maxFrameSize, maxPayload]
    omega
  rw [writeMessage, writeFrame]
  simp only [hrange, ite_not]
  by_cases hfits : FitsFrame (encode m).length
  · have hlt := hfits.lt
    have hcast : (((encode m).length : Int) % 2 ^ 32).toNat = (encode m).length := by omega
    rw [if_pos hfits, if_pos hfits, writeInt, hcast, frame]
  · rw [if_neg hfits, if_neg hfits]

/-! ### Reading what was written -/

section Delivery

variable {decode : Bytes → Except String M} {payload : Bytes} {m : M}

/-- The daemon takes a frame off the stream and returns its message. -/
theorem Daemon.Ipc.readFrame_delivers (hfits : FitsFrame payload.length)
    (hdecode : decode payload = .ok m) :
    InputStream.Delivers (readFrame decode) (frame payload) (some m) := by
  intro s rest hs
  have hreads := readFrame_reads decode s
  rw [hs, firstFrame_frame hfits] at hreads
  generalize readFrame decode s = result at hreads ⊢
  cases hreads with
  | frame hrest hfailure hm =>
      rw [hdecode, Except.ok.injEq] at hm
      rw [← hm]
      exact ⟨_, rfl, hrest, hfailure⟩
  | malformed he =>
      rw [hdecode] at he
      cases he

theorem IpcProtocol.readMessage_delivers (hfits : FitsFrame payload.length)
    (hdecode : decode payload = .ok m) :
    InputStream.Delivers (readMessage decode) (frame payload) m := by
  intro s rest hs
  have hreads := readFrame_reads s
  rw [hs, firstFrame_frame hfits] at hreads
  rw [readMessage]
  generalize readFrame s = result at hreads ⊢
  cases hreads with
  | frame hrest hfailure =>
      refine ⟨_, ?_, hrest, hfailure⟩
      simp only [ok_bind, hdecode, Except.mapError]

variable {messages : List M} {frames : List Bytes} {s : Input}
  (hs : s.content = frames.flatten) (hclean : s.failure = none)

include hs hclean

/-- The daemon reads the messages and then the clean end. -/
theorem Daemon.Ipc.readMany_frames
    (hall : List.Forall₂ (fun bytes m => InputStream.Delivers (readFrame decode) bytes (some m))
      frames messages) :
    ∃ t, InputStream.readMany (readFrame decode) messages.length s =
        .ok (messages.map some, t) ∧
      readFrame decode t = .ok (none, t) := by
  have hall := List.forall₂_map_right_iff.mpr hall
  rw [← List.append_nil frames.flatten] at hs
  obtain ⟨t, hmany, hempty, hfailure⟩ := InputStream.readMany_of_delivers hall hs
  rw [List.length_map] at hmany
  refine ⟨t, hmany, ?_⟩
  rw [readFrame_of_empty hempty, hfailure, hclean]

/-- The client reads the messages and then the end of the file. -/
theorem IpcProtocol.readMany_frames
    (hall : List.Forall₂ (InputStream.Delivers (readMessage decode)) frames messages) :
    ∃ t, InputStream.readMany (readMessage decode) messages.length s = .ok (messages, t) ∧
      readFrame t = .error .eof := by
  rw [← List.append_nil frames.flatten] at hs
  obtain ⟨t, hmany, hempty, hfailure⟩ := InputStream.readMany_of_delivers hall hs
  have hshort : t.content.length < 4 := by simp [hempty]
  refine ⟨t, hmany, ?_⟩
  rw [readFrame_of_short hshort, InputStream.ending, hfailure, hclean]
  rfl

end Delivery

/-- The frames of a list of messages. -/
def Codec.frames (codec : Codec M) (messages : List M) : List Bytes :=
  messages.map fun m => frame (codec.encode m)

/-- Whatever delivers each of the frames delivers their list. -/
theorem Codec.forall₂_frames {codec : Codec M} {messages : List M} {R : Bytes → M → Prop}
    (h : ∀ m ∈ messages, R (frame (codec.encode m)) m) :
    List.Forall₂ R (codec.frames messages) messages := by
  rw [Codec.frames, List.forall₂_map_left_iff, List.forall₂_same]
  exact h

/-! ### Agreement -/

/-- What the two readers do with one content, each in the pieces that it gets. -/
inductive Agree (decode : Bytes → Except String M) (s t : Input) : Prop
  /-- The stream starts with a frame.  Both take its payload off, and the client
  returns what the daemon returns. -/
  | frame (payload : Bytes) (s' t' : Input) (hfits : FitsFrame payload.length)
      (hstart : s.content = WgKotlin.frame payload ++ s'.content)
      (hrest : s'.content = t'.content)
      (hclient : IpcProtocol.readFrame t = .ok (payload, t'))
      (hmessage : (∃ m, decode payload = .ok m ∧
          Daemon.Ipc.readFrame decode s = .ok (some m, s') ∧
          IpcProtocol.readMessage decode t = .ok (m, t')) ∨
        ∃ e, decode payload = .error e ∧
          Daemon.Ipc.readFrame decode s = .error (.invalidData e) ∧
          IpcProtocol.readMessage decode t = .error (.malformed e))
  /-- Both fail. -/
  | fail (hdaemon : ∃ e, Daemon.Ipc.readFrame decode s = .error e)
      (hclient : ∃ e, IpcProtocol.readFrame t = .error e)
  /-- The stream has ended at the boundary of a frame. -/
  | finish (hempty : s.content = []) (hdaemon : Daemon.Ipc.readFrame decode s = .ok (none, s))
      (hclient : IpcProtocol.readFrame t = .error .eof)

theorem readers_agree (decode : Bytes → Except String M) {s t : Input}
    (hcontent : s.content = t.content) (hfailure : s.failure = t.failure) :
    Agree decode s t := by
  have hdaemon := Daemon.Ipc.readFrame_reads decode s
  have hclient := IpcProtocol.readFrame_reads t
  rw [← hcontent] at hclient
  -- Both results are about one first frame, so only the diagonal cases are left.
  generalize hfirst : firstFrame s.content = first at hdaemon hclient
  generalize hresult : Daemon.Ipc.readFrame decode s = result at hdaemon
  generalize hframe : IpcProtocol.readFrame t = framed at hclient
  cases hdaemon with
  | nothing hclean =>
      cases hclient
      have heof : t.ending = .unexpectedEof := by
        rw [InputStream.ending, ← hfailure, hclean]
      rw [heof] at hframe
      exact .finish (eq_nil_of_firstFrame hfirst) hresult hframe
  | failed _ =>
      cases hclient
      exact .fail ⟨_, hresult⟩ ⟨_, hframe⟩
  | broken _ =>
      cases hclient
      exact .fail ⟨_, hresult⟩ ⟨_, hframe⟩
  | @frame payload rest s' m hrest _ hm =>
      cases hclient with
      | frame hrest' _ =>
          obtain ⟨hstart, hfits⟩ := eq_frame_of_firstFrame hfirst
          have hmessage := IpcProtocol.readMessage_of_ok decode hframe
          rw [hm] at hmessage
          rw [← hrest] at hstart
          exact .frame payload s' _ hfits hstart (hrest.trans hrest'.symm) hframe
            (.inl ⟨m, hm, hresult, hmessage⟩)
  | @malformed payload rest e he =>
      cases hclient with
      | frame hrest' _ =>
          obtain ⟨hstart, hfits⟩ := eq_frame_of_firstFrame hfirst
          have hmessage := IpcProtocol.readMessage_of_ok decode hframe
          rw [he] at hmessage
          rw [← hrest'] at hstart
          exact .frame payload _ _ hfits hstart rfl hframe (.inr ⟨e, he, hresult, hmessage⟩)

/-- The codecs agree and are inverse: what either side has written is read back
by both, however it arrives, and any other stream is read alike. -/
theorem frame_codecs_agree (codec : Codec M) (messages : List M)
    (hsize : ∀ m ∈ messages, 1 ≤ (codec.encode m).length ∧ (codec.encode m).length ≤ 4194304) :
    (∃ frames, mapAll (Daemon.Ipc.writeFrame codec.encode) messages = .ok frames ∧
      mapAll (IpcProtocol.writeMessage codec.encode) messages = .ok frames ∧
      ∀ s : Input, s.content = frames.flatten → s.failure = none →
        (∃ t, InputStream.readMany (Daemon.Ipc.readFrame codec.decode) messages.length s =
            .ok (messages.map some, t) ∧
          Daemon.Ipc.readFrame codec.decode t = .ok (none, t)) ∧
        ∃ t, InputStream.readMany (IpcProtocol.readMessage codec.decode) messages.length s =
            .ok (messages, t) ∧
          IpcProtocol.readFrame t = .error .eof) ∧
    ∀ (decode : Bytes → Except String M) (s t : Input), s.content = t.content →
      s.failure = t.failure → Agree decode s t := by
  have hfits : ∀ m ∈ messages, FitsFrame (codec.encode m).length := hsize
  refine ⟨⟨codec.frames messages, ?_, ?_, ?_⟩, fun decode s t => readers_agree decode⟩
  · apply mapAll_of_ok
    intro m hm
    rw [Daemon.Ipc.writeFrame_eq, if_pos (hfits m hm)]
  · apply mapAll_of_ok
    intro m hm
    rw [IpcProtocol.writeMessage_eq, if_pos (hfits m hm)]
  · intro s hs hclean
    refine ⟨Daemon.Ipc.readMany_frames hs hclean (Codec.forall₂_frames fun m hm => ?_),
      IpcProtocol.readMany_frames hs hclean (Codec.forall₂_frames fun m hm => ?_)⟩
    · exact Daemon.Ipc.readFrame_delivers (hfits m hm) (codec.decode_encode m)
    · exact IpcProtocol.readMessage_delivers (hfits m hm) (codec.decode_encode m)

/-- Messages that are their own encoding. -/
def rawCodec : Codec Bytes where
  encode := id
  decode := .ok
  decode_encode := fun _ => rfl

/-- Two frames that arrive cut inside the header and across their boundary. -/
def cutFrames : Input where
  pieces := [[0, 0], [0, 3, 1], [2, 3, 0, 0, 0], [1, 255]]
  nonempty := by decide
  failure := none

theorem frame_codecs_agree_cut_frames :
    (∃ t, InputStream.readMany (Daemon.Ipc.readFrame rawCodec.decode) 2 cutFrames =
        .ok ([some [1, 2, 3], some [255]], t) ∧
      Daemon.Ipc.readFrame rawCodec.decode t = .ok (none, t)) ∧
    ∃ t, InputStream.readMany (IpcProtocol.readMessage rawCodec.decode) 2 cutFrames =
        .ok ([[1, 2, 3], [255]], t) ∧
      IpcProtocol.readFrame t = .error .eof := by
  have hsize : ∀ m ∈ [[1, 2, 3], [255]],
      1 ≤ (rawCodec.encode m).length ∧ (rawCodec.encode m).length ≤ 4194304 := by decide
  obtain ⟨⟨frames, hdaemon, _, hread⟩, _⟩ := frame_codecs_agree rawCodec _ hsize
  have hframes : [[0, 0, 0, 3, 1, 2, 3], [0, 0, 0, 1, 255]] = frames := by
    have hwritten : mapAll (Daemon.Ipc.writeFrame rawCodec.encode) [[1, 2, 3], [255]] =
        .ok [[0, 0, 0, 3, 1, 2, 3], [0, 0, 0, 1, 255]] := by rfl
    rw [hwritten, Except.ok.injEq] at hdaemon
    exact hdaemon
  subst hframes
  exact hread cutFrames rfl rfl

end WgKotlin
