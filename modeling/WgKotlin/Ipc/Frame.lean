import WgKotlin.Kotlin
import WgKotlin.Library.Endian
import WgKotlin.Library.Stream

/-!
# Frames between client and daemon

`ipc/mod.rs` of the daemon and `IpcProtocol` of the client.  A frame is the length
of its payload, four bytes in big-endian order, and the payload.  `firstFrame`
says what a byte string starts with, and each of the two readers is measured
against it, so that they agree with each other on every stream.
-/

namespace WgKotlin

open Library

abbrev Input := InputStream String UInt8

/-- The encoding of a message type by protobuf. -/
structure Codec (M : Type) where
  encode : M → Bytes
  decode : Bytes → Except String M
  decode_encode : ∀ m, decode (encode m) = .ok m

variable {M : Type}

/-! ### The daemon -/

namespace Daemon
namespace Ipc

/-- `io::Error`, by its kind. -/
inductive IoError
  | invalidData (message : String)
  | unexpectedEof
  | transport (message : String)
  deriving DecidableEq, Repr

def IoError.ofRead : ReadError String → IoError
  | .unexpectedEof => .unexpectedEof
  | .failed message => .transport message

def maxFrameSize : Nat := 4 * 1024 * 1024

def invalidLength : IoError := .invalidData "invalid IPC frame length"

/-- The part of `read_frame` behind the header. -/
def readPayload (decode : Bytes → Except String M) (size : Nat) (input : Input) :
    Except IoError (Option M × Input) :=
  if size = 0 ∨ maxFrameSize < size then .error invalidLength
  else do
    let (bytes, input) ← (input.readExact size).mapError .ofRead
    let message ← (decode bytes).mapError .invalidData
    .ok (some message, input)

def readFrame (decode : Bytes → Except String M) (input : Input) :
    Except IoError (Option M × Input) := do
  let (first, input) ← (input.read 1).mapError .transport
  if first.isEmpty then .ok (none, input)
  else do
    let (header, input) ← (input.readExact 3).mapError .ofRead
    readPayload decode (ofBeBytes (first ++ header)) input

/-- The bytes that are written. -/
def writeFrame (encode : M → Bytes) (message : M) : Except IoError Bytes :=
  let bytes := encode message
  if bytes.isEmpty ∨ maxFrameSize < bytes.length then .error invalidLength
  else .ok (beBytes 4 (UInt32.ofNat bytes.length).toNat ++ bytes)

end Ipc
end Daemon

/-! ### The client -/

namespace IpcProtocol

/-- The exceptions of the codec. -/
inductive Failure
  | illegalArgument (message : String)
  | eof
  | io (message : String)
  | malformed (message : String)
  deriving DecidableEq, Repr

def Failure.ofRead : ReadError String → Failure
  | .unexpectedEof => .eof
  | .failed message => .io message

def maxFrameSize : Int := 4 * 1024 * 1024

def invalidLength : Failure := .illegalArgument "Invalid IPC frame length"

/-- `DataInputStream.readInt`: four bytes, as a signed number. -/
def readInt (input : Input) : Except Failure (Int × Input) := do
  let (bytes, input) ← (input.readExact 4).mapError .ofRead
  .ok (Kotlin.toInt (UInt32.ofNat (ofBeBytes bytes)), input)

def readFrame (input : Input) : Except Failure (Bytes × Input) := do
  let (size, input) ← readInt input
  if ¬ (1 ≤ size ∧ size ≤ maxFrameSize) then .error invalidLength
  else (input.readExact size.toNat).mapError .ofRead

/-- `readServer` and `readClient`, for the marshaller of either message. -/
def readMessage (decode : Bytes → Except String M) (input : Input) :
    Except Failure (M × Input) := do
  let (bytes, input) ← readFrame input
  let message ← (decode bytes).mapError .malformed
  .ok (message, input)

/-- `DataOutputStream.writeInt`: the low four bytes of a signed number. -/
def writeInt (v : Int) : Bytes := beBytes 4 (v % 2 ^ 32).toNat

def writeFrame (bytes : Bytes) : Except Failure Bytes :=
  let size : Int := bytes.length
  if ¬ (1 ≤ size ∧ size ≤ maxFrameSize) then .error invalidLength
  else .ok (writeInt size ++ bytes)

/-- `writeClient` and `writeServer`. -/
def writeMessage (encode : M → Bytes) (message : M) : Except Failure Bytes :=
  writeFrame (encode message)

end IpcProtocol

/-! ### The format -/

/-- What a byte string starts with. -/
inductive FirstFrame
  | nothing
  | broken
  | frame (payload rest : Bytes)
  deriving DecidableEq, Repr

def maxPayload : Nat := 4194304

def FitsFrame (size : Nat) : Prop := 1 ≤ size ∧ size ≤ maxPayload

instance (size : Nat) : Decidable (FitsFrame size) := inferInstanceAs (Decidable (_ ∧ _))

def frame (payload : Bytes) : Bytes := beBytes 4 payload.length ++ payload

def firstFrame (bytes : Bytes) : FirstFrame :=
  if bytes = [] then .nothing
  else if bytes.length < 4 then .broken
  else
    let size := ofBeBytes (bytes.take 4)
    if ¬ FitsFrame size then .broken
    else if (bytes.drop 4).length < size then .broken
    else .frame ((bytes.drop 4).take size) ((bytes.drop 4).drop size)

theorem FitsFrame.lt {size : Nat} (h : FitsFrame size) : size < 256 ^ 4 := by
  have hle := h.2
  rw [maxPayload] at hle
  omega

/-- A frame is read off whatever follows it. -/
theorem firstFrame_frame {payload : Bytes} (h : FitsFrame payload.length) (rest : Bytes) :
    firstFrame (frame payload ++ rest) = .frame payload rest := by
  have hheader : (beBytes 4 payload.length).length = 4 := length_beBytes 4 payload.length
  have htake : (frame payload ++ rest).take 4 = beBytes 4 payload.length := by
    rw [frame, List.append_assoc, List.take_left' hheader]
  have hdrop : (frame payload ++ rest).drop 4 = payload ++ rest := by
    rw [frame, List.append_assoc, List.drop_left' hheader]
  have hsize : ofBeBytes (beBytes 4 payload.length) = payload.length := by
    rw [ofBeBytes_beBytes, Nat.mod_eq_of_lt h.lt]
  have hlen : 4 ≤ (frame payload ++ rest).length := by
    rw [frame, List.length_append, List.length_append, hheader]
    omega
  have hne : frame payload ++ rest ≠ [] := List.ne_nil_of_length_pos (by omega)
  have hfull : ¬ (payload ++ rest).length < payload.length := by
    rw [List.length_append]
    omega
  simp only [firstFrame, htake, hdrop, hsize]
  rw [if_neg hne, if_neg (Nat.not_lt.mpr hlen), if_neg (not_not.mpr h), if_neg hfull,
    List.take_left, List.drop_left]

theorem eq_nil_of_firstFrame {bytes : Bytes} (h : firstFrame bytes = .nothing) : bytes = [] := by
  by_contra hne
  rw [firstFrame, if_neg hne] at h
  simp only at h
  split_ifs at h

/-- What is read as a frame is one. -/
theorem eq_frame_of_firstFrame {bytes payload rest : Bytes}
    (h : firstFrame bytes = .frame payload rest) :
    bytes = frame payload ++ rest ∧ FitsFrame payload.length := by
  unfold firstFrame at h
  split at h
  · cases h
  split at h
  · cases h
  next hlen =>
    simp only at h
    split at h
    · cases h
    next hfits =>
      split at h
      · cases h
      next hfull =>
        rw [not_not] at hfits
        have htake : (bytes.take 4).length = 4 := by
          rw [List.length_take]
          omega
        have hpayload : ((bytes.drop 4).take (ofBeBytes (bytes.take 4))).length =
            ofBeBytes (bytes.take 4) := by
          rw [List.length_take]
          omega
        have hheader := beBytes_ofBeBytes (bytes.take 4)
        rw [htake] at hheader
        cases h
        rw [frame, hpayload, hheader, List.append_assoc, List.take_append_drop,
          List.take_append_drop]
        exact ⟨rfl, hfits⟩

/-! ### The daemon reads the format -/

namespace Daemon
namespace Ipc

variable {decode : Bytes → Except String M} {s : Input}

/-- The results of the daemon on what a stream starts with. -/
inductive Reads (decode : Bytes → Except String M) (s : Input) :
    FirstFrame → Except IoError (Option M × Input) → Prop
  | nothing (h : s.failure = none) : Reads decode s .nothing (.ok (none, s))
  | failed {e : String} (h : s.failure = some e) : Reads decode s .nothing (.error (.transport e))
  | broken (e : IoError) : Reads decode s .broken (.error e)
  | frame {payload rest : Bytes} {t : Input} {m : M} (hrest : t.content = rest)
      (hfailure : t.failure = s.failure) (hm : decode payload = .ok m) :
      Reads decode s (.frame payload rest) (.ok (some m, t))
  | malformed {payload rest : Bytes} {e : String} (he : decode payload = .error e) :
      Reads decode s (.frame payload rest) (.error (.invalidData e))

theorem fitsFrame_iff {size : Nat} : FitsFrame size ↔ ¬ (size = 0 ∨ maxFrameSize < size) := by
  rw [FitsFrame, maxFrameSize, maxPayload]
  omega

theorem readFrame_of_empty (h : s.content = []) :
    readFrame decode s = match s.failure with
      | none => .ok (none, s)
      | some e => .error (.transport e) := by
  rw [readFrame, InputStream.read_of_empty h]
  cases s.failure with
  | none => rfl
  | some e => rfl

/-- Reading the first byte alone does not matter: behind the two reads is the
stream without its header. -/
theorem readFrame_of_content (decode : Bytes → Except String M) (h : s.content ≠ []) :
    (s.content.length < 4 ∧ readFrame decode s = .error (.ofRead s.ending)) ∨
      4 ≤ s.content.length ∧ ∃ t, InputStream.Skips 4 s t ∧
        readFrame decode s = readPayload decode (ofBeBytes (s.content.take 4)) t := by
  obtain ⟨a, as, t, hread, has, htake, hskips⟩ := InputStream.read_of_content (n := 0) h
  obtain rfl : as = [] := List.length_eq_zero_iff.mp (Nat.le_zero.mp has)
  have hlen : t.content.length = s.content.length - 1 := by
    rw [hskips.content, List.length_drop, List.length_nil]
  have hpos : 0 < s.content.length := List.length_pos_iff.mpr h
  have hrest : readFrame decode s = (t.readExact 3).mapError IoError.ofRead >>= fun header =>
      readPayload decode (ofBeBytes (a :: header.1)) header.2 := by
    rw [readFrame, hread]
    rfl
  by_cases hshort : s.content.length < 4
  · have hlt : t.content.length < 3 := by omega
    refine .inl ⟨hshort, ?_⟩
    rw [hrest, InputStream.readExact_of_lt hlt, hskips.ending_eq]
    rfl
  · have hle : 3 ≤ t.content.length := by omega
    obtain ⟨u, hexact, hskips'⟩ := InputStream.readExact_of_le hle
    have hheader : a :: t.content.take 3 = s.content.take 4 := by
      rw [← List.singleton_append, htake, hskips.content, ← List.take_add]
      rfl
    refine .inr ⟨by omega, u, hskips.trans hskips', ?_⟩
    rw [hrest, hexact, ← hheader]
    rfl

/-- The daemon reads the first frame of every stream. -/
theorem readFrame_reads (decode : Bytes → Except String M) (s : Input) :
    Reads decode s (firstFrame s.content) (readFrame decode s) := by
  by_cases hne : s.content = []
  · rw [readFrame_of_empty hne, firstFrame, if_pos hne]
    cases hfailure : s.failure with
    | none => exact .nothing hfailure
    | some e => exact .failed hfailure
  rw [firstFrame, if_neg hne]
  rcases readFrame_of_content decode hne with ⟨hshort, hread⟩ | ⟨hlen, t, hskips, hread⟩
  · rw [hread, if_pos hshort]
    exact .broken _
  rw [hread, if_neg (Nat.not_lt.mpr hlen), ← hskips.content, readPayload]
  by_cases hfits : FitsFrame (ofBeBytes (s.content.take 4))
  · -- The length is accepted, so the outcome depends on what follows the header.
    simp only [if_neg (fitsFrame_iff.mp hfits), if_neg (not_not.mpr hfits)]
    by_cases hfull : t.content.length < ofBeBytes (s.content.take 4)
    · rw [if_pos hfull, InputStream.readExact_of_lt hfull]
      exact .broken _
    · obtain ⟨u, hexact, hskips'⟩ := InputStream.readExact_of_le (Nat.not_lt.mp hfull)
      rw [if_neg hfull, hexact, ← hskips'.content]
      cases hm : decode (t.content.take (ofBeBytes (s.content.take 4))) with
      | error e =>
          simp only [Except.mapError, ok_bind, hm]
          exact .malformed hm
      | ok m =>
          simp only [Except.mapError, ok_bind, hm]
          exact .frame rfl (hskips'.failure.trans hskips.failure) hm
  · simp only [if_pos (not_not.mp (mt fitsFrame_iff.mpr hfits)), if_pos hfits]
    exact .broken _

end Ipc
end Daemon

/-! ### The client reads the format -/

namespace IpcProtocol

variable {s : Input}

/-- The results of the client on what a stream starts with. -/
inductive Reads (s : Input) : FirstFrame → Except Failure (Bytes × Input) → Prop
  | nothing : Reads s .nothing (.error (.ofRead s.ending))
  | broken (e : Failure) : Reads s .broken (.error e)
  | frame {payload rest : Bytes} {t : Input} (hrest : t.content = rest)
      (hfailure : t.failure = s.failure) : Reads s (.frame payload rest) (.ok (payload, t))

theorem readMessage_of_ok (decode : Bytes → Except String M) {payload : Bytes} {t : Input}
    (h : readFrame s = .ok (payload, t)) :
    readMessage decode s = match decode payload with
      | .ok m => .ok (m, t)
      | .error e => .error (.malformed e) := by
  rw [readMessage, h]
  show ((decode payload).mapError Failure.malformed >>= fun m => .ok (m, t)) = _
  cases decode payload with
  | ok m => rfl
  | error e => rfl

/-- A length of `2 ^ 31` or more is negative here, and too large for the daemon. -/
theorem inRange_iff {u : UInt32} :
    (1 ≤ Kotlin.toInt u ∧ Kotlin.toInt u ≤ maxFrameSize) ↔ FitsFrame u.toNat := by
  rw [FitsFrame, maxFrameSize, maxPayload]
  by_cases hlt : u.toNat < 2 ^ 31
  · rw [Kotlin.toInt_of_lt hlt]
    omega
  · have hneg := Kotlin.toInt_neg (Nat.not_lt.mp hlt)
    omega

theorem readFrame_of_short (h : s.content.length < 4) :
    readFrame s = .error (.ofRead s.ending) := by
  rw [readFrame, readInt, InputStream.readExact_of_lt h]
  rfl

theorem readFrame_of_header (h : 4 ≤ s.content.length) :
    ∃ t, InputStream.Skips 4 s t ∧ readFrame s =
      if FitsFrame (ofBeBytes (s.content.take 4)) then
        (t.readExact (ofBeBytes (s.content.take 4))).mapError .ofRead
      else .error invalidLength := by
  obtain ⟨t, hexact, hskips⟩ := InputStream.readExact_of_le h
  refine ⟨t, hskips, ?_⟩
  have hlt : ofBeBytes (s.content.take 4) < 2 ^ 32 := by
    have hbound := ofBeBytes_lt (s.content.take 4)
    rwa [List.length_take, Nat.min_eq_left h] at hbound
  have hsize : (UInt32.ofNat (ofBeBytes (s.content.take 4))).toNat =
      ofBeBytes (s.content.take 4) := UInt32.toNat_ofNat_of_lt' hlt
  rw [readFrame, readInt, hexact]
  simp only [Except.mapError, ok_bind, inRange_iff, hsize]
  by_cases hfits : FitsFrame (ofBeBytes (s.content.take 4))
  · have hsigned : Kotlin.toInt (UInt32.ofNat (ofBeBytes (s.content.take 4))) =
        ofBeBytes (s.content.take 4) := by
      have hle := hfits.2
      rw [maxPayload] at hle
      rw [Kotlin.toInt_of_lt (by omega), hsize]
    rw [if_neg (not_not.mpr hfits), if_pos hfits, hsigned]
    rfl
  · rw [if_pos hfits, if_neg hfits]

/-- The client reads the first frame of every stream. -/
theorem readFrame_reads (s : Input) : Reads s (firstFrame s.content) (readFrame s) := by
  by_cases hne : s.content = []
  · have hshort : s.content.length < 4 := by simp [hne]
    rw [readFrame_of_short hshort, firstFrame, if_pos hne]
    exact .nothing
  rw [firstFrame, if_neg hne]
  by_cases hshort : s.content.length < 4
  · rw [readFrame_of_short hshort, if_pos hshort]
    exact .broken _
  obtain ⟨t, hskips, hread⟩ := readFrame_of_header (Nat.not_lt.mp hshort)
  rw [hread, if_neg hshort, ← hskips.content]
  by_cases hfits : FitsFrame (ofBeBytes (s.content.take 4))
  · simp only [if_pos hfits, if_neg (not_not.mpr hfits)]
    by_cases hfull : t.content.length < ofBeBytes (s.content.take 4)
    · rw [if_pos hfull, InputStream.readExact_of_lt hfull]
      exact .broken _
    · obtain ⟨u, hexact, hskips'⟩ := InputStream.readExact_of_le (Nat.not_lt.mp hfull)
      rw [if_neg hfull, hexact]
      exact .frame hskips'.content (hskips'.failure.trans hskips.failure)
  · simp only [if_neg hfits, if_pos hfits]
    exact .broken _

end IpcProtocol

end WgKotlin
