import WgKotlin.Daemon.Macos.Snapshot
import WgKotlin.Library.Records

/-!
# Scanning what the kernel sends

The loops of `exchange` and `dump_routes` and the loop of `addresses`, with the
offsets and the indices of the source.  The lengths they move by come from the data.
Every loop ends, none reads outside of the data, and what the two scans return is
told by the messages that the data is made of.
-/

namespace WgKotlin
namespace Daemon
namespace Macos

open Proto Library

def rtmPid : HeaderField := { offset := 16, width := 4, within := by decide }
def rtmSeq : HeaderField := { offset := 20, width := 4, within := by decide }

/-! ### Addresses by offset -/

/-- The loop of `addresses`, with `bytes[offset..offset + length]` checked. -/
def slotsAt (bytes : Bytes) (addrs : Nat) :
    Nat → Nat → Nat → Except (Fault IoError) (List (Option Bytes))
  | 0, _, _ => .ok []
  | count + 1, position, offset =>
    if addrs.testBit position then
      match bytes[offset]? with
      | none => .error (.error (.other "missing route address"))
      | some length =>
        if bytes.length < offset + paddedLength length.toNat then
          .error (.error (.other "truncated route address"))
        else do
          let address ← slice bytes offset (offset + length.toNat)
          let slots ← slotsAt bytes addrs count (position + 1)
            (offset + paddedLength length.toNat)
          .ok (some address :: slots)
    else do
      let slots ← slotsAt bytes addrs count (position + 1) offset
      .ok (none :: slots)

/-- `addresses(bytes, header)` by offset. -/
def addressesAt (bytes : Bytes) (head : RtMsghdr) : Except (Fault IoError) (List (Option Bytes)) :=
  slotsAt bytes (rtmAddrs.get head) rtaxMax 0 headerSize

theorem slotsAt_eq (bytes : Bytes) (addrs count position offset : Nat) :
    slotsAt bytes addrs count position offset =
      lift (readSlots addrs position count (bytes.drop offset)) := by
  induction count generalizing position offset with
  | zero => rfl
  | succ count ih =>
      rw [slotsAt, readSlots.eq_def]
      simp only
      by_cases hbit : addrs.testBit position = true
      · rw [if_pos hbit, if_pos hbit]
        cases hget : bytes[offset]? with
        | none =>
            rw [List.drop_eq_nil_of_le (List.getElem?_eq_none_iff.mp hget)]
            rfl
        | some length =>
            obtain ⟨hlt, hlength⟩ := List.getElem?_eq_some_iff.mp hget
            have hrest : (length :: bytes.drop (offset + 1)).length = bytes.length - offset := by
              rw [← hlength, ← List.drop_eq_getElem_cons hlt, List.length_drop]
            rw [List.drop_eq_getElem_cons hlt, hlength]
            simp only [hrest]
            by_cases hshort : bytes.length < offset + paddedLength length.toNat
            · rw [if_pos hshort, if_pos (by omega)]
              rfl
            · have hle := le_paddedLength length.toNat
              rw [if_neg hshort, if_neg (by omega), slice_add (by omega), ok_bind, ih,
                lift_bind, ← hlength, ← List.drop_eq_getElem_cons hlt, List.drop_drop]
              rfl
      · rw [if_neg hbit, if_neg hbit, ih, lift_bind]
        rfl

/-- `addresses` reads nothing outside of the message. -/
theorem addressesAt_eq (bytes : Bytes) (head : RtMsghdr) :
    addressesAt bytes head = lift (addresses bytes head) :=
  slotsAt_eq bytes _ _ _ _

/-! ### The scan of `exchange` -/

/-- What `exchange` waits for. -/
structure Request where
  operation : UInt8
  pid : Nat
  sequence : Nat
  deriving DecidableEq, Repr

/-- One round of the inner loop.  The result is `none` when the buffer is used up, and
the next one is read. -/
def scanStep (request : Request) (buffer : Bytes) (count : Nat) (s : Unit × Nat) :
    Except (Fault IoError) ((Unit × Nat) ⊕ Option Bytes) :=
  let offset := s.2
  if ¬ offset < count then .ok (.inr none)
  else if count - offset < 4 then .error (.error (.other "truncated routing message prefix"))
  else do
    let low ← index buffer offset
    let high ← index buffer (offset + 1)
    let length := ofLeBytes [low, high]
    if length < 4 ∨ count - offset < length then
      .error (.error (.other "invalid routing message length"))
    else do
      let version ← index buffer (offset + 2)
      let operation ← index buffer (offset + 3)
      if version.toNat ≠ rtmVersionNumber ∨ operation ≠ request.operation then
        .ok (.inl ((), offset + length))
      else do
        let message ← slice buffer offset (offset + length)
        let reply ← lift (header message)
        if rtmVersion.get reply = rtmVersionNumber ∧ rtmPid.get reply = request.pid ∧
            rtmSeq.get reply = request.sequence then
          if reply.errno ≠ 0 then .error (.error (.os reply.errno))
          else do
            let found ← slice buffer offset (offset + length)
            .ok (.inr (some found))
        else .ok (.inl ((), offset + length))

/-- The inner loop of `exchange` over the first `count` bytes of the buffer. -/
def scanReplies (fuel : Nat) (request : Request) (buffer : Bytes) (count : Nat) :
    Except (Fault IoError) (Option Bytes) :=
  loop (scanStep request buffer count) fuel ((), 0)

/-- What a read of the socket gives. -/
inductive Received
  | failed (code : Int32)
  | read (bytes : Bytes)
  deriving DecidableEq, Repr

/-- The outer loop of `exchange`, for the reads up to the deadline.  A read overwrites the
front of the buffer. -/
def awaitReply (fuel : Nat) (request : Request) (buffer : Bytes) :
    List Received → Except (Fault IoError) Bytes
  | [] => .error (.error (.other "routing reply timed out"))
  | .failed code :: _ => .error (.error (.os code))
  | .read bytes :: rest =>
    if bytes.length = 0 then .error (.error (.other "routing socket closed"))
    else do
      let next := bytes ++ buffer.drop bytes.length
      match ← scanReplies fuel request next bytes.length with
      | some reply => .ok reply
      | none => awaitReply fuel request next rest

/-! ### The loop of `dump_routes` -/

/-- Whether a route leads to an internet address. -/
def isInetRoute (dst : Option Bytes) : Bool :=
  match dst with
  | none => false
  | some address => address[1]? == some afInet || address[1]? == some afInet6

def dumpStep (bytes : Bytes) (s : List Snapshot × Nat) :
    Except (Fault IoError) ((List Snapshot × Nat) ⊕ List Snapshot) :=
  let (routes, offset) := s
  if ¬ offset < bytes.length then .ok (.inr routes)
  else do
    let rest ← slice bytes offset bytes.length
    let head ← lift (header rest)
    let length := rtmMsglen.get head
    if length < headerSize ∨ bytes.length - offset < length then
      .error (.error (.other "invalid route dump message"))
    else if rtmVersion.get head ≠ rtmVersionNumber then
      .error (.error (.other "unexpected route dump version"))
    else do
      let message ← slice bytes offset (offset + length)
      let attrs ← addressesAt message head
      let dst ← index attrs rtaxDst
      let routes := if isInetRoute dst then routes ++ [{ bytes := message }] else routes
      .ok (.inl (routes, offset + length))

/-- The loop of `dump_routes` over one answer of `sysctl`. -/
def dumpLoop (fuel : Nat) (bytes : Bytes) : Except (Fault IoError) (List Snapshot) :=
  loop (dumpStep bytes) fuel ([], 0)

/-- What the two calls of `sysctl` in one try answer. -/
inductive Attempt
  | sizeFailed (code : Int32)
  | dumpFailed (code : Int32)
  | dumped (bytes : Bytes)
  deriving DecidableEq, Repr

/-- `ENOMEM` -/
def enomem : Int32 := 12

/-- `dump_routes`: three tries, as long as the table grows between the two calls. -/
def dumpRoutes (fuel : Nat) (attempt : Nat → Attempt) : Except (Fault IoError) (List Snapshot) :=
  tries 3
where
  tries : Nat → Except (Fault IoError) (List Snapshot)
    | 0 => .error (.error (.other "routing table kept changing during snapshot"))
    | left + 1 =>
      match attempt (2 - left) with
      | .sizeFailed code => .error (.error (.os code))
      | .dumpFailed code => if code = enomem then tries left else .error (.error (.os code))
      | .dumped bytes => dumpLoop fuel bytes

/-! ### Messages of their own length -/

/-- Both scans find the length of a message at its front and check it against what is
left.  They differ in the least length. -/
def messageLength (least : Nat) (short invalid : String) (rest : Bytes) : Except IoError Nat :=
  if rest.length < least then .error (.other short)
  else if readField 0 2 rest < least ∨ rest.length < readField 0 2 rest then
    .error (.other invalid)
  else .ok (readField 0 2 rest)

section MessageLength

variable {least n : Nat} {short invalid : String} {rest : Bytes}

theorem messageLength_eq_ok : messageLength least short invalid rest = .ok n ↔
    readField 0 2 rest = n ∧ least ≤ n ∧ n ≤ rest.length := by
  unfold messageLength
  constructor
  · intro h
    split at h
    · cases h
    · split at h
      · cases h
      next hlength =>
        rw [not_or, Nat.not_lt, Nat.not_lt] at hlength
        cases h
        exact ⟨rfl, hlength⟩
  · rintro ⟨hn, hleast, hle⟩
    rw [hn, if_neg (by omega), if_neg (by omega)]

theorem messageLength_take (hleast : 2 ≤ least)
    (h : messageLength least short invalid rest = .ok n) (other : Bytes) :
    messageLength least short invalid (rest.take n ++ other) = .ok n := by
  obtain ⟨hn, hmin, hle⟩ := messageLength_eq_ok.mp h
  have hlength : (rest.take n).length = n := by
    rw [List.length_take]
    omega
  refine messageLength_eq_ok.mpr ⟨?_, hmin, ?_⟩
  · rw [readField_append (by omega), readField_take (by omega), hn]
  · rw [List.length_append]
    omega

/-- The messages that a scan moves over. -/
theorem messageLength_append {m : Bytes} (hleast : 2 ≤ least) :
    (∀ rest, messageLength least short invalid (m ++ rest) = .ok m.length) ↔
      least ≤ m.length ∧ readField 0 2 m = m.length := by
  constructor
  · intro h
    obtain ⟨hn, hmin, _⟩ := messageLength_eq_ok.mp (h [])
    rw [List.append_nil] at hn
    exact ⟨hmin, hn⟩
  · rintro ⟨hmin, hn⟩ rest
    refine messageLength_eq_ok.mpr ⟨?_, hmin, ?_⟩
    · rw [readField_append (by omega), hn]
    · rw [List.length_append]
      omega

end MessageLength

/-- A header field, in the message that the header was read from. -/
theorem get_of_header {m : Bytes} {head : RtMsghdr} (h : header m = .ok head) (f : HeaderField) :
    f.get head = readField f.offset f.width m := by
  unfold header at h
  split at h
  · cases h
  · cases h
    exact readField_take f.within

theorem exists_header {m : Bytes} (h : headerSize ≤ m.length) : ∃ head, header m = .ok head := by
  rw [header, dif_neg (Nat.not_lt.mpr h)]
  exact ⟨_, rfl⟩

theorem header_length {m : Bytes} {head : RtMsghdr} (h : header m = .ok head) :
    headerSize ≤ m.length := by
  unfold header at h
  split at h
  · cases h
  next hlength => exact Nat.not_lt.mp hlength

theorem header_take {rest : Bytes} {n : Nat} (hn : headerSize ≤ n) (hle : n ≤ rest.length) :
    header (rest.take n) = header rest := by
  have hlength : ¬ (rest.take n).length < headerSize := by
    rw [List.length_take]
    omega
  rw [header, dif_neg hlength, header, dif_neg (by omega)]
  simp only [List.take_take, Nat.min_eq_left hn]

/-! ### Replies -/

/-- A message of this version and operation. -/
def Carries (request : Request) (m : Bytes) : Prop :=
  readField rtmVersion.offset rtmVersion.width m = rtmVersionNumber ∧
    readField rtmType.offset rtmType.width m = request.operation.toNat

/-- A reply to the request. -/
def Answers (request : Request) (m : Bytes) : Prop :=
  Carries request m ∧ readField rtmPid.offset rtmPid.width m = request.pid ∧
    readField rtmSeq.offset rtmSeq.width m = request.sequence

instance (request : Request) (m : Bytes) : Decidable (Carries request m) :=
  inferInstanceAs (Decidable (_ ∧ _))

instance (request : Request) (m : Bytes) : Decidable (Answers request m) :=
  inferInstanceAs (Decidable (_ ∧ _))

/-- A message with its own length, and with a full header if it looks like a reply. -/
structure Consistent (request : Request) (m : Bytes) : Prop where
  least : 4 ≤ m.length
  length : readField 0 2 m = m.length
  full : Carries request m → headerSize ≤ m.length

/-- What the scan does with a message. -/
def scanVisit (request : Request) (m : Bytes) : Except IoError (Unit ⊕ Option Bytes) :=
  if ¬ Carries request m then .ok (.inl ())
  else do
    let reply ← header m
    if rtmPid.get reply = request.pid ∧ rtmSeq.get reply = request.sequence then
      if reply.errno ≠ 0 then .error (.os reply.errno) else .ok (.inr (some m))
    else .ok (.inl ())

def scanFormat (request : Request) : Format UInt8 IoError Unit (Option Bytes) where
  measure := messageLength 4 "truncated routing message prefix" "invalid routing message length"
  visit := fun _ => scanVisit request
  finish := fun _ => none
  measure_pos := fun h => Nat.lt_of_lt_of_le (by decide) (messageLength_eq_ok.mp h).2.1
  measure_le := fun h => (messageLength_eq_ok.mp h).2.2
  measure_take := messageLength_take (by decide)

theorem readField_pair {bytes : Bytes} {low high : UInt8} (hlow : bytes[0]? = some low)
    (hhigh : bytes[1]? = some high) : readField 0 2 bytes = ofLeBytes [low, high] := by
  match bytes with
  | b0 :: b1 :: rest =>
      cases hlow
      cases hhigh
      rfl

/-- After the length of a message is known, the loop does what `scanVisit` does. -/
theorem scanVisit_eq {request : Request} {m : Bytes} {version operation : UInt8}
    (hversion : m[2]? = some version)
    (hoperation : m[3]? = some operation) (next : Nat) :
    (if version.toNat ≠ rtmVersionNumber ∨ operation ≠ request.operation then
        .ok (.inl ((), next))
      else do
        let reply ← lift (header m)
        if rtmVersion.get reply = rtmVersionNumber ∧ rtmPid.get reply = request.pid ∧
            rtmSeq.get reply = request.sequence then
          if reply.errno ≠ 0 then .error (.error (.os reply.errno))
          else .ok (.inr (some m))
        else .ok (.inl ((), next)) : Except (Fault IoError) ((Unit × Nat) ⊕ Option Bytes)) =
      lift ((scanVisit request m).map (Sum.map (·, next) id)) := by
  have hcarries : Carries request m ↔
      version.toNat = rtmVersionNumber ∧ operation = request.operation := by
    have hread : ∀ {i : Nat} {b : UInt8}, m[i]? = some b → readField i 1 m = b.toNat := by
      intro i b hb
      obtain ⟨hi, rfl⟩ := List.getElem?_eq_some_iff.mp hb
      rw [readField, List.drop_eq_getElem_cons hi, List.take_succ_cons, List.take_zero, ofLeBytes,
        ofLeBytes, Nat.mul_zero, Nat.add_zero]
    show readField 2 1 m = _ ∧ readField 3 1 m = _ ↔ _
    rw [hread hversion, hread hoperation, UInt8.toNat_inj]
  rw [scanVisit]
  by_cases hc : Carries request m
  · rw [if_neg (by rw [not_or, not_not, not_not]; exact hcarries.mp hc), if_neg (not_not_intro hc)]
    cases hheader : header m with
    | error e => rfl
    | ok reply =>
        have hversion : rtmVersion.get reply = rtmVersionNumber := by
          rw [get_of_header hheader]
          exact hc.1
        simp only [hversion, true_and, lift_ok, ok_bind]
        split
        · split <;> rfl
        · rfl
  · rw [if_pos, if_pos hc]
    · rfl
    · rw [← not_and_or]
      exact fun h => hc (hcarries.mpr h)

theorem scanStep_eq {request : Request} {buffer : Bytes} {count : Nat}
    (hcount : count ≤ buffer.length) (s : Unit × Nat) (hs : s.2 ≤ (buffer.take count).length) :
    scanStep request buffer count s = lift ((scanFormat request).stepAt (buffer.take count) s) := by
  obtain ⟨⟨⟩, offset⟩ := s
  have htake : (buffer.take count).length = count := by
    rw [List.length_take]
    omega
  rw [htake] at hs
  have hrest : ((buffer.take count).drop offset).length = count - offset := by
    rw [List.length_drop, htake]
  simp only [scanStep, Format.stepAt, scanFormat]
  by_cases hend : offset < count
  · have hne : (buffer.take count).drop offset ≠ [] := by
      intro hnil
      rw [hnil, List.length_nil] at hrest
      omega
    rw [if_neg (not_not_intro hend), if_neg hne]
    by_cases hshort : count - offset < 4
    · rw [if_pos hshort, messageLength, hrest, if_pos hshort]
      rfl
    · rw [if_neg hshort]
      -- four bytes are left, which is all that is read before the length is checked
      have hindex : ∀ i < 4, ∃ b, ((buffer.take count).drop offset)[i]? = some b ∧
          index buffer (offset + i) = (.ok b : Except (Fault IoError) UInt8) := by
        intro i hi
        have hlt : i < ((buffer.take count).drop offset).length := by
          rw [hrest]
          omega
        refine ⟨_, List.getElem?_eq_getElem hlt, ?_⟩
        rw [index_window (show offset + i < count by omega), index, List.getElem?_eq_getElem hlt]
      obtain ⟨low, hlow, hlowIndex⟩ := hindex 0 (by omega)
      obtain ⟨high, hhigh, hhighIndex⟩ := hindex 1 (by omega)
      obtain ⟨version, hversion, hversionIndex⟩ := hindex 2 (by omega)
      obtain ⟨operation, hoperation, hoperationIndex⟩ := hindex 3 (by omega)
      have hfield := readField_pair hlow hhigh
      rw [Nat.add_zero] at hlowIndex
      rw [hlowIndex, hhighIndex, ok_bind, ok_bind, messageLength, hrest, if_neg hshort, hfield]
      by_cases hbad : ofLeBytes [low, high] < 4 ∨ count - offset < ofLeBytes [low, high]
      · rw [if_pos hbad, if_pos hbad]
        rfl
      · rw [if_neg hbad, if_neg hbad, hversionIndex, hoperationIndex,
          slice_window hcount (by omega)]
        simp only [ok_bind]
        refine scanVisit_eq ?_ ?_ _
        · rw [List.getElem?_take_of_lt (by omega), hversion]
        · rw [List.getElem?_take_of_lt (by omega), hoperation]
  · rw [if_pos hend, if_pos (List.eq_nil_of_length_eq_zero (by omega))]
    rfl

/-- The scan ends, and it reads nothing outside of the buffer. -/
theorem scanReplies_eq {request : Request} {buffer : Bytes} {count fuel : Nat}
    (hcount : count ≤ buffer.length) (hfuel : count < fuel) :
    scanReplies fuel request buffer count =
      lift ((scanFormat request).walk () (buffer.take count)) := by
  have hlength : (buffer.take count).length = count := by
    rw [List.length_take]
    omega
  exact (scanFormat request).loop_eq_walk (scanStep_eq hcount) (Nat.zero_le _)
    (by rw [hlength]; exact hfuel)

section Reply

variable {request : Request} {m : Bytes}

theorem isRecord_scanFormat :
    (scanFormat request).IsRecord m ↔ 4 ≤ m.length ∧ readField 0 2 m = m.length :=
  messageLength_append (by decide)

theorem Consistent.isRecord (h : Consistent request m) : (scanFormat request).IsRecord m :=
  isRecord_scanFormat.mpr ⟨h.least, h.length⟩

/-- The error that a reply reports, or zero. -/
def errnoOf (m : Bytes) : Int32 :=
  (UInt32.ofNat (readField rtmErrno.offset rtmErrno.width m)).toInt32

theorem scanVisit_of_carries {reply : RtMsghdr} (hcarries : Carries request m)
    (hheader : header m = .ok reply) : scanVisit request m =
      if Answers request m then
        if errnoOf m ≠ 0 then .error (.os (errnoOf m)) else .ok (.inr (some m))
      else .ok (.inl ()) := by
  have hanswers : (rtmPid.get reply = request.pid ∧ rtmSeq.get reply = request.sequence) ↔
      Answers request m := by
    rw [get_of_header hheader, get_of_header hheader, Answers]
    exact ⟨fun h => ⟨hcarries, h⟩, fun h => h.2⟩
  rw [scanVisit, if_neg (not_not_intro hcarries), hheader, ok_bind, RtMsghdr.errno,
    get_of_header hheader rtmErrno]
  exact if_congr hanswers rfl rfl

theorem scanVisit_skip (h : Consistent request m) (hanswers : ¬ Answers request m) :
    scanVisit request m = .ok (.inl ()) := by
  by_cases hcarries : Carries request m
  · obtain ⟨reply, hheader⟩ := exists_header (h.full hcarries)
    rw [scanVisit_of_carries hcarries hheader, if_neg hanswers]
  · rw [scanVisit, if_pos hcarries]

theorem scanVisit_reply (h : Consistent request m) (hanswers : Answers request m) :
    scanVisit request m =
      if errnoOf m ≠ 0 then .error (.os (errnoOf m)) else .ok (.inr (some m)) := by
  obtain ⟨reply, hheader⟩ := exists_header (h.full hanswers.1)
  rw [scanVisit_of_carries hanswers.1 hheader, if_pos hanswers]

/-- What a message is that the scan goes past or stops at. -/
theorem scanVisit_eq_ok {outcome : Unit ⊕ Option Bytes} (h : scanVisit request m = .ok outcome) :
    (Carries request m → headerSize ≤ m.length) ∧
      ((¬ Answers request m ∧ outcome = .inl ()) ∨
        (Answers request m ∧ errnoOf m = 0 ∧ outcome = .inr (some m))) := by
  by_cases hcarries : Carries request m
  · cases hheader : header m with
    | error e =>
        rw [scanVisit, if_neg (not_not_intro hcarries), hheader] at h
        cases h
    | ok reply =>
        refine ⟨fun _ => header_length hheader, ?_⟩
        rw [scanVisit_of_carries hcarries hheader] at h
        split at h
        next hanswers =>
          split at h
          · cases h
          next herrno =>
            cases h
            exact Or.inr ⟨hanswers, not_not.mp herrno, rfl⟩
        next hanswers =>
          cases h
          exact Or.inl ⟨hanswers, rfl⟩
  · rw [scanVisit, if_pos hcarries] at h
    cases h
    exact ⟨fun hc => absurd hc hcarries, Or.inl ⟨fun ha => hcarries ha.1, rfl⟩⟩

end Reply

section Scan

variable {request : Request} {skipped : List Bytes}

/-- The scan goes past messages that are consistent and not a reply, and past no others. -/
theorem visits_scanFormat :
    ((∀ m ∈ skipped, (scanFormat request).IsRecord m) ∧
      (scanFormat request).Visits () skipped ()) ↔
      ∀ m ∈ skipped, Consistent request m ∧ ¬ Answers request m := by
  induction skipped with
  | nil => exact ⟨fun _ m hm => (by cases hm), fun _ => ⟨fun m hm => (by cases hm), rfl⟩⟩
  | cons m rest ih =>
      rw [List.forall_mem_cons, List.forall_mem_cons, ← ih]
      constructor
      · rintro ⟨⟨hm, hrest⟩, _, hvisit, hvisits⟩
        obtain ⟨hleast, hlength⟩ := isRecord_scanFormat.mp hm
        obtain ⟨hfull, ⟨hanswers, _⟩ | ⟨_, _, houtcome⟩⟩ := scanVisit_eq_ok hvisit
        · exact ⟨⟨⟨hleast, hlength, hfull⟩, hanswers⟩, hrest, hvisits⟩
        · cases houtcome
      · rintro ⟨⟨hm, hanswers⟩, hrest, hvisits⟩
        exact ⟨⟨hm.isRecord, hrest⟩, (), scanVisit_skip hm hanswers, hvisits⟩

theorem walk_scanFormat_reply {m : Bytes}
    (hskipped : ∀ m ∈ skipped, Consistent request m ∧ ¬ Answers request m)
    (hm : Consistent request m) (hanswers : Answers request m) (rest : Bytes) :
    (scanFormat request).walk () (skipped.flatten ++ (m ++ rest)) =
      if errnoOf m ≠ 0 then .error (.os (errnoOf m)) else .ok (some m) := by
  obtain ⟨hrecords, hvisits⟩ := visits_scanFormat.mpr hskipped
  have hvisit : (scanFormat request).visit () m = _ := scanVisit_reply hm hanswers
  rw [Format.walk_visits hrecords hvisits, Format.walk_record hm.isRecord, hvisit]
  by_cases herrno : errnoOf m ≠ 0
  · rw [if_pos herrno, if_pos herrno]
  · rw [if_neg herrno, if_neg herrno]

/-- The scan returns a message exactly when that is the first reply in the buffer, without
an error, behind consistent messages. -/
theorem walk_scanFormat_eq_some {data m : Bytes} :
    (scanFormat request).walk () data = .ok (some m) ↔
      ∃ skipped rest, data = List.flatten skipped ++ (m ++ rest) ∧
        (∀ m ∈ skipped, Consistent request m ∧ ¬ Answers request m) ∧
        Consistent request m ∧ Answers request m ∧ errnoOf m = 0 := by
  constructor
  · intro h
    cases Format.ends_of_walk h with
    | all records last hrecords hvisits hrest hresult => cases hresult
    | early records last record more hrecords hvisits hrecord hrest hvisit =>
        obtain ⟨hleast, hlength⟩ := isRecord_scanFormat.mp hrecord
        obtain ⟨hfull, ⟨_, houtcome⟩ | ⟨hanswers, herrno, houtcome⟩⟩ := scanVisit_eq_ok hvisit
        · cases houtcome
        · cases houtcome
          exact ⟨records, more, hrest, visits_scanFormat.mp ⟨hrecords, hvisits⟩,
            ⟨hleast, hlength, hfull⟩, hanswers, herrno⟩
  · rintro ⟨skipped, rest, rfl, hskipped, hm, hanswers, herrno⟩
    rw [walk_scanFormat_reply hskipped hm hanswers, if_neg (not_not_intro herrno)]

end Scan

/-- Whatever is read, `exchange` ends with a reply to its request or with an error. -/
theorem awaitReply_eq {request : Request} {fuel : Nat} {reads : List Received}
    (hfuel : ∀ bytes, Received.read bytes ∈ reads → bytes.length < fuel) (buffer : Bytes) :
    ∃ outcome : Except IoError Bytes, awaitReply fuel request buffer reads = lift outcome ∧
      ∀ reply, outcome = .ok reply →
        Consistent request reply ∧ Answers request reply ∧ errnoOf reply = 0 := by
  induction reads generalizing buffer with
  | nil => exact ⟨.error _, rfl, fun reply h => (by cases h)⟩
  | cons received rest ih =>
      have hmore := @ih fun bytes hbytes => hfuel bytes (List.mem_cons_of_mem received hbytes)
      cases received with
      | failed code => exact ⟨.error _, rfl, fun reply h => (by cases h)⟩
      | read bytes =>
          rw [awaitReply]
          by_cases hempty : bytes.length = 0
          · rw [if_pos hempty]
            exact ⟨.error _, rfl, fun reply h => (by cases h)⟩
          · have hscan : scanReplies fuel request (bytes ++ buffer.drop bytes.length)
                bytes.length = _ :=
              scanReplies_eq (by rw [List.length_append]; omega) (hfuel bytes List.mem_cons_self)
            rw [if_neg hempty]
            simp only [hscan]
            cases hwalk : (scanFormat request).walk ()
              ((bytes ++ buffer.drop bytes.length).take bytes.length) with
            | error e => exact ⟨.error e, rfl, fun reply h => (by cases h)⟩
            | ok found =>
                cases found with
                | none => exact hmore _
                | some reply =>
                    obtain ⟨_, _, _, _, hm, hanswers, herrno⟩ := walk_scanFormat_eq_some.mp hwalk
                    refine ⟨.ok reply, rfl, fun reply' h => ?_⟩
                    cases h
                    exact ⟨hm, hanswers, herrno⟩

/-! ### Dumps -/

def dumpVisit (routes : List Snapshot) (m : Bytes) :
    Except IoError (List Snapshot ⊕ List Snapshot) := do
  let head ← header m
  if rtmVersion.get head ≠ rtmVersionNumber then .error (.other "unexpected route dump version")
  else do
    let attrs ← addresses m head
    .ok (.inl (if isInetRoute (slot attrs rtaxDst) then routes ++ [{ bytes := m }] else routes))

def dumpFormat : Format UInt8 IoError (List Snapshot) (List Snapshot) where
  measure := messageLength headerSize "truncated routing message" "invalid route dump message"
  visit := dumpVisit
  finish := id
  measure_pos := fun h => Nat.lt_of_lt_of_le (by decide) (messageLength_eq_ok.mp h).2.1
  measure_le := fun h => (messageLength_eq_ok.mp h).2.2
  measure_take := messageLength_take (by decide)

theorem index_rtaxDst {bytes : Bytes} {head : RtMsghdr} {attrs : List (Option Bytes)}
    (h : addresses bytes head = .ok attrs) :
    index attrs rtaxDst = (.ok (slot attrs rtaxDst) : Except (Fault IoError) (Option Bytes)) := by
  have hlength : rtaxDst < attrs.length := by
    rw [(readSlots_spec h).1]
    decide
  rw [index, slot, List.getElem?_eq_getElem hlength]
  rfl

theorem dumpStep_eq {bytes : Bytes} (s : List Snapshot × Nat) (hs : s.2 ≤ bytes.length) :
    dumpStep bytes s = lift (dumpFormat.stepAt bytes s) := by
  obtain ⟨routes, offset⟩ := s
  simp only at hs
  have hrest : (bytes.drop offset).length = bytes.length - offset := List.length_drop
  simp only [dumpStep, Format.stepAt, dumpFormat]
  by_cases hend : offset < bytes.length
  · have hne : bytes.drop offset ≠ [] := by
      intro hnil
      rw [hnil, List.length_nil] at hrest
      omega
    have hslice : slice bytes offset bytes.length =
        (.ok (bytes.drop offset) : Except (Fault IoError) Bytes) := by
      rw [slice, if_pos ⟨hs, Nat.le_refl _⟩, List.take_of_length_le (by omega)]
    rw [if_neg (not_not_intro hend), if_neg hne, hslice, ok_bind, messageLength, hrest]
    by_cases hshort : bytes.length - offset < headerSize
    · rw [if_pos hshort, header, dif_pos (by rw [hrest]; exact hshort)]
      rfl
    · obtain ⟨head, hheader⟩ := exists_header (m := bytes.drop offset) (by omega)
      have hmsglen : rtmMsglen.get head = readField 0 2 (bytes.drop offset) :=
        get_of_header hheader rtmMsglen
      rw [if_neg hshort, hheader, lift_ok, ok_bind, hmsglen]
      by_cases hbad : readField 0 2 (bytes.drop offset) < headerSize ∨
          bytes.length - offset < readField 0 2 (bytes.drop offset)
      · rw [if_pos hbad, if_pos hbad]
        rfl
      · -- the loop reads the header in all that is left, the walk in the message
        rw [if_neg hbad, if_neg hbad, ok_bind, dumpVisit, header_take (by omega) (by omega),
          hheader, ok_bind, slice_add (by omega), ok_bind, addressesAt_eq]
        by_cases hversion : rtmVersion.get head ≠ rtmVersionNumber
        · rw [if_pos hversion, if_pos hversion]
          rfl
        · rw [if_neg hversion, if_neg hversion]
          cases haddresses : addresses
            ((bytes.drop offset).take (readField 0 2 (bytes.drop offset))) head with
          | error e => rfl
          | ok attrs =>
              rw [lift_ok, ok_bind, index_rtaxDst haddresses]
              rfl
  · rw [if_pos hend, if_pos (List.eq_nil_of_length_eq_zero (by omega))]
    rfl

/-- The loop ends, and it reads nothing outside of the dump. -/
theorem dumpLoop_eq {bytes : Bytes} {fuel : Nat} (hfuel : bytes.length < fuel) :
    dumpLoop fuel bytes = lift (dumpFormat.walk [] bytes) :=
  dumpFormat.loop_eq_walk dumpStep_eq (Nat.zero_le _) hfuel

/-- A message of a dump: all of it can be read, and it is as long as it tells. -/
structure IsEntry (m : Bytes) : Prop where
  reads : ∃ head attrs, Reads { bytes := m } head attrs
  length : readField rtmMsglen.offset rtmMsglen.width m = m.length
  version : readField rtmVersion.offset rtmVersion.width m = rtmVersionNumber

/-- An entry for an address of the family 2, IPv4, or 30, IPv6. -/
def isInetEntry (m : Bytes) : Bool :=
  match header m >>= addresses m with
  | .ok attrs =>
    (slot attrs rtaxDst).any fun address => address[1]? == some 2 || address[1]? == some 30
  | .error _ => false

def inetEntries (messages : List Bytes) : List Snapshot :=
  (messages.filter isInetEntry).map Snapshot.mk

theorem isRecord_dumpFormat {m : Bytes} :
    dumpFormat.IsRecord m ↔ headerSize ≤ m.length ∧ readField 0 2 m = m.length :=
  messageLength_append (by decide)

theorem inetEntries_singleton {m : Bytes} {head : RtMsghdr} {attrs : List (Option Bytes)}
    (h : Reads { bytes := m } head attrs) :
    inetEntries [m] = if isInetRoute (slot attrs rtaxDst) then [{ bytes := m }] else [] := by
  have hheader : header m = .ok head := h.header
  have haddresses : addresses m head = .ok attrs := h.addresses
  have hentry : isInetEntry m = isInetRoute (slot attrs rtaxDst) := by
    rw [isInetEntry, hheader, ok_bind, haddresses]
    simp only
    cases slot attrs rtaxDst with
    | none => rfl
    | some address => rfl
  rw [inetEntries, List.filter_cons, hentry, List.filter_nil]
  split <;> rfl

theorem dumpVisit_eq_ok {m : Bytes} {routes : List Snapshot}
    {outcome : List Snapshot ⊕ List Snapshot} :
    dumpVisit routes m = .ok outcome ↔
      (∃ head attrs, Reads { bytes := m } head attrs) ∧
        readField rtmVersion.offset rtmVersion.width m = rtmVersionNumber ∧
        outcome = .inl (routes ++ inetEntries [m]) := by
  have hresult : ∀ {head : RtMsghdr} {attrs : List (Option Bytes)},
      Reads { bytes := m } head attrs →
      (if isInetRoute (slot attrs rtaxDst) then routes ++ [{ bytes := m }] else routes) =
        routes ++ inetEntries [m] := by
    intro head attrs hreads
    rw [inetEntries_singleton hreads]
    split
    · rfl
    · rw [List.append_nil]
  constructor
  · intro h
    obtain ⟨head, hheader, h⟩ := bind_eq_ok.mp h
    split at h
    · cases h
    next hversion =>
      obtain ⟨attrs, haddresses, h⟩ := bind_eq_ok.mp h
      have hreads : Reads { bytes := m } head attrs := ⟨hheader, haddresses⟩
      rw [hresult hreads] at h
      cases h
      rw [not_not, get_of_header hheader] at hversion
      exact ⟨⟨head, attrs, hreads⟩, hversion, rfl⟩
  · rintro ⟨⟨head, attrs, hreads⟩, hversion, rfl⟩
    have hheader : header m = .ok head := hreads.header
    have haddresses : addresses m head = .ok attrs := hreads.addresses
    rw [dumpVisit, hheader, ok_bind, get_of_header hheader, if_neg (not_not_intro hversion),
      haddresses, ok_bind, hresult hreads]

theorem isEntry_iff {m : Bytes} : IsEntry m ↔ dumpFormat.IsRecord m ∧
    (∃ head attrs, Reads { bytes := m } head attrs) ∧
      readField rtmVersion.offset rtmVersion.width m = rtmVersionNumber := by
  constructor
  · intro h
    obtain ⟨head, attrs, hreads⟩ := h.reads
    exact ⟨isRecord_dumpFormat.mpr ⟨header_length hreads.header, h.length⟩, h.reads, h.version⟩
  · rintro ⟨hrecord, hreads, hversion⟩
    exact ⟨hreads, (isRecord_dumpFormat.mp hrecord).2, hversion⟩

theorem visits_dumpFormat {messages : List Bytes} {routes last : List Snapshot} :
    ((∀ m ∈ messages, dumpFormat.IsRecord m) ∧ dumpFormat.Visits routes messages last) ↔
      (∀ m ∈ messages, IsEntry m) ∧ last = routes ++ inetEntries messages := by
  induction messages generalizing routes with
  | nil =>
      rw [show inetEntries [] = [] from rfl, List.append_nil]
      exact ⟨fun h => ⟨fun m hm => (by cases hm), h.2.symm⟩,
        fun h => ⟨fun m hm => (by cases hm), h.2.symm⟩⟩
  | cons m rest ih =>
      have happend : routes ++ inetEntries (m :: rest) =
          routes ++ inetEntries [m] ++ inetEntries rest := by
        rw [List.append_assoc, inetEntries, inetEntries, inetEntries, ← List.map_append,
          ← List.filter_append, List.singleton_append]
      rw [List.forall_mem_cons, List.forall_mem_cons, happend, isEntry_iff]
      constructor
      · rintro ⟨⟨hm, hrest⟩, next, hvisit, hvisits⟩
        obtain ⟨hreads, hversion, hnext⟩ := dumpVisit_eq_ok.mp hvisit
        cases hnext
        obtain ⟨hentries, hlast⟩ := ih.mp ⟨hrest, hvisits⟩
        exact ⟨⟨⟨hm, hreads, hversion⟩, hentries⟩, hlast⟩
      · rintro ⟨⟨⟨hm, hreads, hversion⟩, hentries⟩, hlast⟩
        obtain ⟨hrest, hvisits⟩ := ih.mpr ⟨hentries, hlast⟩
        exact ⟨⟨hm, hrest⟩, _, dumpVisit_eq_ok.mpr ⟨hreads, hversion, rfl⟩, hvisits⟩

/-- A dump is accepted exactly when it is made of entries, and the result is those for
internet addresses. -/
theorem walk_dumpFormat_eq_ok {bytes : Bytes} {routes : List Snapshot} :
    dumpFormat.walk [] bytes = .ok routes ↔
      ∃ messages, bytes = List.flatten messages ∧ (∀ m ∈ messages, IsEntry m) ∧
        routes = inetEntries messages := by
  constructor
  · intro h
    cases Format.ends_of_walk h with
    | all records last hrecords hvisits hrest hresult =>
        obtain ⟨hentries, hlast⟩ := visits_dumpFormat.mp ⟨hrecords, hvisits⟩
        exact ⟨records, hrest, hentries, hresult.trans hlast⟩
    | early records last record more hrecords hvisits hrecord hrest hvisit =>
        cases (dumpVisit_eq_ok.mp hvisit).2.2
  · rintro ⟨messages, rfl, hentries, rfl⟩
    obtain ⟨hrecords, hvisits⟩ := visits_dumpFormat.mpr ⟨hentries, (List.nil_append _).symm⟩
    exact Format.walk_flatten hrecords hvisits

/-- Three tries end like one: with a list of entries or with an error of the program. -/
theorem dumpRoutes_eq {attempt : Nat → Attempt} {fuel : Nat}
    (hfuel : ∀ i bytes, attempt i = .dumped bytes → bytes.length < fuel) :
    ∃ outcome : Except IoError (List Snapshot), dumpRoutes fuel attempt = lift outcome := by
  have htries : ∀ left, ∃ outcome : Except IoError (List Snapshot),
      dumpRoutes.tries fuel attempt left = lift outcome := by
    intro left
    induction left with
    | zero => exact ⟨.error _, rfl⟩
    | succ left ih =>
        rw [dumpRoutes.tries]
        cases hattempt : attempt (2 - left) with
        | sizeFailed code => exact ⟨.error _, rfl⟩
        | dumpFailed code =>
            by_cases hcode : code = enomem
            · simp only [if_pos hcode]
              exact ih
            · simp only [if_neg hcode]
              exact ⟨.error _, rfl⟩
        | dumped bytes => exact ⟨_, dumpLoop_eq (hfuel _ bytes hattempt)⟩
  exact htries 3

/-! ### All three scans -/

/-- The scans end and read nothing outside of their data, whatever that is.  `exchange`
finds the first reply behind consistent messages, and a dump that is accepted is made of
entries, of which those for internet addresses are returned in order. -/
theorem scans_total (request : Request) (buffer : Bytes) (count : Nat)
    (hcount : count ≤ buffer.length) :
    (∀ fuel, count < fuel → ∃ outcome : Except IoError (Option Bytes),
        scanReplies fuel request buffer count = lift outcome) ∧
      (∀ (bytes : Bytes) (fuel : Nat), bytes.length < fuel →
        ∃ outcome : Except IoError (List Snapshot), dumpLoop fuel bytes = lift outcome) ∧
      (∀ (bytes : Bytes) (head : RtMsghdr), ∃ outcome : Except IoError (List (Option Bytes)),
        addressesAt bytes head = lift outcome) ∧
      (∀ (skipped : List Bytes) (m rest : Bytes) (fuel : Nat), count < fuel →
        buffer.take count = skipped.flatten ++ (m ++ rest) →
        (∀ s ∈ skipped, Consistent request s ∧ ¬ Answers request s) →
        Consistent request m → Answers request m →
        scanReplies fuel request buffer count =
          if errnoOf m ≠ 0 then .error (.error (.os (errnoOf m))) else .ok (some m)) ∧
      ∀ (bytes : Bytes) (fuel : Nat) (routes : List Snapshot), bytes.length < fuel →
        (dumpLoop fuel bytes = .ok routes ↔
          ∃ messages, bytes = List.flatten messages ∧ (∀ m ∈ messages, IsEntry m) ∧
            routes = inetEntries messages) := by
  refine ⟨fun fuel hfuel => ⟨_, scanReplies_eq hcount hfuel⟩,
    fun bytes fuel hfuel => ⟨_, dumpLoop_eq hfuel⟩,
    fun bytes head => ⟨_, addressesAt_eq bytes head⟩, ?_, ?_⟩
  · intro skipped m rest fuel hfuel hbuffer hskipped hm hanswers
    rw [scanReplies_eq hcount hfuel, hbuffer, walk_scanFormat_reply hskipped hm hanswers, lift_ite]
    rfl
  · intro bytes fuel routes hfuel
    rw [dumpLoop_eq hfuel, lift, mapError_eq_ok, walk_dumpFormat_eq_ok]

def getRequest : Request := { operation := 4, pid := 77, sequence := 5 }

/-- A notification that is too short for a header. -/
def notification : Bytes := [8, 0, 5, 12, 0, 0, 0, 0]

def getReply : Bytes :=
  [92, 0, 5, 4] ++ List.replicate 12 0 ++ leBytes 4 77 ++ leBytes 4 5 ++ List.replicate 68 0

/-- An entry of a dump that has a destination only. -/
def dumpEntry (destination : Bytes) : Bytes :=
  leBytes 2 (92 + destination.length) ++ [5, 4] ++ List.replicate 8 0 ++ leBytes 4 1 ++
    List.replicate 76 0 ++ destination

def ipv4Entry : Bytes := dumpEntry ([16, 2, 0, 0, 10, 0, 0, 0] ++ List.replicate 8 0)

def linkEntry : Bytes := dumpEntry (linkAddress 4)

def ipv6Entry : Bytes := dumpEntry ([28, 30] ++ List.replicate 26 0)

theorem getReply_found :
    scanReplies 101 getRequest (notification ++ getReply ++ List.replicate 10 7) 100 =
        .ok (some getReply) ∧
      dumpLoop 400 (ipv4Entry ++ linkEntry ++ ipv6Entry) = .ok [⟨ipv4Entry⟩, ⟨ipv6Entry⟩] := by
  obtain ⟨_, _, _, hreply, hdump⟩ := scans_total getRequest
    (notification ++ getReply ++ List.replicate 10 7) 100 (by decide)
  refine ⟨?_, ?_⟩
  · refine hreply [notification] getReply [] 101 (by decide) (by decide) ?_ ?_ (by decide)
    · intro s hs
      rw [List.mem_singleton.mp hs]
      exact ⟨⟨by decide, by decide, by decide⟩, by decide⟩
    · exact ⟨by decide, by decide, by decide⟩
  · refine (hdump _ 400 _ (by decide +kernel)).mpr
      ⟨[ipv4Entry, linkEntry, ipv6Entry], by decide +kernel, ?_, by decide +kernel⟩
    intro m hm
    simp only [List.mem_cons, List.not_mem_nil, or_false] at hm
    rcases hm with rfl | rfl | rfl
    · exact ⟨⟨_, _, rfl, rfl⟩, by decide, by decide⟩
    · exact ⟨⟨_, _, rfl, rfl⟩, by decide, by decide⟩
    · exact ⟨⟨_, _, rfl, rfl⟩, by decide, by decide⟩

end Macos
end Daemon
end WgKotlin
