import WgKotlin.Daemon.Validation
import WgKotlin.Library.Endian

/-!
# Routing messages of macOS

The byte layout that `endpoint_macos.rs` reads and writes: a header of 92 bytes,
then one socket address for each bit of `rtm_addrs`, padded to a multiple of
four.  Numbers are little-endian, as on every machine that macOS runs on.
-/

namespace WgKotlin
namespace Daemon
namespace Macos

open Proto Library

/-- `std::io::Error`, with a message or with a code of the system. -/
inductive IoError
  | other (message : String)
  | os (code : Int32)
  deriving DecidableEq, Repr

/-! ### The header -/

def headerSize : Nat := 92

/-- The memory of a `libc::rt_msghdr`. -/
structure RtMsghdr where
  bytes : Bytes
  size : bytes.length = headerSize
  deriving DecidableEq

/-- A field of the header, by offset and width. -/
structure HeaderField where
  offset : Nat
  width : Nat
  within : offset + width ≤ headerSize

namespace HeaderField

def get (f : HeaderField) (head : RtMsghdr) : Nat := readField f.offset f.width head.bytes

/-- `field!(bytes, name, value)` -/
def set (f : HeaderField) (v : Nat) (head : RtMsghdr) : RtMsghdr where
  bytes := writeField f.offset f.width v head.bytes
  size := by
    have h := f.within
    rw [length_writeField (by rw [head.size]; exact h), head.size]

theorem get_lt (f : HeaderField) (head : RtMsghdr) : f.get head < 256 ^ f.width := readField_lt

theorem get_set_self (f : HeaderField) (v : Nat) (head : RtMsghdr) :
    f.get (f.set v head) = v % 256 ^ f.width :=
  read_writeField_self (by rw [head.size]; exact f.within)

theorem get_set_of_lt {f : HeaderField} {v : Nat} (h : v < 256 ^ f.width) (head : RtMsghdr) :
    f.get (f.set v head) = v := by
  rw [get_set_self, Nat.mod_eq_of_lt h]

theorem get_set_ne {f g : HeaderField}
    (h : f.offset + f.width ≤ g.offset ∨ g.offset + g.width ≤ f.offset) (v : Nat)
    (head : RtMsghdr) : f.get (g.set v head) = f.get head :=
  read_writeField_ne (by rw [head.size]; exact g.within) h

/-- Writing what a field holds changes nothing. -/
theorem set_of_get {f : HeaderField} {v : Nat} {head : RtMsghdr} (h : f.get head = v) :
    f.set v head = head := by
  have hbytes : (f.set v head).bytes = head.bytes := by
    rw [← h]
    exact write_readField (by rw [head.size]; exact f.within)
  cases head with
  | mk bytes size =>
      show RtMsghdr.mk _ _ = RtMsghdr.mk _ _
      congr

end HeaderField

def rtmMsglen : HeaderField := { offset := 0, width := 2, within := by decide }
def rtmVersion : HeaderField := { offset := 2, width := 1, within := by decide }
def rtmType : HeaderField := { offset := 3, width := 1, within := by decide }
def rtmIndex : HeaderField := { offset := 4, width := 2, within := by decide }
def rtmFlags : HeaderField := { offset := 8, width := 4, within := by decide }
def rtmAddrs : HeaderField := { offset := 12, width := 4, within := by decide }
def rtmErrno : HeaderField := { offset := 24, width := 4, within := by decide }
def rtmInits : HeaderField := { offset := 32, width := 4, within := by decide }
/-- `rtm_rmx`, all the metrics -/
def rtmRmx : HeaderField := { offset := 36, width := 56, within := by decide }
/-- `rtm_rmx.rmx_mtu` -/
def rmxMtu : HeaderField := { offset := 40, width := 4, within := by decide }
/-- `rtm_rmx.rmx_hopcount` -/
def rmxHopcount : HeaderField := { offset := 44, width := 4, within := by decide }

/-- `rtm_errno` as the signed number that it is. -/
def RtMsghdr.errno (head : RtMsghdr) : Int32 := (UInt32.ofNat (rtmErrno.get head)).toInt32

/-- `vec![0; size_of::<rt_msghdr>()]` -/
def zeroHeader : RtMsghdr where
  bytes := List.replicate headerSize 0
  size := List.length_replicate

/-- `header(bytes)` -/
def header (bytes : Bytes) : Except IoError RtMsghdr :=
  if h : bytes.length < headerSize then .error (.other "truncated routing message")
  else .ok { bytes := bytes.take headerSize, size := by rw [List.length_take]; omega }

theorem header_append (head : RtMsghdr) (rest : Bytes) :
    header (head.bytes ++ rest) = .ok head := by
  have hlen : ¬ (head.bytes ++ rest).length < headerSize := by
    rw [List.length_append, head.size]
    omega
  rw [header, dif_neg hlen, Except.ok.injEq]
  obtain ⟨bytes, size⟩ := head
  simp only [RtMsghdr.mk.injEq]
  rw [← size, List.take_left']
  rfl

/-! ### Constants -/

inductive Operation
  | add
  | delete
  | get
  deriving DecidableEq, Repr

/-- `RTM_ADD`, `RTM_DELETE` and `RTM_GET` -/
def Operation.code : Operation → Nat
  | .add => 1
  | .delete => 2
  | .get => 4

def rtmVersionNumber : Nat := 5

def rtfUp : Nat := 0x1
def rtfGateway : Nat := 0x2
def rtfHost : Nat := 0x4
def rtfReject : Nat := 0x8
def rtfDone : Nat := 0x40
def rtfStatic : Nat := 0x800
def rtfBlackhole : Nat := 0x1000
def rtfIfscope : Nat := 0x1000000
def rtfCondemned : Nat := 0x2000000
def rtfIfref : Nat := 0x4000000
def rtfProxy : Nat := 0x8000000
def rtfDead : Nat := 0x20000000

def rtaxDst : Nat := 0
def rtaxGateway : Nat := 1
def rtaxNetmask : Nat := 2
def rtaxIfp : Nat := 4
def rtaxIfa : Nat := 5
def rtaxMax : Nat := 8

/-- `RTA_DST` and its like: the bit of a slot. -/
def rta (slot : Nat) : Nat := 1 <<< slot

def rtvMtu : Nat := 0x1
def rtvHopcount : Nat := 0x2
/-- All eight metrics that a route can be given. -/
def rtvAll : Nat := 0xff

def afInet : UInt8 := 2
def afInet6 : UInt8 := 30
def afLink : UInt8 := 18

/-! ### Socket addresses -/

/-- `address.len().max(4).next_multiple_of(4)` -/
def paddedLength (length : Nat) : Nat := (max length 4 + 3) / 4 * 4

theorem le_paddedLength (length : Nat) : length ≤ paddedLength length := by
  unfold paddedLength
  omega

/-- What `append` adds to the payload. -/
def padded (address : Bytes) : Bytes :=
  address ++ List.replicate (paddedLength address.length - address.length) 0

theorem length_padded (address : Bytes) :
    (padded address).length = paddedLength address.length := by
  have h := le_paddedLength address.length
  rw [padded, List.length_append, List.length_replicate]
  omega

def ipAddress (ip : IpAddr) : Bytes :=
  match ip.family with
  | .v4 => [16, afInet, 0, 0] ++ ip.octets ++ List.replicate 8 0
  | .v6 => [28, afInet6, 0, 0, 0, 0, 0, 0] ++ ip.octets ++ List.replicate 4 0

/-- `link_address(index)` -/
def linkAddress (index : Nat) : Bytes :=
  [20, afLink] ++ leBytes 2 index ++ List.replicate 16 0

/-- A socket address begins with its own length. -/
def IsSockaddr (address : Bytes) : Prop := address.length = (address.headD 0).toNat

/-- A socket address of one of the two internet families. -/
def IsIpSockaddr (address : Bytes) : Prop :=
  IsSockaddr address ∧ (address[1]? = some afInet ∨ address[1]? = some afInet6)

theorem isSockaddr_linkAddress (index : Nat) : IsSockaddr (linkAddress index) := by
  simp [IsSockaddr, linkAddress]

theorem isIpSockaddr_ipAddress (ip : IpAddr) : IsIpSockaddr (ipAddress ip) := by
  have hsize := ip.size
  unfold IsIpSockaddr IsSockaddr ipAddress
  cases hf : ip.family with
  | v4 =>
      rw [hf] at hsize
      refine ⟨?_, Or.inl rfl⟩
      simp [hsize, Family.size]
  | v6 =>
      rw [hf] at hsize
      refine ⟨?_, Or.inr rfl⟩
      simp [hsize, Family.size]

/-! ### Slots -/

/-- The loop of `addresses`, for `count` slots from `index` on. -/
def readSlots (addrs index : Nat) : Nat → Bytes → Except IoError (List (Option Bytes))
  | 0, _ => .ok []
  | count + 1, rest =>
    if addrs.testBit index then
      match rest with
      | [] => .error (.other "missing route address")
      | length :: _ =>
        if rest.length < paddedLength length.toNat then
          .error (.other "truncated route address")
        else do
          let slots ← readSlots addrs (index + 1) count (rest.drop (paddedLength length.toNat))
          .ok (some (rest.take length.toNat) :: slots)
    else do
      let slots ← readSlots addrs (index + 1) count rest
      .ok (none :: slots)

/-- `addresses(bytes, header)` -/
def addresses (bytes : Bytes) (head : RtMsghdr) : Except IoError (List (Option Bytes)) :=
  readSlots (rtmAddrs.get head) 0 rtaxMax (bytes.drop headerSize)

/-- The slots that are present, one after another. -/
def encodeSlots : List (Option Bytes) → Bytes
  | [] => []
  | none :: rest => encodeSlots rest
  | some address :: rest => padded address ++ encodeSlots rest

/-- `addrs |= 1 << index` for each slot that is present. -/
def slotMask (index : Nat) : List (Option Bytes) → Nat
  | [] => 0
  | none :: rest => slotMask (index + 1) rest
  | some _ :: rest => (1 <<< index) ||| slotMask (index + 1) rest

theorem testBit_one_shiftLeft (i j : Nat) : (1 <<< i).testBit j = decide (i = j) := by
  rw [Nat.one_shiftLeft, Nat.testBit_two_pow]

theorem testBit_slotMask_of_lt {index j : Nat} (h : j < index) (slots : List (Option Bytes)) :
    (slotMask index slots).testBit j = false := by
  induction slots generalizing index with
  | nil => exact Nat.zero_testBit j
  | cons slot rest ih =>
      have hrest := ih (Nat.lt_succ_of_lt h)
      cases slot with
      | none => exact hrest
      | some address =>
          have hne : ¬ index = j := by omega
          rw [slotMask, Nat.testBit_or, hrest, testBit_one_shiftLeft, decide_eq_false hne]
          rfl

/-- The bits of the mask are the slots that are present. -/
theorem testBit_slotMask (index j : Nat) (slots : List (Option Bytes)) :
    (slotMask index slots).testBit (index + j) = ((slots[j]?).join).isSome := by
  induction slots generalizing index j with
  | nil => exact Nat.zero_testBit _
  | cons slot rest ih =>
      cases j with
      | zero =>
          have hlow := testBit_slotMask_of_lt (Nat.lt_succ_self index) rest
          cases slot with
          | none => exact hlow
          | some address =>
              rw [slotMask, Nat.testBit_or, Nat.add_zero, testBit_one_shiftLeft, decide_eq_true rfl]
              rfl
      | succ j =>
          have hrest := ih (index + 1) j
          rw [Nat.add_right_comm, Nat.add_assoc] at hrest
          rw [List.getElem?_cons_succ, ← hrest]
          cases slot with
          | none => rfl
          | some address =>
              have hne : ¬ index = index + (j + 1) := by omega
              rw [slotMask, Nat.testBit_or, testBit_one_shiftLeft, decide_eq_false hne,
                Bool.false_or]

theorem slotMask_lt (index : Nat) (slots : List (Option Bytes)) :
    slotMask index slots < 2 ^ (index + slots.length) := by
  induction slots generalizing index with
  | nil => exact Nat.two_pow_pos _
  | cons slot rest ih =>
      have hrest := ih (index + 1)
      have hlen : index + 1 + rest.length = index + (slot :: rest).length := by
        rw [List.length_cons]
        omega
      rw [hlen] at hrest
      cases slot with
      | none => exact hrest
      | some address =>
          refine Nat.or_lt_two_pow ?_ hrest
          rw [Nat.one_shiftLeft]
          exact Nat.pow_lt_pow_right (by omega) (by rw [List.length_cons]; omega)

/-- Slots that are written read back. -/
theorem readSlots_encodeSlots {addrs index : Nat} {slots : List (Option Bytes)} {rest : Bytes}
    (hbits : ∀ j < slots.length, addrs.testBit (index + j) = ((slots[j]?).join).isSome)
    (hslots : ∀ address, some address ∈ slots → IsSockaddr address) :
    readSlots addrs index slots.length (encodeSlots slots ++ rest) = .ok slots := by
  induction slots generalizing index with
  | nil => rfl
  | cons slot tail ih =>
      have hbit := hbits 0 (Nat.succ_pos _)
      have htail := @ih (index + 1)
        (fun j hj => by
          have h := hbits (j + 1) (Nat.succ_lt_succ hj)
          rw [List.getElem?_cons_succ] at h
          rw [← h]
          congr 1
          omega)
        (fun address h => hslots address (List.mem_cons_of_mem slot h))
      rw [Nat.add_zero] at hbit
      cases slot with
      | none =>
          have habsent : addrs.testBit index = false := hbit
          rw [List.length_cons, readSlots.eq_def]
          simp only [habsent, Bool.false_eq_true, if_false]
          show (readSlots addrs (index + 1) tail.length (encodeSlots tail ++ rest) >>= _) = _
          rw [htail]
          rfl
      | some address =>
          have hself : address.length = (address.headD 0).toNat :=
            hslots address List.mem_cons_self
          have hstart : ∃ length more, encodeSlots (some address :: tail) ++ rest = length :: more ∧
              length.toNat = address.length := by
            cases address with
            | nil => exact ⟨0, _, rfl, rfl⟩
            | cons b bs => exact ⟨b, _, rfl, hself.symm⟩
          obtain ⟨length, more, hcons, hlength⟩ := hstart
          have hwhole : encodeSlots (some address :: tail) ++ rest =
              padded address ++ (encodeSlots tail ++ rest) := List.append_assoc _ _ _
          have hshort : ¬ (length :: more).length < paddedLength length.toNat := by
            rw [← hcons, hwhole, List.length_append, length_padded, hlength]
            omega
          have hdrop : (length :: more).drop (paddedLength length.toNat) =
              encodeSlots tail ++ rest := by
            rw [← hcons, hwhole, hlength, ← length_padded, List.drop_left]
          have htake : (length :: more).take length.toNat = address := by
            rw [← hcons, hwhole, hlength, padded, List.append_assoc, List.take_left]
          have hpresent : addrs.testBit index = true := hbit
          rw [hcons, List.length_cons, readSlots.eq_def]
          simp only [hpresent, if_true, if_neg hshort]
          rw [hdrop, htail, htake]
          rfl

/-- What `addresses` returns: one slot for each index, each a socket address. -/
theorem readSlots_spec {addrs index count : Nat} {rest : Bytes} {slots : List (Option Bytes)}
    (h : readSlots addrs index count rest = .ok slots) :
    slots.length = count ∧ ∀ address, some address ∈ slots → IsSockaddr address := by
  induction count generalizing index rest slots with
  | zero =>
      cases h
      exact ⟨rfl, fun address ha => (by cases ha)⟩
  | succ count ih =>
      rw [readSlots.eq_def] at h
      simp only at h
      split at h
      · split at h
        · cases h
        next length more =>
          split at h
          · cases h
          next hlong =>
            obtain ⟨tail, htail, h⟩ := bind_eq_ok.mp h
            cases h
            obtain ⟨hlen, haddresses⟩ := ih htail
            refine ⟨by rw [List.length_cons, hlen], fun address ha => ?_⟩
            rcases List.mem_cons.mp ha with ha | ha
            · rw [Option.some.injEq] at ha
              subst ha
              have hle := le_paddedLength length.toNat
              unfold IsSockaddr
              rw [List.length_take, Nat.min_eq_left (by omega)]
              cases hn : length.toNat with
              | zero => rfl
              | succ n =>
                  rw [List.take_succ_cons, List.headD_cons, hn]
            · exact haddresses address ha
      · obtain ⟨tail, htail, h⟩ := bind_eq_ok.mp h
        cases h
        obtain ⟨hlen, haddresses⟩ := ih htail
        refine ⟨by rw [List.length_cons, hlen], fun address ha => ?_⟩
        rcases List.mem_cons.mp ha with ha | ha
        · cases ha
        · exact haddresses address ha

/-- A message that is put together from a header and slots reads as those. -/
theorem addresses_append {head : RtMsghdr} {slots : List (Option Bytes)}
    (hlen : slots.length = rtaxMax) (haddrs : rtmAddrs.get head = slotMask 0 slots)
    (hslots : ∀ address, some address ∈ slots → IsSockaddr address) :
    addresses (head.bytes ++ encodeSlots slots) head = .ok slots := by
  have hdrop : (head.bytes ++ encodeSlots slots).drop headerSize = encodeSlots slots ++ [] := by
    rw [← head.size, List.drop_left, List.append_nil]
  rw [addresses, hdrop, haddrs, ← hlen]
  refine readSlots_encodeSlots (fun j _ => ?_) hslots
  exact testBit_slotMask 0 j slots

/-- Slots never make a message too long for `rtm_msglen`. -/
theorem length_encodeSlots_le {slots : List (Option Bytes)}
    (hslots : ∀ address, some address ∈ slots → IsSockaddr address) :
    (encodeSlots slots).length ≤ 256 * slots.length := by
  induction slots with
  | nil => exact Nat.le_refl 0
  | cons slot rest ih =>
      have hrest := ih fun address h => hslots address (List.mem_cons_of_mem slot h)
      cases slot with
      | none =>
          rw [encodeSlots, List.length_cons]
          omega
      | some address =>
          have hself : address.length = (address.headD 0).toNat :=
            hslots address List.mem_cons_self
          have hbyte : (address.headD 0).toNat < 256 := (address.headD 0).toNat_lt
          have hpad : paddedLength address.length ≤ 256 := by
            unfold paddedLength
            omega
          rw [encodeSlots, List.length_append, length_padded, List.length_cons]
          omega

end Macos
end Daemon
end WgKotlin
