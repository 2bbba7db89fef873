import Mathlib.Data.Nat.ModEq
import Mathlib.Data.List.TakeDrop

/-!
# Numbers in byte strings

Fixed-width numbers in little-endian and big-endian order, and fields of a fixed
width at a fixed offset of a byte string.  A field that was written reads back,
and a field that does not overlap it keeps its value.
-/

namespace WgKotlin
namespace Library

/-! ### Little and big endian -/

/-- The `n` low bytes of a number, least significant first. -/
def leBytes : Nat → Nat → List UInt8
  | 0, _ => []
  | n + 1, v => UInt8.ofNat v :: leBytes n (v / 256)

def ofLeBytes : List UInt8 → Nat
  | [] => 0
  | b :: rest => b.toNat + 256 * ofLeBytes rest

@[simp] theorem length_leBytes (n v : Nat) : (leBytes n v).length = n := by
  induction n generalizing v with
  | zero => rfl
  | succ n ih => rw [leBytes, List.length_cons, ih]

theorem ofLeBytes_leBytes (n v : Nat) : ofLeBytes (leBytes n v) = v % 256 ^ n := by
  induction n generalizing v with
  | zero => rw [leBytes, ofLeBytes, Nat.pow_zero, Nat.mod_one]
  | succ n ih =>
      rw [leBytes, ofLeBytes, ih, UInt8.toNat_ofNat', show (2 : Nat) ^ 8 = 256 from rfl,
        Nat.pow_succ', Nat.mod_mul]

theorem ofLeBytes_lt (bytes : List UInt8) : ofLeBytes bytes < 256 ^ bytes.length := by
  induction bytes with
  | nil => exact Nat.one_pos
  | cons b rest ih =>
      have hb : b.toNat < 256 := b.toNat_lt
      rw [ofLeBytes, List.length_cons, Nat.pow_succ']
      omega

theorem ofLeBytes_append (a b : List UInt8) :
    ofLeBytes (a ++ b) = ofLeBytes a + 256 ^ a.length * ofLeBytes b := by
  induction a with
  | nil => rw [List.nil_append, ofLeBytes, List.length_nil, Nat.pow_zero, Nat.one_mul, Nat.zero_add]
  | cons x xs ih =>
      rw [List.cons_append, ofLeBytes, ofLeBytes, ih, List.length_cons, Nat.pow_succ', Nat.mul_add,
        Nat.mul_assoc, Nat.add_assoc]

/-- Bytes are determined by their number. -/
theorem leBytes_ofLeBytes (bytes : List UInt8) :
    leBytes bytes.length (ofLeBytes bytes) = bytes := by
  induction bytes with
  | nil => rfl
  | cons b rest ih =>
      have hb : b.toNat < 256 := b.toNat_lt
      have hdiv : (b.toNat + 256 * ofLeBytes rest) / 256 = ofLeBytes rest := by omega
      have hlow : UInt8.ofNat (b.toNat + 256 * ofLeBytes rest) = b := by
        apply UInt8.toNat_inj.mp
        rw [UInt8.toNat_ofNat']
        omega
      rw [List.length_cons, ofLeBytes, leBytes, hdiv, ih, hlow]

def beBytes (n v : Nat) : List UInt8 := (leBytes n v).reverse

def ofBeBytes (bytes : List UInt8) : Nat := ofLeBytes bytes.reverse

@[simp] theorem length_beBytes (n v : Nat) : (beBytes n v).length = n := by
  rw [beBytes, List.length_reverse, length_leBytes]

theorem ofBeBytes_beBytes (n v : Nat) : ofBeBytes (beBytes n v) = v % 256 ^ n := by
  rw [ofBeBytes, beBytes, List.reverse_reverse, ofLeBytes_leBytes]

theorem beBytes_ofBeBytes (bytes : List UInt8) :
    beBytes bytes.length (ofBeBytes bytes) = bytes := by
  rw [beBytes, ofBeBytes, ← List.length_reverse, leBytes_ofLeBytes, List.reverse_reverse]

theorem ofBeBytes_lt (bytes : List UInt8) : ofBeBytes bytes < 256 ^ bytes.length := by
  rw [← List.length_reverse]
  exact ofLeBytes_lt bytes.reverse

/-! ### Fields -/

/-- The number in `width` bytes at `offset`. -/
def readField (offset width : Nat) (bytes : List UInt8) : Nat :=
  ofLeBytes ((bytes.drop offset).take width)

/-- Overwrite `width` bytes at `offset`. -/
def writeField (offset width v : Nat) (bytes : List UInt8) : List UInt8 :=
  bytes.take offset ++ leBytes width v ++ bytes.drop (offset + width)

section Fields

variable {offset width v : Nat} {bytes : List UInt8}

theorem readField_lt : readField offset width bytes < 256 ^ width := by
  refine Nat.lt_of_lt_of_le (ofLeBytes_lt _) (Nat.pow_le_pow_right (by omega) ?_)
  rw [List.length_take]
  omega

/-- A field lies in the bytes up to its end. -/
theorem readField_append (h : offset + width ≤ bytes.length) (rest : List UInt8) :
    readField offset width (bytes ++ rest) = readField offset width bytes := by
  rw [readField, readField, List.drop_append_of_le_length (by omega),
    List.take_append_of_le_length (by rw [List.length_drop]; omega)]

theorem readField_take {n : Nat} (h : offset + width ≤ n) :
    readField offset width (bytes.take n) = readField offset width bytes := by
  rw [readField, readField, List.drop_take, List.take_take, Nat.min_eq_left (by omega)]

theorem length_writeField (h : offset + width ≤ bytes.length) :
    (writeField offset width v bytes).length = bytes.length := by
  simp only [writeField, List.length_append, List.length_take, List.length_drop, length_leBytes]
  omega

theorem drop_writeField {m : Nat} (h : offset + width ≤ bytes.length)
    (hm : offset + width ≤ m) : (writeField offset width v bytes).drop m = bytes.drop m := by
  have hlen : (bytes.take offset ++ leBytes width v).length = offset + width := by
    rw [List.length_append, List.length_take, length_leBytes]
    omega
  rw [writeField, List.drop_append, hlen, List.drop_drop,
    List.drop_eq_nil_of_le (by rw [hlen]; exact hm), List.nil_append,
    Nat.add_sub_of_le hm]

theorem take_writeField {m : Nat} (hm : m ≤ offset) (h : offset + width ≤ bytes.length) :
    (writeField offset width v bytes).take m = bytes.take m := by
  rw [writeField, List.append_assoc, List.take_append_of_le_length, List.take_take,
    Nat.min_eq_left hm]
  rw [List.length_take]
  omega

theorem read_writeField_self (h : offset + width ≤ bytes.length) :
    readField offset width (writeField offset width v bytes) = v % 256 ^ width := by
  have htake : (bytes.take offset).length = offset := by
    rw [List.length_take]
    omega
  rw [readField, writeField, List.append_assoc, List.drop_append, htake, Nat.sub_self,
    List.drop_zero, List.drop_eq_nil_of_le (Nat.le_of_eq htake), List.nil_append,
    List.take_append_of_le_length (Nat.le_of_eq (length_leBytes _ _).symm),
    List.take_of_length_le (Nat.le_of_eq (length_leBytes _ _)), ofLeBytes_leBytes]

/-- A field before or behind the one that is written. -/
theorem read_writeField_ne {offset' width' : Nat} (h : offset + width ≤ bytes.length)
    (hne : offset' + width' ≤ offset ∨ offset + width ≤ offset') :
    readField offset' width' (writeField offset width v bytes) =
      readField offset' width' bytes := by
  rcases hne with hne | hne
  · have hcut : ∀ l : List UInt8, (l.drop offset').take width' =
        ((l.take (offset' + width')).drop offset') := by
      intro l
      rw [List.drop_take, Nat.add_sub_cancel_left]
    rw [readField, readField, hcut, hcut, take_writeField hne h]
  · rw [readField, readField, drop_writeField h hne]

/-- Writing back what was read changes nothing. -/
theorem write_readField (h : offset + width ≤ bytes.length) :
    writeField offset width (readField offset width bytes) bytes = bytes := by
  have hlen : ((bytes.drop offset).take width).length = width := by
    rw [List.length_take, List.length_drop]
    omega
  have hfield : leBytes width (readField offset width bytes) = (bytes.drop offset).take width := by
    have hbytes := leBytes_ofLeBytes ((bytes.drop offset).take width)
    rwa [hlen] at hbytes
  rw [writeField, hfield, List.append_assoc, ← List.drop_drop, List.take_append_drop,
    List.take_append_drop]

end Fields

end Library
end WgKotlin
