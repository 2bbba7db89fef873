import Mathlib.Data.List.Basic
import Mathlib.Data.Nat.Bitwise
import WgKotlin.Library.Endian

/-!
# Bits of byte strings

`bits` lists the bits of a byte string most significant first, so a prefix of
length `p` of an address is `(bits address).take p`.  Code compares such
prefixes by whole bytes and one masked byte, and `take_bits_eq_iff` says that
the two agree.
-/

namespace WgKotlin
namespace Library

def byteBits (b : UInt8) : List Bool :=
  (List.range 8).map fun i => b.toNat.testBit (7 - i)

/-- The bits of a byte string, most significant first. -/
def bits (bs : List UInt8) : List Bool := bs.flatMap byteBits

/-- The mask with the `r` high bits of a byte set. -/
def highMask (r : Nat) : Nat := (0xff <<< (8 - r)) &&& 0xff

@[simp] theorem length_byteBits (b : UInt8) : (byteBits b).length = 8 := by
  simp [byteBits]

theorem bits_cons (b : UInt8) (bs : List UInt8) : bits (b :: bs) = byteBits b ++ bits bs := by
  rw [bits, List.flatMap_cons, bits]

theorem testBit_highMask (r j : Nat) :
    (highMask r).testBit j = decide (8 - r ≤ j ∧ j < 8) := by
  have hff : (0xff : Nat) = 2 ^ 8 - 1 := rfl
  rw [highMask, Nat.testBit_and, Nat.testBit_shiftLeft, hff, Nat.testBit_two_pow_sub_one,
    Nat.testBit_two_pow_sub_one]
  by_cases h1 : 8 - r ≤ j
  · by_cases h3 : j < 8
    · have h4 : j - (8 - r) < 8 := by omega
      simp [h1, h3, h4]
    · simp [h3]
  · simp [h1]

theorem getElem?_byteBits (b : UInt8) (i : Nat) :
    (byteBits b)[i]? = if i < 8 then some (b.toNat.testBit (7 - i)) else none := by
  unfold byteBits
  by_cases h : i < 8
  · simp [h]
  · simp [h]

theorem and_eq_and_iff (x y m : Nat) :
    x &&& m = y &&& m ↔ ∀ j, m.testBit j = true → x.testBit j = y.testBit j := by
  constructor
  · intro h j hj
    have hb := congrArg (fun n => Nat.testBit n j) h
    simpa [Nat.testBit_and, hj] using hb
  · intro h
    refine Nat.eq_of_testBit_eq fun j => ?_
    rw [Nat.testBit_and, Nat.testBit_and]
    cases hm : m.testBit j with
    | false => simp
    | true => rw [h j hm]

/-- The first `r` bits of two bytes agree when the bytes agree under the mask of
their `r` high bits. -/
theorem take_byteBits_eq_iff {r : Nat} (hr : r ≤ 8) (a b : UInt8) :
    (byteBits a).take r = (byteBits b).take r ↔
      a.toNat &&& highMask r = b.toNat &&& highMask r := by
  rw [and_eq_and_iff]
  constructor
  · intro h j hj
    rw [testBit_highMask, decide_eq_true_eq] at hj
    have hi := congrArg (fun l => l[7 - j]?) h
    have hlt : 7 - j < r := by omega
    have h8 : 7 - j < 8 := by omega
    simp only [List.getElem?_take, hlt, if_true, getElem?_byteBits, h8, Option.some.injEq] at hi
    have hj7 : 7 - (7 - j) = j := by omega
    rwa [hj7] at hi
  · intro h
    refine List.ext_getElem? fun i => ?_
    by_cases hi : i < r
    · have h8 : i < 8 := by omega
      have hm : (highMask r).testBit (7 - i) = true := by
        rw [testBit_highMask, decide_eq_true_eq]
        omega
      simp only [List.getElem?_take, hi, if_true, getElem?_byteBits, h8, h (7 - i) hm]
    · simp only [List.getElem?_take, hi, if_false]

theorem byteBits_inj {a b : UInt8} (h : byteBits a = byteBits b) : a = b := by
  apply UInt8.toNat_inj.mp
  refine Nat.eq_of_testBit_eq fun j => ?_
  by_cases hj : j < 8
  · have hi := congrArg (fun l => l[7 - j]?) h
    have h8 : 7 - j < 8 := by omega
    have hj7 : 7 - (7 - j) = j := by omega
    simp only [getElem?_byteBits, h8, if_true, Option.some.injEq, hj7] at hi
    exact hi
  · have hp : 2 ^ 8 ≤ 2 ^ j := Nat.pow_le_pow_right (by omega) (by omega)
    rw [Nat.testBit_lt_two_pow (Nat.lt_of_lt_of_le a.toNat_lt hp),
      Nat.testBit_lt_two_pow (Nat.lt_of_lt_of_le b.toNat_lt hp)]

@[simp] theorem highMask_zero : highMask 0 = 0 := rfl

/-- Two byte strings agree on their first `p` bits when they agree on the `p / 8`
whole bytes and, masked, on the byte after them. -/
theorem take_bits_eq_iff {a b : List UInt8} {p : Nat} (ha : p ≤ 8 * a.length)
    (hb : p ≤ 8 * b.length) :
    (bits a).take p = (bits b).take p ↔
      a.take (p / 8) = b.take (p / 8) ∧
        (a.getD (p / 8) 0).toNat &&& highMask (p % 8) =
          (b.getD (p / 8) 0).toNat &&& highMask (p % 8) := by
  induction a generalizing b p with
  | nil =>
      obtain rfl : p = 0 := Nat.le_zero.mp ha
      simp
  | cons x xs ih =>
      cases b with
      | nil =>
          obtain rfl : p = 0 := Nat.le_zero.mp hb
          simp
      | cons y ys =>
          rw [List.length_cons] at ha hb
          by_cases h8 : p < 8
          · have hdiv : p / 8 = 0 := Nat.div_eq_of_lt h8
            have hmod : p % 8 = p := Nat.mod_eq_of_lt h8
            rw [hdiv, hmod, bits_cons, bits_cons,
              List.take_append_of_le_length (by rw [length_byteBits]; omega),
              List.take_append_of_le_length (by rw [length_byteBits]; omega),
              take_byteBits_eq_iff (Nat.le_of_lt h8)]
            simp only [List.take_zero, true_and, List.getD_cons_zero]
          · obtain ⟨q, rfl⟩ : ∃ q, p = q + 8 := ⟨p - 8, by omega⟩
            have hdiv : (q + 8) / 8 = q / 8 + 1 := by omega
            have hmod : (q + 8) % 8 = q % 8 := by omega
            rw [hdiv, hmod, bits_cons, bits_cons]
            have hsplit : ∀ (z : UInt8) (zs : List UInt8),
                (byteBits z ++ bits zs).take (q + 8) = byteBits z ++ (bits zs).take q := by
              intro z zs
              rw [List.take_append, length_byteBits, Nat.add_sub_cancel,
                List.take_of_length_le (by rw [length_byteBits]; omega)]
            rw [hsplit, hsplit]
            simp only [List.take_succ_cons, List.getD_cons_succ, List.cons.injEq]
            rw [and_assoc, ← ih (by omega) (by omega)]
            constructor
            · intro h
              obtain ⟨h1, h2⟩ := List.append_inj h (by simp)
              exact ⟨byteBits_inj h1, h2⟩
            · rintro ⟨rfl, h2⟩
              rw [h2]

/-- Byte strings of one length that agree on all their bits are equal. -/
theorem eq_of_take_bits {a b : List UInt8} (hab : a.length = b.length)
    (h : (bits a).take (8 * a.length) = (bits b).take (8 * a.length)) : a = b := by
  have hbytes := ((take_bits_eq_iff (Nat.le_refl _) (by rw [hab])).mp h).1
  rw [Nat.mul_div_cancel_left _ (by omega), List.take_length, hab, List.take_length] at hbytes
  exact hbytes

/-! ### Bits of the number a byte string stands for -/

@[simp] theorem length_bits (bs : List UInt8) : (bits bs).length = 8 * bs.length := by
  induction bs with
  | nil => rfl
  | cons b bs ih =>
      rw [bits_cons, List.length_append, length_byteBits, ih, List.length_cons]
      omega

theorem ofBeBytes_cons (b : UInt8) (bs : List UInt8) :
    ofBeBytes (b :: bs) = 2 ^ (8 * bs.length) * b.toNat + ofBeBytes bs := by
  have hpow : (256 : Nat) ^ bs.length = 2 ^ (8 * bs.length) := by
    rw [Nat.pow_mul]
  rw [ofBeBytes, List.reverse_cons, ofLeBytes_append, List.length_reverse, ofBeBytes, ← hpow]
  simp only [ofLeBytes, Nat.mul_zero, Nat.add_zero]
  omega

/-- The bits of a byte string are the bits of the number it stands for in
big-endian order. -/
theorem getElem?_bits {bs : List UInt8} {i : Nat} (h : i < 8 * bs.length) :
    (bits bs)[i]? = some ((ofBeBytes bs).testBit (8 * bs.length - 1 - i)) := by
  induction bs generalizing i with
  | nil => cases h
  | cons b bs ih =>
      rw [List.length_cons] at h
      have hlt : ofBeBytes bs < 2 ^ (8 * bs.length) := by
        rw [Nat.pow_mul]
        exact ofBeBytes_lt bs
      rw [bits_cons, ofBeBytes_cons, List.length_cons, Nat.testBit_two_pow_mul_add _ hlt]
      by_cases hi : i < 8
      · have hj : ¬ 8 * (bs.length + 1) - 1 - i < 8 * bs.length := by omega
        have hsub : 8 * (bs.length + 1) - 1 - i - 8 * bs.length = 7 - i := by omega
        rw [List.getElem?_append_left (by rw [length_byteBits]; exact hi), getElem?_byteBits,
          if_pos hi, if_neg hj, hsub]
      · have hj : 8 * (bs.length + 1) - 1 - i < 8 * bs.length := by omega
        have hsub : 8 * (bs.length + 1) - 1 - i = 8 * bs.length - 1 - (i - 8) := by omega
        rw [List.getElem?_append_right (by rw [length_byteBits]; omega), length_byteBits,
          ih (by omega), if_pos hj, hsub]

/-- Two byte strings of one length agree on their first `p` bits when the numbers
they stand for agree above the rest. -/
theorem take_bits_eq_iff_shiftRight {a b : List UInt8} (hab : a.length = b.length) {p : Nat}
    (hp : p ≤ 8 * a.length) :
    (bits a).take p = (bits b).take p ↔
      ofBeBytes a >>> (8 * a.length - p) = ofBeBytes b >>> (8 * a.length - p) := by
  constructor
  · intro h
    refine Nat.eq_of_testBit_eq fun j => ?_
    rw [Nat.testBit_shiftRight, Nat.testBit_shiftRight]
    by_cases hj : j < p
    · have hi := congrArg (fun l => l[p - 1 - j]?) h
      have hlt : p - 1 - j < p := by omega
      have hsub : 8 * b.length - 1 - (p - 1 - j) = 8 * b.length - p + j := by omega
      have hia : p - 1 - j < 8 * a.length := by omega
      have hib : p - 1 - j < 8 * b.length := by omega
      simp only [List.getElem?_take, hlt, if_true, getElem?_bits hia, getElem?_bits hib,
        Option.some.injEq, hab, hsub] at hi
      rw [hab, hi]
    · have hhigh : ∀ c : List UInt8, c.length = a.length →
          (ofBeBytes c).testBit (8 * a.length - p + j) = false := by
        intro c hc
        refine Nat.testBit_lt_two_pow (Nat.lt_of_lt_of_le (ofBeBytes_lt c) ?_)
        rw [hc, show (256 : Nat) = 2 ^ 8 from rfl, ← Nat.pow_mul]
        exact Nat.pow_le_pow_right (by omega) (by omega)
      rw [hhigh a rfl, hhigh b hab.symm]
  · intro h
    refine List.ext_getElem? fun i => ?_
    by_cases hi : i < p
    · have hbit := congrArg (fun n => n.testBit (p - 1 - i)) h
      have hsub : 8 * b.length - p + (p - 1 - i) = 8 * b.length - 1 - i := by omega
      simp only [Nat.testBit_shiftRight, hab, hsub] at hbit
      have hia : i < 8 * a.length := by omega
      have hib : i < 8 * b.length := by omega
      simp only [List.getElem?_take, hi, if_true, getElem?_bits hia, getElem?_bits hib, hab, hbit]
    · simp only [List.getElem?_take, hi, if_false]

end Library
end WgKotlin
