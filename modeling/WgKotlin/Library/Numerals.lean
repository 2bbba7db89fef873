import WgKotlin.Library.Text
import WgKotlin.Library.Except

/-!
# Reading numbers

The value of a text of digits in a base, and a reader that stops when the value
passes a limit.  Such a reader checks every intermediate value, which is the same as
checking the last, since the value never shrinks.
-/

namespace WgKotlin
namespace Library

variable {base limit : Nat} {digit : Char → Nat}

def digitsFrom (base : Nat) (digit : Char → Nat) (acc : Nat) (text : List Char) : Nat :=
  text.foldl (fun n c => base * n + digit c) acc

/-- The value of a text of digits. -/
def digitsValue (base : Nat) (digit : Char → Nat) (text : List Char) : Nat :=
  digitsFrom base digit 0 text

/-- Reads digits one by one, as long as the value stays below the limit. -/
def readBounded {ε : Type} (base limit : Nat) (digit : Char → Except ε Nat) (overflow : ε)
    (text : List Char) : Except ε Nat :=
  text.foldlM (fun n c => do
    let d ← digit c
    if base * n + d < limit then .ok (base * n + d) else .error overflow) 0

/-- The value never shrinks while it is read. -/
theorem le_digitsFrom (hbase : 0 < base) (text : List Char) (acc : Nat) :
    acc ≤ digitsFrom base digit acc text := by
  induction text generalizing acc with
  | nil => exact Nat.le_refl acc
  | cons c rest ih =>
      have hfirst : acc ≤ base * acc + digit c :=
        Nat.le_trans (Nat.le_mul_of_pos_left acc hbase) (Nat.le_add_right _ _)
      exact Nat.le_trans hfirst (ih _)

theorem readBounded_eq {ε : Type} {overflow : ε} {read : Char → Except ε Nat} {text : List Char}
    (hbase : 0 < base) (hlimit : 0 < limit) (hread : ∀ c ∈ text, read c = .ok (digit c)) :
    readBounded base limit read overflow text =
      if digitsValue base digit text < limit then .ok (digitsValue base digit text)
      else .error overflow := by
  have hfrom : ∀ acc, acc < limit → text.foldlM (fun n c => do
        let d ← read c
        if base * n + d < limit then .ok (base * n + d) else .error overflow) acc =
      if digitsFrom base digit acc text < limit then .ok (digitsFrom base digit acc text)
      else .error overflow := by
    induction text with
    | nil =>
        intro acc hacc
        rw [digitsFrom, List.foldl_nil, if_pos hacc]
        rfl
    | cons c rest ih =>
        intro acc _
        obtain ⟨hc, hrest⟩ := List.forall_mem_cons.mp hread
        rw [List.foldlM_cons, hc, ok_bind]
        by_cases hfits : base * acc + digit c < limit
        · rw [if_pos hfits, ok_bind]
          exact ih hrest _ hfits
        · have hgrow : base * acc + digit c ≤ digitsFrom base digit acc (c :: rest) :=
            le_digitsFrom hbase rest _
          rw [if_neg hfits, if_neg (by omega)]
          rfl
  exact hfrom 0 hlimit

theorem digitsFrom_append (acc : Nat) (a b : List Char) :
    digitsFrom base digit acc (a ++ b) = digitsFrom base digit (digitsFrom base digit acc a) b := by
  rw [digitsFrom, List.foldl_append, digitsFrom, digitsFrom]

/-- The digits of a number have its value. -/
theorem digitsValue_toDigits (hbase : 1 < base)
    (hdigit : ∀ k < base, digit (Nat.digitChar k) = k) (n : Nat) :
    digitsValue base digit (Nat.toDigits base n) = n := by
  induction n using Nat.strongRecOn with
  | ind n ih =>
      by_cases hn : n < base
      · rw [Nat.toDigits_of_lt_base hn, digitsValue, digitsFrom, List.foldl_cons, List.foldl_nil,
          hdigit n hn, Nat.mul_zero, Nat.zero_add]
      · have hdiv := ih (n / base) (Nat.div_lt_self (by omega) hbase)
        rw [digitsValue] at hdiv
        rw [Nat.toDigits_of_base_le hbase (Nat.le_of_not_lt hn), digitsValue, digitsFrom_append,
          hdiv, digitsFrom, List.foldl_cons, List.foldl_nil, hdigit _ (Nat.mod_lt n (by omega)),
          Nat.div_add_mod]

theorem decimal_toDigits (n : Nat) :
    digitsValue 10 (fun c => c.toNat - '0'.toNat) (Nat.toDigits 10 n) = n := by
  refine digitsValue_toDigits (by omega) (fun k hk => ?_) n
  rw [Nat.toNat_digitChar_of_lt_ten hk]
  exact Nat.add_sub_cancel_left 48 k

/-- The digits of a positive number do not begin with a zero. -/
theorem head?_toDigits_ne_zero (hbase : 1 < base) (hbase16 : base ≤ 16) {n : Nat} (hn : 0 < n) :
    (Nat.toDigits base n).head? ≠ some '0' := by
  induction n using Nat.strongRecOn with
  | ind n ih =>
      by_cases hlt : n < base
      · rw [Nat.toDigits_of_lt_base hlt, List.head?_cons]
        intro h
        have hzero := digitChar_inj n (by omega) 0 (by omega) (Option.some.inj h)
        omega
      · have hdiv : 0 < n / base := Nat.div_pos (Nat.le_of_not_lt hlt) (by omega)
        rw [Nat.toDigits_of_base_le hbase (Nat.le_of_not_lt hlt),
          List.head?_append_of_ne_nil _ Nat.toDigits_ne_nil]
        exact ih (n / base) (Nat.div_lt_self hn hbase) hdiv

end Library
end WgKotlin
