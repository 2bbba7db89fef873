import Mathlib.Data.List.TakeDrop

/-!
# Bounded pipes

A pipe is all that was ever written to it and how much of that has been taken out.
What is between the two fits into its buffer.  The end of a pipe is reached when it has
no writers and nothing is left in it.
-/

namespace WgKotlin
namespace Library

variable {α : Type} {capacity : Nat}

structure Pipe (α : Type) (capacity : Nat) where
  written : List α
  taken : Nat
  /-- there is no writer left -/
  closed : Bool
  taken_le : taken ≤ written.length
  fits : written.length ≤ taken + capacity

namespace Pipe

theorem none_taken (α : Type) : 0 ≤ ([] : List α).length := Nat.le_refl 0

theorem nothing_fits (α : Type) (capacity : Nat) : ([] : List α).length ≤ 0 + capacity :=
  Nat.zero_le (0 + capacity)

def empty (α : Type) (capacity : Nat) : Pipe α capacity where
  written := []
  taken := 0
  closed := false
  taken_le := none_taken α
  fits := nothing_fits α capacity

def buffer (p : Pipe α capacity) : List α := p.written.drop p.taken

def consumed (p : Pipe α capacity) : List α := p.written.take p.taken

/-- A write that does not fit has to wait. -/
def put (p : Pipe α capacity) (items : List α) : Option (Pipe α capacity) :=
  if h : p.closed = false ∧ p.written.length + items.length ≤ p.taken + capacity then
    some {
      written := p.written ++ items
      taken := p.taken
      closed := p.closed
      taken_le := by
        have hle := p.taken_le
        rw [List.length_append]
        omega
      fits := by
        rw [List.length_append]
        exact h.2 }
  else none

/-- Read some of what is there. -/
def take (p : Pipe α capacity) (n : Nat) : Option (List α × Pipe α capacity) :=
  if h : 0 < n ∧ p.taken + n ≤ p.written.length then
    some (p.buffer.take n, {
      written := p.written
      taken := p.taken + n
      closed := p.closed
      taken_le := h.2
      fits := by
        have hfits := p.fits
        omega })
  else none

def close (p : Pipe α capacity) : Pipe α capacity := { p with closed := true }

def atEnd (p : Pipe α capacity) : Bool := p.closed && decide (p.taken = p.written.length)

theorem length_buffer (p : Pipe α capacity) : p.buffer.length = p.written.length - p.taken := by
  rw [buffer, List.length_drop]

/-- At the end of a pipe all that was written has been taken out. -/
theorem consumed_of_atEnd {p : Pipe α capacity} (h : p.atEnd = true) :
    p.closed = true ∧ p.consumed = p.written := by
  rw [atEnd, Bool.and_eq_true, decide_eq_true_eq] at h
  refine ⟨h.1, ?_⟩
  rw [consumed, h.2, List.take_length]

section Operations

variable {p p' : Pipe α capacity} {items : List α} {n : Nat}

theorem put_eq_some (h : p.put items = some p') :
    p.closed = false ∧ p'.closed = false ∧ p'.written = p.written ++ items ∧
      p'.consumed = p.consumed := by
  unfold put at h
  split at h
  next hroom =>
    cases h
    refine ⟨hroom.1, hroom.1, rfl, ?_⟩
    exact List.take_append_of_le_length p.taken_le
  next => cases h

theorem take_eq_some (h : p.take n = some (items, p')) :
    0 < n ∧ p'.closed = p.closed ∧ p'.written = p.written ∧ p'.consumed = p.consumed ++ items ∧
      p'.buffer.length + n = p.buffer.length := by
  unfold take at h
  split at h
  next hroom =>
    cases h
    refine ⟨hroom.1, rfl, rfl, ?_, ?_⟩
    · show p.written.take (p.taken + n) = p.written.take p.taken ++ (p.written.drop p.taken).take n
      rw [List.take_add]
    · show (p.written.drop (p.taken + n)).length + n = (p.written.drop p.taken).length
      rw [List.length_drop, List.length_drop]
      omega
  next => cases h

theorem exists_take (h : p.buffer ≠ []) : ∃ items p', p.take 1 = some (items, p') := by
  have hlength : 0 < p.buffer.length := List.length_pos_iff.mpr h
  rw [length_buffer] at hlength
  unfold take
  rw [dif_pos ⟨Nat.one_pos, by omega⟩]
  exact ⟨_, _, rfl⟩

theorem atEnd_of_closed (hclosed : p.closed = true) (hempty : p.buffer = []) : p.atEnd = true := by
  have hlength : p.written.length - p.taken = 0 := by
    rw [← length_buffer, hempty, List.length_nil]
  have hle := p.taken_le
  rw [atEnd, hclosed, Bool.true_and, decide_eq_true_eq]
  omega

end Operations

end Pipe
end Library
end WgKotlin
