import Mathlib.Data.List.Basic

/-!
# Layers over one cell

Several parties overwrite one cell in turn.  Each keeps what it found there and
puts it back when it leaves, which may bring a value back in a normal form.  As
long as they leave in reverse order the values that they keep form a stack, and
`Stacked` is the invariant of that stack.
-/

namespace WgKotlin
namespace Library

variable {ν : Type} {normal : ν → Option ν}

/-- What one party keeps, and what it has put in its place. -/
structure Layer (ν : Type) where
  previous : Option ν
  stored : ν

/-- The value is there as it was, or in its normal form. -/
def Settled (normal : ν → Option ν) (base v : Option ν) : Prop :=
  v = base ∨ ∃ x y, base = some x ∧ normal x = some y ∧ v = some y

/-- The layers over a cell, the lowest first: each keeps the value of the one below
it, and the cell holds the value of the last. -/
def Stacked (normal : ν → Option ν) : Option ν → List (Layer ν) → Option ν → Prop
  | base, [], current => Settled normal base current
  | base, layer :: rest, current =>
    Settled normal base layer.previous ∧ normal layer.stored = some layer.stored ∧
      Stacked normal (some layer.stored) rest current

theorem Settled.eq_of_normal {x : ν} {v : Option ν} (hx : normal x = some x)
    (h : Settled normal (some x) v) : v = some x := by
  rcases h with h | ⟨y, z, hy, hz, hv⟩
  · exact h
  · cases hy
    rw [hv, ← hz, hx]

section Idempotent

variable (hidem : ∀ v w, normal v = some w → normal w = some w)

include hidem

theorem Settled.trans {base v v' : Option ν} (h : Settled normal base v)
    (h' : Settled normal v v') : Settled normal base v' := by
  rcases h with rfl | ⟨x, y, hx, hy, hv⟩
  · exact h'
  · rw [hv] at h'
    have hv' := Settled.eq_of_normal (hidem x y hy) h'
    exact Or.inr ⟨x, y, hx, hy, hv'⟩

/-- Putting the value of the cell back in its normal form keeps the stack. -/
theorem Stacked.settle {base v v' : Option ν} {layers : List (Layer ν)}
    (h : Stacked normal base layers v) (hv : Settled normal v v') :
    Stacked normal base layers v' := by
  induction layers generalizing base with
  | nil => exact Settled.trans hidem h hv
  | cons layer rest ih => exact ⟨h.1, h.2.1, ih h.2.2⟩

end Idempotent

theorem Stacked.push {base v : Option ν} {layers : List (Layer ν)} {x : ν}
    (h : Stacked normal base layers v) (hx : normal x = some x) :
    Stacked normal base (layers ++ [{ previous := v, stored := x }]) (some x) := by
  induction layers generalizing base with
  | nil => exact ⟨h, hx, Or.inl rfl⟩
  | cons layer rest ih => exact ⟨h.1, h.2.1, ih h.2.2⟩

/-- The cell holds what the last party has put there, and that party keeps the
value of the stack below. -/
theorem Stacked.pop {base v : Option ν} {layers : List (Layer ν)} {last : Layer ν}
    (h : Stacked normal base (layers ++ [last]) v) :
    v = some last.stored ∧ Stacked normal base layers last.previous := by
  induction layers generalizing base with
  | nil => exact ⟨Settled.eq_of_normal h.2.1 h.2.2, h.1⟩
  | cons layer rest ih =>
      obtain ⟨hv, hrest⟩ := ih h.2.2
      exact ⟨hv, h.1, h.2.1, hrest⟩

theorem Stacked.isSome {base v : Option ν} {layers : List (Layer ν)}
    (h : Stacked normal base layers v) (hne : layers ≠ []) : v.isSome = true := by
  rcases List.eq_nil_or_concat layers with hnil | ⟨front, last, hlast⟩
  · exact absurd hnil hne
  · rw [hlast, List.concat_eq_append] at h
    rw [h.pop.1]
    rfl

end Library
end WgKotlin
