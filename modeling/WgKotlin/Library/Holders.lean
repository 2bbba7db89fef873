import Mathlib.Data.Finset.Basic
import Mathlib.Logic.Function.Basic

/-!
# Exclusive holders

A set of names, each of which is held by exactly one party.  A party takes a name
that is free and gives up the name it holds.
-/

namespace WgKotlin
namespace Library

variable {ι α : Type}

/-- The names that are taken are those that somebody holds, and nobody shares one. -/
structure Holds (held : ι → Option α) (taken : Finset α) : Prop where
  mem_iff : ∀ a, a ∈ taken ↔ ∃ i, held i = some a
  unique : ∀ i j a, held i = some a → held j = some a → i = j

namespace Holds

variable {held : ι → Option α} {taken : Finset α} {i : ι} {a : α}

theorem mem (h : Holds held taken) (hi : held i = some a) : a ∈ taken :=
  (h.mem_iff a).mpr ⟨i, hi⟩

theorem eq_empty (h : Holds held taken) (hnone : ∀ i, held i = none) : taken = ∅ := by
  apply Finset.eq_empty_of_forall_notMem
  intro a ha
  obtain ⟨i, hi⟩ := (h.mem_iff a).mp ha
  rw [hnone i] at hi
  cases hi

variable [DecidableEq ι] [DecidableEq α]

theorem reserve (h : Holds held taken) (hi : held i = none) (ha : a ∉ taken) :
    Holds (Function.update held i (some a)) (insert a taken) := by
  have hother : ∀ j, held j ≠ some a := fun j hj => ha (h.mem hj)
  constructor
  · intro b
    rw [Finset.mem_insert, h.mem_iff]
    constructor
    · intro hb
      rcases hb with rfl | ⟨j, hj⟩
      · exact ⟨i, Function.update_self i (some b) held⟩
      · refine ⟨j, ?_⟩
        rw [Function.update_of_ne, hj]
        intro he
        rw [he, hi] at hj
        cases hj
    · intro hb
      obtain ⟨j, hj⟩ := hb
      by_cases he : j = i
      · rw [he, Function.update_self, Option.some.injEq] at hj
        exact Or.inl hj.symm
      · rw [Function.update_of_ne he] at hj
        exact Or.inr ⟨j, hj⟩
  · intro j k b hj hk
    by_cases hji : j = i
    · by_cases hki : k = i
      · rw [hji, hki]
      · rw [hji, Function.update_self] at hj
        rw [Function.update_of_ne hki] at hk
        exact absurd (hk.trans hj.symm) (hother k)
    · rw [Function.update_of_ne hji] at hj
      by_cases hki : k = i
      · rw [hki, Function.update_self] at hk
        exact absurd (hj.trans hk.symm) (hother j)
      · rw [Function.update_of_ne hki] at hk
        exact h.unique j k b hj hk

theorem release (h : Holds held taken) (hi : held i = some a) :
    Holds (Function.update held i none) (taken.erase a) := by
  constructor
  · intro b
    rw [Finset.mem_erase, h.mem_iff]
    constructor
    · intro hb
      obtain ⟨hne, j, hj⟩ := hb
      refine ⟨j, ?_⟩
      rw [Function.update_of_ne, hj]
      intro he
      rw [he, hi, Option.some.injEq] at hj
      exact hne hj.symm
    · intro hb
      obtain ⟨j, hj⟩ := hb
      by_cases he : j = i
      · rw [he, Function.update_self] at hj
        cases hj
      · rw [Function.update_of_ne he] at hj
        refine ⟨?_, j, hj⟩
        intro hba
        rw [hba] at hj
        exact he (h.unique j i a hj hi)
  · intro j k b hj hk
    have hheld : ∀ l, Function.update held i none l = some b → held l = some b := by
      intro l hl
      by_cases he : l = i
      · rw [he, Function.update_self] at hl
        cases hl
      · rwa [Function.update_of_ne he] at hl
    exact h.unique j k b (hheld j hj) (hheld k hk)

end Holds

end Library
end WgKotlin
