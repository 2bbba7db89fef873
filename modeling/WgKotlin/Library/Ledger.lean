import Mathlib.Data.List.Count

/-!
# Ledgers of resources

A ledger lists the resources that were acquired and those that were released.
It balances against a predicate of ownership if what is owned has not been
released and what was given up has been released exactly once.
-/

namespace WgKotlin
namespace Library

variable {ρ : Type} [DecidableEq ρ]

structure Balanced (owned : ρ → Prop) (acquired released : List ρ) : Prop where
  acquired_of_owned : ∀ r, owned r → r ∈ acquired
  open_of_owned : ∀ r, owned r → released.count r = 0
  once_of_acquired : ∀ r ∈ acquired, ¬ owned r → released.count r = 1
  unknown : ∀ r, r ∉ acquired → released.count r = 0

namespace Balanced

variable {owned owned' : ρ → Prop} {acquired released : List ρ} {r : ρ}

theorem nil : Balanced (fun _ : ρ => False) [] [] where
  acquired_of_owned := fun _ h => h.elim
  open_of_owned := fun _ h => h.elim
  once_of_acquired := fun _ h => (by cases h)
  unknown := fun _ _ => rfl

theorem congr (h : Balanced owned acquired released) (howned : ∀ r, owned r ↔ owned' r) :
    Balanced owned' acquired released := by
  have he : owned = owned' := funext fun r => propext (howned r)
  rw [← he]
  exact h

theorem acquire (h : Balanced owned acquired released) (hr : r ∉ acquired) :
    Balanced (fun x => owned x ∨ x = r) (r :: acquired) released where
  acquired_of_owned := by
    intro x hx
    rcases hx with hx | rfl
    · exact List.mem_cons_of_mem r (h.acquired_of_owned x hx)
    · exact List.mem_cons_self
  open_of_owned := by
    intro x hx
    rcases hx with hx | rfl
    · exact h.open_of_owned x hx
    · exact h.unknown x hr
  once_of_acquired := by
    intro x hx hno
    rw [not_or] at hno
    rcases List.mem_cons.mp hx with rfl | hx
    · exact absurd rfl hno.2
    · exact h.once_of_acquired x hx hno.1
  unknown := by
    intro x hx
    exact h.unknown x fun hmem => hx (List.mem_cons_of_mem r hmem)

theorem release (h : Balanced owned acquired released) (hr : owned r) :
    Balanced (fun x => owned x ∧ x ≠ r) acquired (r :: released) where
  acquired_of_owned := fun x hx => h.acquired_of_owned x hx.1
  open_of_owned := by
    intro x hx
    rw [List.count_cons_of_ne hx.2.symm]
    exact h.open_of_owned x hx.1
  once_of_acquired := by
    intro x hx hno
    by_cases he : x = r
    · subst he
      rw [List.count_cons_self, h.open_of_owned x hr]
    · rw [List.count_cons_of_ne (Ne.symm he)]
      exact h.once_of_acquired x hx fun ho => hno ⟨ho, he⟩
  unknown := by
    intro x hx
    have he : r ≠ x := fun e => hx (e ▸ h.acquired_of_owned r hr)
    rw [List.count_cons_of_ne he]
    exact h.unknown x hx

theorem notMem_released (h : Balanced owned acquired released) (hr : owned r) : r ∉ released :=
  List.count_eq_zero.mp (h.open_of_owned r hr)

end Balanced

end Library
end WgKotlin
