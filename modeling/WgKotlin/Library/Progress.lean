import Mathlib.Algebra.Order.Ring.Nat
import WgKotlin.Library.Run

/-!
# Systems that come to an end

The parties of a system have steps of their own, and the environment has others.
If in every state there is a step of their own until all is over, and each of
these uses up something that no other step gives back, then no schedule can hold
the system up: it is never stuck, and the number of steps that it still needs is
bounded whatever the environment does in between.
-/

namespace WgKotlin
namespace Library

variable {σ ℓ : Type} {step : σ → ℓ → Option σ}

/-- What is left to do in all, when one of the parties has moved. -/
theorem sum_map_set {α : Type} (f : α → Nat) {parties : List α} {i : Nat} {a : α} (b : α)
    (h : parties[i]? = some a) :
    ((parties.set i b).map f).sum + f a = (parties.map f).sum + f b := by
  induction parties generalizing i with
  | nil => cases h
  | cons c rest ih =>
      cases i with
      | zero =>
          cases h
          simp only [List.set_cons_zero, List.map_cons, List.sum_cons]
          omega
      | succ i =>
          have hrest := ih (i := i) h
          simp only [List.set_cons_succ, List.map_cons, List.sum_cons]
          omega

/-- How many steps of a run are the parties' own. -/
def ownSteps (step : σ → ℓ → Option σ) (own : σ → ℓ → Bool) : σ → List ℓ → Nat
  | _, [] => 0
  | s, l :: rest =>
    match step s l with
    | none => 0
    | some s' => (if own s l then 1 else 0) + ownSteps step own s' rest

theorem ownSteps_cons {own : σ → ℓ → Bool} {s mid : σ} {l : ℓ} {rest : List ℓ}
    (h : step s l = some mid) :
    ownSteps step own s (l :: rest) = (if own s l then 1 else 0) + ownSteps step own mid rest := by
  simp only [ownSteps, h]

/-- Each step of the parties' own uses up some of `left`, until all is over. -/
structure WindsDown (step : σ → ℓ → Option σ) (Inv : σ → Prop) (own : σ → ℓ → Bool)
    (Over : σ → Prop) (left : σ → Nat) : Prop where
  keeps : ∀ {s l s'}, Inv s → step s l = some s' → Inv s'
  ready : ∀ {s}, Inv s → ¬ Over s → ∃ l s', own s l = true ∧ step s l = some s'
  spends : ∀ {s l s'}, Inv s → own s l = true → step s l = some s' → left s' < left s
  waits : ∀ {s l s'}, Inv s → own s l = false → step s l = some s' → left s' ≤ left s

namespace WindsDown

variable {Inv : σ → Prop} {own : σ → ℓ → Bool} {Over : σ → Prop} {left : σ → Nat}

theorem keeps_run (h : WindsDown step Inv own Over left) {s s' : σ} {labels : List ℓ}
    (hs : Inv s) (hrun : run step s labels = some s') : Inv s' :=
  run_invariant (P := fun _ => True) (fun _ _ _ _ hs hstep => h.keeps hs hstep)
    (fun _ _ => trivial) hs hrun

theorem ownSteps_le (h : WindsDown step Inv own Over left) {s s' : σ} {labels : List ℓ}
    (hs : Inv s) (hrun : run step s labels = some s') :
    ownSteps step own s labels + left s' ≤ left s := by
  induction labels generalizing s with
  | nil =>
      cases hrun
      exact Nat.le_of_eq (Nat.zero_add _)
  | cons l rest ih =>
      obtain ⟨mid, hmid, hrest⟩ := run_cons.mp hrun
      have hih := ih (h.keeps hs hmid) hrest
      rw [ownSteps_cons hmid]
      cases hown : own s l with
      | true =>
          have hless := h.spends hs hown hmid
          simp only [if_true]
          omega
      | false =>
          have hle := h.waits hs hown hmid
          simp only [Bool.false_eq_true, if_false]
          omega

/-- Left to itself the system comes to its end, however the choices are made. -/
theorem completes (h : WindsDown step Inv own Over left) {s : σ} (hs : Inv s) :
    ∃ labels s', run step s labels = some s' ∧ ownSteps step own s labels = labels.length ∧
      Over s' := by
  -- By strong induction on what is left.
  induction hn : left s using Nat.strongRecOn generalizing s with
  | ind n ih =>
      by_cases hover : Over s
      · exact ⟨[], s, rfl, rfl, hover⟩
      · obtain ⟨l, mid, hown, hmid⟩ := h.ready hs hover
        have hless : left mid < n := hn ▸ h.spends hs hown hmid
        obtain ⟨labels, s', hrun, hall, hend⟩ := ih (left mid) hless (h.keeps hs hmid) rfl
        refine ⟨l :: labels, s', run_cons.mpr ⟨mid, hmid, hrun⟩, ?_, hend⟩
        rw [ownSteps_cons hmid, hown, hall, List.length_cons, if_pos rfl, Nat.add_comm]

end WindsDown

end Library
end WgKotlin
