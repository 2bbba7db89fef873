import Mathlib.Data.Option.Basic

/-!
# Runs of labelled step functions

A system is a step function that takes a state and a label, and returns nothing
if the label is not enabled there.  A label says which party moves and what the
environment answers, so a list of labels determines a run.
-/

namespace WgKotlin
namespace Library

variable {σ ℓ : Type} {step : σ → ℓ → Option σ}

/-- The state after a list of labels, if each was enabled in its turn. -/
def run (step : σ → ℓ → Option σ) : σ → List ℓ → Option σ
  | s, [] => some s
  | s, l :: rest =>
    match step s l with
    | none => none
    | some s' => run step s' rest

def Reachable (step : σ → ℓ → Option σ) (start s : σ) : Prop :=
  ∃ labels, run step start labels = some s

theorem run_cons {s s' : σ} {l : ℓ} {rest : List ℓ} :
    run step s (l :: rest) = some s' ↔
      ∃ mid, step s l = some mid ∧ run step mid rest = some s' := by
  cases h : step s l with
  | none => simp [run, h]
  | some mid => simp [run, h]

theorem run_append {s s' : σ} {front back : List ℓ} :
    run step s (front ++ back) = some s' ↔
      ∃ mid, run step s front = some mid ∧ run step mid back = some s' := by
  induction front generalizing s with
  | nil =>
      rw [List.nil_append]
      constructor
      · intro h
        exact ⟨s, rfl, h⟩
      · intro h
        obtain ⟨mid, hmid, h⟩ := h
        cases hmid
        exact h
  | cons l rest ih =>
      rw [List.cons_append, run_cons]
      constructor
      · intro h
        obtain ⟨mid, hstep, hrest⟩ := h
        obtain ⟨mid', hfront, hback⟩ := ih.mp hrest
        exact ⟨mid', run_cons.mpr ⟨mid, hstep, hfront⟩, hback⟩
      · intro h
        obtain ⟨mid', hfront, hback⟩ := h
        obtain ⟨mid, hstep, hrest⟩ := run_cons.mp hfront
        exact ⟨mid, hstep, ih.mpr ⟨mid', hrest, hback⟩⟩

/-- Every step of the run meets a condition on its state and its label. -/
def Along (step : σ → ℓ → Option σ) (C : σ → ℓ → Prop) : σ → List ℓ → Prop
  | _, [] => True
  | s, l :: rest =>
    C s l ∧
      match step s l with
      | none => True
      | some s' => Along step C s' rest

instance decidableAlong {C : σ → ℓ → Prop} [∀ s l, Decidable (C s l)] :
    ∀ s labels, Decidable (Along step C s labels)
  | _, [] => isTrue trivial
  | s, l :: rest =>
    match h : step s l with
    | none => decidable_of_iff (C s l) (by simp [Along, h])
    | some s' =>
      have := decidableAlong (C := C) s' rest
      decidable_of_iff (C s l ∧ Along step C s' rest) (by simp [Along, h])

/-- The invariant rule for such runs. -/
theorem along_invariant {P : ℓ → Prop} {C : σ → ℓ → Prop} {I : σ → Prop}
    (hstep : ∀ s l s', P l → C s l → I s → step s l = some s' → I s')
    {s s' : σ} {labels : List ℓ} (hlabels : ∀ l ∈ labels, P l) (hs : I s)
    (halong : Along step C s labels) (hrun : run step s labels = some s') : I s' := by
  induction labels generalizing s with
  | nil =>
      cases hrun
      exact hs
  | cons l rest ih =>
      obtain ⟨mid, hmid, hrest⟩ := run_cons.mp hrun
      obtain ⟨hl, hmore⟩ := halong
      rw [hmid] at hmore
      have hmid' : I mid := hstep s l mid (hlabels l List.mem_cons_self) hl hs hmid
      exact ih (fun l' hl' => hlabels l' (List.mem_cons_of_mem l hl')) hmid' hmore hrest

theorem along_true : ∀ (s : σ) (labels : List ℓ), Along step (fun _ _ => True) s labels
  | _, [] => trivial
  | s, l :: rest => by
    refine ⟨trivial, ?_⟩
    cases step s l with
    | none => trivial
    | some s' => exact along_true s' rest

/-- The invariant rule.  The step may use that its label is one of the run. -/
theorem run_invariant {P : ℓ → Prop} {I : σ → Prop}
    (hstep : ∀ s l s', P l → I s → step s l = some s' → I s')
    {s s' : σ} {labels : List ℓ} (hlabels : ∀ l ∈ labels, P l) (hs : I s)
    (hrun : run step s labels = some s') : I s' :=
  along_invariant (C := fun _ _ => True) (fun s l s' hl _ => hstep s l s' hl) hlabels hs
    (along_true s labels) hrun

theorem reachable_invariant {I : σ → Prop} {start : σ} (hstart : I start)
    (hstep : ∀ s l s', I s → step s l = some s' → I s') {s : σ}
    (hs : Reachable step start s) : I s := by
  obtain ⟨labels, hrun⟩ := hs
  exact run_invariant (P := fun _ => True) (fun s l s' _ => hstep s l s') (fun _ _ => trivial)
    hstart hrun

theorem Reachable.run {start s s' : σ} (hs : Reachable step start s) {labels : List ℓ}
    (hrun : run step s labels = some s') : Reachable step start s' := by
  obtain ⟨front, hfront⟩ := hs
  exact ⟨front ++ labels, run_append.mpr ⟨s, hfront, hrun⟩⟩

theorem Reachable.next {start s s' : σ} {l : ℓ} (hs : Reachable step start s)
    (hstep : step s l = some s') : Reachable step start s' :=
  hs.run (run_cons.mpr ⟨s', hstep, rfl⟩ : Library.run step s [l] = some s')

/-- The invariant rule where a step may use that it starts in a reachable state. -/
theorem reachable_induction {I : σ → Prop} {start : σ} (hstart : I start)
    (hstep : ∀ s l s', Reachable step start s → I s → step s l = some s' → I s') {s : σ}
    (hs : Reachable step start s) : I s := by
  have hboth : Reachable step start s ∧ I s := by
    refine reachable_invariant (I := fun s => Reachable step start s ∧ I s)
      ⟨⟨[], rfl⟩, hstart⟩ ?_ hs
    intro s l s' h hl
    exact ⟨h.1.next hl, hstep s l s' h.1 h.2 hl⟩
  exact hboth.2

end Library
end WgKotlin
