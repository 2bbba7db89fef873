import Mathlib.Data.Fintype.Basic

/-!
# Processes and their numbers

A process runs, exits, and is waited for; its number is given to another process
afterwards and not before.  A history says how far each process has come at each
time.  Who holds a number at one time and runs at a later one has held it in between,
so nobody else has.
-/

namespace WgKotlin
namespace Library

inductive Stage
  | unborn
  | running
  | zombie
  | reaped
  deriving DecidableEq, Repr

namespace Stage

def rank : Stage → Nat
  | unborn => 0
  | running => 1
  | zombie => 2
  | reaped => 3

/-- The process has a number. -/
def isPresent : Stage → Bool
  | running | zombie => true
  | unborn | reaped => false

theorem isPresent_iff {stage : Stage} :
    stage.isPresent = true ↔ 1 ≤ stage.rank ∧ stage.rank ≤ 2 := by
  cases stage <;> decide

end Stage

/-- What has become of some processes.  No two of them have one number at one time. -/
structure History where
  count : Nat
  pid : Fin count → Nat
  stage : Fin count → Nat → Stage
  monotone : ∀ i s t, s ≤ t → (stage i s).rank ≤ (stage i t).rank
  exclusive : ∀ i j t, pid i = pid j → (stage i t).isPresent = true →
    (stage j t).isPresent = true → i = j

namespace History

variable (h : History) {i j : Fin h.count} {s t u pid : Nat}

/-- The process that has a number at some time. -/
def holder (t pid : Nat) : Option (Fin h.count) :=
  (List.finRange h.count).find? fun i => h.pid i == pid && (h.stage i t).isPresent

theorem holder_eq_some :
    h.holder t pid = some i ↔ h.pid i = pid ∧ (h.stage i t).isPresent = true := by
  constructor
  · intro hfind
    have hsome := List.find?_some hfind
    simpa only [Bool.and_eq_true, beq_iff_eq] using hsome
  · intro hi
    obtain ⟨hpid, hpresent⟩ := hi
    have hfound : (h.holder t pid).isSome = true := by
      rw [holder, List.find?_isSome]
      exact ⟨i, List.mem_finRange i, by simp [hpid, hpresent]⟩
    obtain ⟨j, hj⟩ := Option.isSome_iff_exists.mp hfound
    have hsome := List.find?_some hj
    simp only [Bool.and_eq_true, beq_iff_eq] at hsome
    rw [hj, h.exclusive j i t (hsome.1.trans hpid.symm) hsome.2 hpresent]

theorem present_between (hst : s ≤ t) (htu : t ≤ u) (hs : (h.stage i s).isPresent = true)
    (hu : (h.stage i u).isPresent = true) : (h.stage i t).isPresent = true := by
  have hfirst := h.monotone i s t hst
  have hlast := h.monotone i t u htu
  rw [Stage.isPresent_iff] at hs hu ⊢
  omega

theorem isPresent_of_running (hi : h.stage i t = .running) : (h.stage i t).isPresent = true := by
  rw [hi]
  rfl

/-- Who had the number while a process had it is that process. -/
theorem eq_of_present (hst : s ≤ t) (htu : t ≤ u) (hpid : h.pid j = h.pid i)
    (hs : (h.stage i s).isPresent = true) (hu : (h.stage i u).isPresent = true)
    (hj : (h.stage j t).isPresent = true) : j = i :=
  h.exclusive j i t hpid hj (h.present_between hst htu hs hu)

end History
end Library
end WgKotlin
