import Mathlib.Data.List.Basic

/-!
# Programs that call their environment

A program has ended, or it makes a call and goes on with the answer.  The answers
are left open, so a program stands for all its executions and two programs over
one state can be interleaved call by call.

`Meets` is the weakest precondition of a program under a contract: the calls that
it may make, the answers that it has to expect and what an answered call does to
the state.  It has the rules of a program logic: consequence, sequence, failing
sequence, loops, and a frame rule for what the program does not look at.
-/

namespace WgKotlin
namespace Library

inductive Prog (κ ρ α : Type) : Type where
  | ret (a : α)
  | call (c : κ) (k : ρ → Prog κ ρ α)

structure Contract (κ ρ σ : Type) where
  /-- What an answered call does. -/
  effect : κ → ρ → σ → σ
  Allowed : κ → Prop
  Answer : ρ → Prop

/-- The call is allowed, and no answer to it breaks `I`. -/
def Contract.Keeps {κ ρ σ : Type} (C : Contract κ ρ σ) (I : σ → Prop) (c : κ) : Prop :=
  C.Allowed c ∧ ∀ r s, C.Answer r → I s → I (C.effect c r s)

namespace Prog

variable {κ ρ σ α β ε : Type}

def andThen : Prog κ ρ α → (α → Prog κ ρ β) → Prog κ ρ β
  | .ret a, f => f a
  | .call c k, f => .call c fun r => (k r).andThen f

instance : Monad (Prog κ ρ) where
  pure := .ret
  bind := .andThen

/-- One call, and its answer. -/
def ask (c : κ) : Prog κ ρ ρ := .call c .ret

/-- Every execution makes allowed calls only and ends as `Q` says. -/
def Meets (C : Contract κ ρ σ) (Q : α → σ → Prop) : Prog κ ρ α → σ → Prop
  | .ret a, s => Q a s
  | .call c k, s => C.Allowed c ∧ ∀ r, C.Answer r → (k r).Meets C Q (C.effect c r s)

/-- A postcondition for a program that can fail. -/
def Either (Q : α → σ → Prop) (E : ε → σ → Prop) : Except ε α → σ → Prop
  | .ok a, s => Q a s
  | .error e, s => E e s

variable {C : Contract κ ρ σ} {Q Q' : α → σ → Prop} {p : Prog κ ρ α} {s : σ}

theorem Either.mono {E : ε → σ → Prop} {r : Except ε α} (h : Either Q E r s)
    (hQ : ∀ a, Q a s → Q' a s) : Either Q' E r s := by
  cases r with
  | ok a => exact hQ a h
  | error e => exact h

theorem Meets.mono (h : p.Meets C Q s) (hQ : ∀ a s, Q a s → Q' a s) : p.Meets C Q' s := by
  induction p generalizing s with
  | ret a => exact hQ a s h
  | call c k ih => exact ⟨h.1, fun r hr => ih r (h.2 r hr)⟩

/-- Where every call is allowed, a postcondition that always holds is met. -/
theorem meets_always (hallowed : ∀ c, C.Allowed c) (hQ : ∀ a s, Q a s) : p.Meets C Q s := by
  induction p generalizing s with
  | ret a => exact hQ a s
  | call c k ih => exact ⟨hallowed c, fun r _ => ih r⟩

theorem meets_bind {f : α → Prog κ ρ β} {R : β → σ → Prop} :
    (p >>= f).Meets C R s ↔ p.Meets C (fun a s' => (f a).Meets C R s') s := by
  induction p generalizing s with
  | ret a => exact Iff.rfl
  | call c k ih =>
      exact and_congr_right fun _ => forall_congr' fun r => imp_congr_right fun _ => ih r

/-- What the program and the postcondition do not look at can change. -/
theorem Meets.congr {R : σ → σ → Prop} {t : σ}
    (hR : ∀ c r s t, R s t → R (C.effect c r s) (C.effect c r t))
    (hQ : ∀ a s t, R s t → Q a s → Q a t) (hst : R s t) (h : p.Meets C Q s) :
    p.Meets C Q t := by
  induction p generalizing s t with
  | ret a => exact hQ a s t hst h
  | call c k ih => exact ⟨h.1, fun r hr => ih r (hR c r s t hst) (h.2 r hr)⟩

/-- Sequence: a failure of the first part is the failure of the whole. -/
theorem meets_tryBind {x : ExceptT ε (Prog κ ρ) α} {f : α → ExceptT ε (Prog κ ρ) β}
    {R : β → σ → Prop} {E : ε → σ → Prop} (hx : x.run.Meets C (Either Q E) s)
    (hf : ∀ a s, Q a s → (f a).run.Meets C (Either R E) s) :
    (x >>= f).run.Meets C (Either R E) s := by
  refine meets_bind.mpr (hx.mono fun r s' hr => ?_)
  cases r with
  | ok a => exact hf a s' hr
  | error e => exact hr

/-- A loop that stops at the first failure.  The invariant knows what is done. -/
theorem meets_forM {f : α → ExceptT ε (Prog κ ρ) PUnit} {l : List α} {I : List α → σ → Prop}
    {E : ε → σ → Prop}
    (hbody : ∀ done a s, done ++ [a] ⊆ l → I done s →
      (f a).run.Meets C (Either (fun _ s' => I (done ++ [a]) s') E) s)
    (hstart : I [] s) : (l.forM f).run.Meets C (Either (fun _ s' => I l s') E) s := by
  suffices h : ∀ rest done s, done ++ rest ⊆ l → I done s →
      (List.forM rest f).run.Meets C (Either (fun _ s' => I (done ++ rest) s') E) s from
    h l [] s (List.Subset.refl l) hstart
  intro rest
  induction rest with
  | nil =>
      intro done s _ hI
      rw [List.append_nil]
      exact hI
  | cons a rest ih =>
      intro done s hl hI
      rw [List.append_cons] at hl ⊢
      have hfirst := hbody done a s (fun b hb => hl (List.mem_append_left rest hb)) hI
      exact meets_tryBind hfirst fun _ s' hI' => ih (done ++ [a]) s' hl hI'

/-- A loop with an accumulator. -/
theorem meets_foldlM {f : β → α → Prog κ ρ β} {l : List α} {I : List α → β → σ → Prop} {b : β}
    (hbody : ∀ done a b s, done ++ [a] ⊆ l → I done b s →
      (f b a).Meets C (fun b' s' => I (done ++ [a]) b' s') s)
    (hstart : I [] b s) : (l.foldlM f b).Meets C (fun b' s' => I l b' s') s := by
  suffices h : ∀ rest done b s, done ++ rest ⊆ l → I done b s →
      (List.foldlM f b rest).Meets C (fun b' s' => I (done ++ rest) b' s') s from
    h l [] b s (List.Subset.refl l) hstart
  intro rest
  induction rest with
  | nil =>
      intro done b s _ hI
      rw [List.append_nil]
      exact hI
  | cons a rest ih =>
      intro done b s hl hI
      rw [List.append_cons] at hl ⊢
      rw [List.foldlM_cons]
      have hfirst := hbody done a b s (fun c hc => hl (List.mem_append_left rest hc)) hI
      exact meets_bind.mpr (hfirst.mono fun b' s' hI' => ih (done ++ [a]) b' s' hl hI')

end Prog

end Library
end WgKotlin
