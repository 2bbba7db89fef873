import Mathlib.Data.List.Basic

/-!
# Two runs side by side

Two lists of inputs that agree up to hidden ones, and the unwinding rule: a relation
that holds between the states before two inputs that agree, or before a hidden input
of one side, and after them, holds at the end of the runs.
-/

namespace WgKotlin
namespace Library

variable {σ ℓ : Type} {Same : ℓ → ℓ → Prop} {Hidden : ℓ → Prop}

/-- The inputs agree one by one, with hidden ones on either side in between. -/
inductive Aligned (Same : ℓ → ℓ → Prop) (Hidden : ℓ → Prop) : List ℓ → List ℓ → Prop
  | nil : Aligned Same Hidden [] []
  | both {l m : ℓ} {ls ms : List ℓ} (hsame : Same l m) (hrest : Aligned Same Hidden ls ms) :
      Aligned Same Hidden (l :: ls) (m :: ms)
  | left {l : ℓ} {ls ms : List ℓ} (hhidden : Hidden l) (hrest : Aligned Same Hidden ls ms) :
      Aligned Same Hidden (l :: ls) ms
  | right {m : ℓ} {ls ms : List ℓ} (hhidden : Hidden m) (hrest : Aligned Same Hidden ls ms) :
      Aligned Same Hidden ls (m :: ms)

/-- The unwinding rule, for runs whose inputs all meet a condition. -/
theorem unwinding {step : σ → ℓ → σ} {R : σ → σ → Prop} {P : ℓ → Prop}
    (hboth : ∀ s t l m, R s t → P l → P m → Same l m → R (step s l) (step t m))
    (hleft : ∀ s t l, R s t → P l → Hidden l → R (step s l) t)
    (hright : ∀ s t m, R s t → P m → Hidden m → R s (step t m))
    {ls ms : List ℓ} (h : Aligned Same Hidden ls ms) (hls : ∀ l ∈ ls, P l) (hms : ∀ m ∈ ms, P m)
    {s t : σ} (hst : R s t) : R (ls.foldl step s) (ms.foldl step t) := by
  induction h generalizing s t with
  | nil => exact hst
  | both hsame _ ih =>
      refine ih (fun l hl => hls l (List.mem_cons_of_mem _ hl))
        (fun m hm => hms m (List.mem_cons_of_mem _ hm)) ?_
      exact hboth s t _ _ hst (hls _ List.mem_cons_self) (hms _ List.mem_cons_self) hsame
  | left hhidden _ ih =>
      refine ih (fun l hl => hls l (List.mem_cons_of_mem _ hl)) hms ?_
      exact hleft s t _ hst (hls _ List.mem_cons_self) hhidden
  | right hhidden _ ih =>
      refine ih hls (fun m hm => hms m (List.mem_cons_of_mem _ hm)) ?_
      exact hright s t _ hst (hms _ List.mem_cons_self) hhidden

end Library
end WgKotlin
