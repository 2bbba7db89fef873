import Mathlib.Data.List.Basic

/-!
# Longest match

Of the routes that cover a point, the longest ones.  A table may be searched in
stages, a winner per group and then a winner of the winners, and
`isLongestMatch_of_candidates` says when the staged search still finds a longest
match of the whole table.
-/

namespace WgKotlin
namespace Library

variable {ρ : Type} (covers : ρ → Prop) (length : ρ → Nat)

/-- A route of the table that covers the point and is not shorter than any other
route that does. -/
structure IsLongestMatch (routes : List ρ) (r : ρ) : Prop where
  mem : r ∈ routes
  covered : covers r
  longest : ∀ r' ∈ routes, covers r' → length r' ≤ length r

variable {covers length}

theorem le_of_maxOn?_eq_some {l : List ρ} {r r' : ρ} (h : l.maxOn? length = some r)
    (hr : r' ∈ l) : length r' ≤ length r := by
  have hle := List.le_apply_get_maxOn?_of_mem (f := length) hr
  simpa only [h, Option.get_some] using hle

theorem maxOn?_eq_none_iff {l : List ρ} : l.maxOn? length = none ↔ l = [] := by
  rw [← Option.not_isSome_iff_eq_none, List.isSome_maxOn?_iff, not_not]

/-- A winner among candidates that cover the point, when every covering route is
dominated by a candidate. -/
theorem isLongestMatch_of_candidates {routes candidates : List ρ} {r : ρ}
    (hmem : ∀ c ∈ candidates, c ∈ routes ∧ covers c)
    (hdom : ∀ r' ∈ routes, covers r' → ∃ c ∈ candidates, length r' ≤ length c)
    (h : candidates.maxOn? length = some r) : IsLongestMatch covers length routes r where
  mem := (hmem r (List.maxOn?_mem h)).1
  covered := (hmem r (List.maxOn?_mem h)).2
  longest := by
    intro r' hr' hc
    obtain ⟨c, hc, hle⟩ := hdom r' hr' hc
    exact Nat.le_trans hle (le_of_maxOn?_eq_some h hc)

/-- Two longest matches of one table have one length. -/
theorem IsLongestMatch.length_eq {routes : List ρ} {r r' : ρ}
    (h : IsLongestMatch covers length routes r) (h' : IsLongestMatch covers length routes r') :
    length r = length r' :=
  Nat.le_antisymm (h'.longest r h.mem h.covered) (h.longest r' h'.mem h'.covered)

/-- Where one covering route is longer than all covering routes of other kinds, a
longest match is of its kind. -/
theorem IsLongestMatch.kind (kind : ρ → Prop) {routes : List ρ} {r best : ρ}
    (h : IsLongestMatch covers length routes r) (hmem : best ∈ routes) (hcovers : covers best)
    (hother : ∀ r' ∈ routes, covers r' → ¬ kind r' → length r' < length best) : kind r := by
  by_contra hkind
  have hlt := hother r h.mem h.covered hkind
  have hle := h.longest best hmem hcovers
  omega

/-- A longest match exists as soon as some route covers the point. -/
theorem exists_isLongestMatch_iff {routes : List ρ} :
    (∃ r, IsLongestMatch covers length routes r) ↔ ∃ r ∈ routes, covers r := by
  classical
  constructor
  · intro h
    obtain ⟨r, hr⟩ := h
    exact ⟨r, hr.mem, hr.covered⟩
  · intro h
    obtain ⟨r, hr, hc⟩ := h
    have hmem : r ∈ routes.filter fun r' => decide (covers r') :=
      List.mem_filter.mpr ⟨hr, decide_eq_true hc⟩
    cases hmax : (routes.filter fun r' => decide (covers r')).maxOn? length with
    | none =>
        rw [maxOn?_eq_none_iff.mp hmax] at hmem
        cases hmem
    | some best =>
        refine ⟨best, isLongestMatch_of_candidates ?_ ?_ hmax⟩
        · intro c hc
          exact ⟨List.mem_of_mem_filter hc, of_decide_eq_true (List.mem_filter.mp hc).2⟩
        · intro r' hr' hc'
          exact ⟨r', List.mem_filter.mpr ⟨hr', decide_eq_true hc'⟩, Nat.le_refl _⟩

end Library
end WgKotlin
