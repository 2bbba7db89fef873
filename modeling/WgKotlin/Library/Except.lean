import Mathlib.Data.List.Forall2

/-!
# Computations that can fail

Inversion rules for `Except`: what a computation that ended well has done.
-/

namespace WgKotlin
namespace Library

variable {ε α β : Type}

@[simp] theorem ok_bind (a : α) (f : α → Except ε β) : (Except.ok a >>= f) = f a := rfl

theorem bind_eq_ok {x : Except ε α} {f : α → Except ε β} {b : β} :
    (x >>= f) = .ok b ↔ ∃ a, x = .ok a ∧ f a = .ok b := by
  constructor
  · intro h
    cases x with
    | error e => cases h
    | ok a => exact ⟨a, rfl, h⟩
  · intro h
    obtain ⟨a, rfl, hf⟩ := h
    exact hf

theorem bind_eq_error {x : Except ε α} {f : α → Except ε β} {e : ε} :
    (x >>= f) = .error e ↔ x = .error e ∨ ∃ a, x = .ok a ∧ f a = .error e := by
  constructor
  · intro h
    cases x with
    | error e' => exact Or.inl (congrArg Except.error (Except.error.inj h))
    | ok a => exact Or.inr ⟨a, rfl, h⟩
  · rintro (rfl | ⟨a, rfl, hf⟩)
    · rfl
    · exact hf

/-- Rewording the failure does not change what succeeds. -/
theorem mapError_eq_ok {ε' : Type} {x : Except ε α} {f : ε → ε'} {a : α} :
    x.mapError f = .ok a ↔ x = .ok a := by
  cases x with
  | error e => exact ⟨fun h => (by cases h), fun h => (by cases h)⟩
  | ok b => exact ⟨fun h => (by cases h; rfl), fun h => (by cases h; rfl)⟩

/-- Apply a fallible function to each element, from left to right, and stop at
the first failure. -/
def mapAll (f : α → Except ε β) : List α → Except ε (List β)
  | [] => .ok []
  | a :: rest => do
    let b ← f a
    let bs ← mapAll f rest
    .ok (b :: bs)

theorem mapAll_eq_ok {f : α → Except ε β} {l : List α} {r : List β} :
    mapAll f l = .ok r ↔ List.Forall₂ (fun a b => f a = .ok b) l r := by
  induction l generalizing r with
  | nil =>
      rw [mapAll, Except.ok.injEq, List.forall₂_nil_left_iff]
      exact eq_comm
  | cons a rest ih =>
      rw [mapAll, bind_eq_ok]
      constructor
      · intro h
        obtain ⟨b, hb, h⟩ := h
        obtain ⟨bs, hbs, h⟩ := bind_eq_ok.mp h
        cases h
        exact List.Forall₂.cons hb (ih.mp hbs)
      · intro h
        cases h with
        | cons hb hbs => exact ⟨_, hb, bind_eq_ok.mpr ⟨_, ih.mpr hbs, rfl⟩⟩

theorem exists_left_of_forall₂ {R : α → β → Prop} {l : List α} {m : List β}
    (h : List.Forall₂ R l m) {b : β} (hb : b ∈ m) : ∃ a ∈ l, R a b := by
  induction h with
  | nil => cases hb
  | cons hab _ ih =>
      rcases List.mem_cons.mp hb with rfl | hb
      · exact ⟨_, List.mem_cons_self, hab⟩
      · obtain ⟨a, ha, hr⟩ := ih hb
        exact ⟨a, List.mem_cons_of_mem _ ha, hr⟩

/-- The results of `mapAll` are the results on its elements. -/
theorem mem_mapAll {f : α → Except ε β} {l : List α} {r : List β} (h : mapAll f l = .ok r)
    {b : β} : b ∈ r ↔ ∃ a ∈ l, f a = .ok b := by
  have hall := mapAll_eq_ok.mp h
  constructor
  · exact exists_left_of_forall₂ hall
  · intro hb
    obtain ⟨a, ha, hfa⟩ := hb
    obtain ⟨b', hb', hfb'⟩ := exists_left_of_forall₂ hall.flip ha
    rw [hfa, Except.ok.injEq] at hfb'
    rw [hfb']
    exact hb'

theorem exists_of_mapAll {f : α → Except ε β} {l : List α} {r : List β} (h : mapAll f l = .ok r)
    {a : α} (ha : a ∈ l) : ∃ b, f a = .ok b := by
  obtain ⟨b, _, hb⟩ := exists_left_of_forall₂ (mapAll_eq_ok.mp h).flip ha
  exact ⟨b, hb⟩

theorem exists_mapAll {f : α → Except ε β} {l : List α} (h : ∀ a ∈ l, ∃ b, f a = .ok b) :
    ∃ r, mapAll f l = .ok r := by
  induction l with
  | nil => exact ⟨[], rfl⟩
  | cons a rest ih =>
      obtain ⟨b, hb⟩ := h a List.mem_cons_self
      obtain ⟨bs, hbs⟩ := ih fun a' ha' => h a' (List.mem_cons_of_mem a ha')
      refine ⟨b :: bs, ?_⟩
      rw [mapAll, hb, hbs]
      rfl

/-- A function that does not fail on a list maps it. -/
theorem mapAll_of_ok {f : α → Except ε β} {g : α → β} {l : List α}
    (h : ∀ a ∈ l, f a = .ok (g a)) : mapAll f l = .ok (l.map g) := by
  rw [mapAll_eq_ok, List.forall₂_map_right_iff, List.forall₂_same]
  exact h

/-- Run a check on each element and its index, and stop at the first failure. -/
def eachFrom (check : Nat → α → Except ε Unit) (index : Nat) : List α → Except ε Unit
  | [] => .ok ()
  | a :: rest => do
    check index a
    eachFrom check (index + 1) rest

/-- If success does not depend on the index, all elements pass. -/
theorem eachFrom_eq_ok {check : Nat → α → Except ε Unit} {P : α → Prop}
    (hcheck : ∀ i a, check i a = .ok () ↔ P a) {index : Nat} {l : List α} :
    eachFrom check index l = .ok () ↔ ∀ a ∈ l, P a := by
  induction l generalizing index with
  | nil => exact ⟨fun _ a ha => (by cases ha), fun _ => rfl⟩
  | cons a rest ih =>
      rw [eachFrom, bind_eq_ok, List.forall_mem_cons, ← ih, ← hcheck index a]
      constructor
      · intro h
        obtain ⟨_, ha, hrest⟩ := h
        exact ⟨ha, hrest⟩
      · intro h
        exact ⟨(), h.1, h.2⟩

/-- Keep the elements that a fallible test accepts. -/
def filterAll (p : α → Except ε Bool) : List α → Except ε (List α)
  | [] => .ok []
  | a :: rest => do
    let keep ← p a
    let kept ← filterAll p rest
    .ok (if keep then a :: kept else kept)

theorem filterAll_of_ok {p : α → Except ε Bool} {q : α → Bool} {l : List α}
    (h : ∀ a ∈ l, p a = .ok (q a)) : filterAll p l = .ok (l.filter q) := by
  induction l with
  | nil => rfl
  | cons a rest ih =>
      rw [filterAll, h a List.mem_cons_self,
        ih fun b hb => h b (List.mem_cons_of_mem a hb), List.filter_cons]
      rfl

end Library
end WgKotlin
