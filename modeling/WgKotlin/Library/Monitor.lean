import WgKotlin.Library.Run
import Mathlib.Data.List.Count

/-!
# Threads that share a monitor

Any number of threads run one code over shared memory, and a thread is the place
in the code where it stands.  Some places lie in a section that is synchronized on
the monitor: a thread enters one only while no thread is in one.  The rule of this
file is the usual one for monitors: an invariant that holds whenever nobody is in a
section, and for each place in a section an assertion that holds while a thread
stands there.
-/

namespace WgKotlin
namespace Library

variable {σ π α ν : Type}

structure Threads (σ π : Type) where
  shared : σ
  places : List π

/-- What a thread does at each place.  The answer is what the environment returns. -/
structure ThreadCode (σ π α : Type) where
  entry : π → Bool
  inside : π → Bool
  act : σ → π → α → Option (σ × π)

inductive ThreadMove (π α : Type)
  | spawn (place : π)
  | act (i : Nat) (answer : α)

namespace Threads

def spawn (s : Threads σ π) (place : π) : Threads σ π := { s with places := s.places ++ [place] }

def move (s : Threads σ π) (i : Nat) (shared : σ) (place : π) : Threads σ π where
  shared := shared
  places := s.places.set i place

/-- How many threads stand at a place of the kind. -/
def tally (kind : π → Bool) (s : Threads σ π) : Nat := s.places.countP kind

variable {s : Threads σ π} {i : Nat} {place : π} {kind : π → Bool}

theorem tally_spawn (kind : π → Bool) (s : Threads σ π) (place : π) :
    (s.spawn place).tally kind = s.tally kind + (kind place).toNat := by
  cases h : kind place <;> simp [tally, spawn, List.countP_append, h]

theorem tally_pos (h : s.places[i]? = some place) (hkind : kind place = true) :
    0 < s.tally kind :=
  List.countP_pos_iff.mpr ⟨place, List.mem_of_getElem? h, hkind⟩

theorem tally_eq_zero : s.tally kind = 0 ↔ ∀ place ∈ s.places, kind place = false := by
  simp only [tally, List.countP_eq_zero, Bool.not_eq_true]

/-- The other threads stay where they are. -/
theorem exists_others (h : s.places[i]? = some place) :
    ∃ before after, s.places = before ++ place :: after ∧
      ∀ shared place', (s.move i shared place').places = before ++ place' :: after := by
  obtain ⟨hi, rfl⟩ := List.getElem?_eq_some_iff.mp h
  refine ⟨s.places.take i, s.places.drop (i + 1), ?_, fun shared place' => ?_⟩
  · rw [List.getElem_cons_drop, List.take_append_drop]
  · rw [move, List.set_eq_take_append_cons_drop, if_pos hi]

/-- A move counts for the place that it leaves and for the place that it reaches. -/
theorem tally_move (kind : π → Bool) (h : s.places[i]? = some place) (shared : σ) (place' : π) :
    (s.move i shared place').tally kind + (kind place).toNat =
      s.tally kind + (kind place').toNat := by
  obtain ⟨before, after, hbefore, hafter⟩ := exists_others h
  rw [tally, tally, hafter, hbefore, List.countP_append, List.countP_append, List.countP_cons,
    List.countP_cons]
  cases kind place <;> cases kind place' <;> simp <;> omega

end Threads

namespace ThreadCode

def step (code : ThreadCode σ π α) (s : Threads σ π) : ThreadMove π α → Option (Threads σ π)
  | .spawn place => if code.entry place then some (s.spawn place) else none
  | .act i answer =>
    match s.places[i]? with
    | none => none
    | some place =>
      match code.act s.shared place answer with
      | none => none
      | some (shared, place') =>
        if !code.inside place && code.inside place' && s.places.any code.inside then none
        else some (s.move i shared place')

variable {code : ThreadCode σ π α} {s s' : Threads σ π}

theorem step_spawn {place : π} (h : code.step s (.spawn place) = some s') :
    code.entry place = true ∧ s' = s.spawn place := by
  unfold step at h
  simp only at h
  split at h
  next hentry => exact ⟨hentry, (Option.some.inj h).symm⟩
  · cases h

/-- A thread goes from one place to another and leaves the shared memory as given. -/
structure Moves (code : ThreadCode σ π α) (s : Threads σ π) (i : Nat) (place : π) (shared : σ)
    (place' : π) : Prop where
  stands : s.places[i]? = some place
  acts : ∃ answer, code.act s.shared place answer = some (shared, place')

theorem step_act {i : Nat} {answer : α} (h : code.step s (.act i answer) = some s') :
    ∃ place shared place', code.Moves s i place shared place' ∧
      (code.inside place = false → code.inside place' = true → s.tally code.inside = 0) ∧
      s' = s.move i shared place' := by
  unfold step at h
  simp only at h
  split at h
  · cases h
  next place hplace =>
    split at h
    · cases h
    next shared place' hact =>
      split at h
      · cases h
      next hfree =>
        refine ⟨place, shared, place', ⟨hplace, answer, hact⟩, fun hout hin => ?_,
          (Option.some.inj h).symm⟩
        rw [hout, hin, Bool.not_false, Bool.and_self, Bool.true_and, Bool.not_eq_true,
          List.any_eq_false] at hfree
        exact Threads.tally_eq_zero.mpr fun q hq => Bool.eq_false_iff.mpr (hfree q hq)

/-! ### Proof outlines -/

/-- What a view of the state satisfies while the monitor is free, and what it
satisfies while a thread stands at a place inside. -/
structure Outline (code : ThreadCode σ π α) (view : Threads σ π → ν) (Free : ν → Prop)
    (At : π → ν → Prop) : Prop where
  entry_outside : ∀ place, code.entry place = true → code.inside place = false
  spawn : ∀ s place, code.entry place = true → view (s.spawn place) = view s
  outside : ∀ {s i place shared place'}, code.Moves s i place shared place' →
    code.inside place = false → code.inside place' = false →
    (Free (view s) → Free (view (s.move i shared place'))) ∧
      ∀ other, At other (view s) → At other (view (s.move i shared place'))
  enter : ∀ {s i place shared place'}, code.Moves s i place shared place' →
    code.inside place = false → code.inside place' = true →
    Free (view s) → At place' (view (s.move i shared place'))
  within : ∀ {s i place shared place'}, code.Moves s i place shared place' →
    code.inside place = true → code.inside place' = true →
    At place (view s) → At place' (view (s.move i shared place'))
  leave : ∀ {s i place shared place'}, code.Moves s i place shared place' →
    code.inside place = true → code.inside place' = false →
    At place (view s) → Free (view (s.move i shared place'))

/-- At most one thread is inside.  The invariant holds if nobody is, and the
assertion of its place if somebody is. -/
structure Holds (code : ThreadCode σ π α) (view : Threads σ π → ν) (Free : ν → Prop)
    (At : π → ν → Prop) (s : Threads σ π) : Prop where
  exclusive : s.tally code.inside ≤ 1
  free : s.tally code.inside = 0 → Free (view s)
  inside : ∀ place ∈ s.places, code.inside place = true → At place (view s)

variable {view : Threads σ π → ν} {Free : ν → Prop} {At : π → ν → Prop}

theorem Outline.holds_spawn (h : code.Outline view Free At) {place : π}
    (hs : code.Holds view Free At s) (hentry : code.entry place = true) :
    code.Holds view Free At (s.spawn place) := by
  have hout := h.entry_outside place hentry
  have htally : (s.spawn place).tally code.inside = s.tally code.inside := by
    rw [Threads.tally_spawn, hout, Bool.toNat_false, Nat.add_zero]
  refine ⟨htally ▸ hs.exclusive, fun hzero => ?_, fun other hother hin => ?_⟩
  · rw [h.spawn s place hentry]
    exact hs.free (htally ▸ hzero)
  · rw [h.spawn s place hentry]
    rcases List.mem_append.mp hother with hother | hother
    · exact hs.inside other hother hin
    · rw [List.mem_singleton.mp hother, hout] at hin
      cases hin

/-- While one thread is inside, the others are outside. -/
theorem outside_of_others {before after : List π} {place : π}
    (hplaces : s.places = before ++ place :: after)
    (htally : s.tally code.inside ≤ (code.inside place).toNat) :
    ∀ other ∈ before ++ after, code.inside other = false := by
  have hcount : (before ++ after).countP code.inside = 0 := by
    rw [Threads.tally, hplaces, List.countP_append, List.countP_cons] at htally
    rw [List.countP_append]
    cases hin : code.inside place with
    | false =>
        rw [hin, Bool.toNat_false, if_neg Bool.false_ne_true] at htally
        omega
    | true =>
        rw [hin, Bool.toNat_true, if_pos rfl] at htally
        omega
  intro other hother
  exact Bool.eq_false_iff.mpr (List.countP_eq_zero.mp hcount other hother)

/-- While the other threads are outside, it is enough to look at one place. -/
theorem holds_of_others {before after : List π} {place : π}
    (hplaces : s.places = before ++ place :: after)
    (hothers : ∀ other ∈ before ++ after, code.inside other = false)
    (hin : code.inside place = true → At place (view s))
    (hout : code.inside place = false → Free (view s)) : code.Holds view Free At s := by
  have hcount : (before ++ after).countP code.inside = 0 :=
    List.countP_eq_zero.mpr fun other hother => Bool.eq_false_iff.mp (hothers other hother)
  have htally : s.tally code.inside = (code.inside place).toNat := by
    rw [List.countP_append] at hcount
    rw [Threads.tally, hplaces, List.countP_append, List.countP_cons, ← Nat.add_assoc, hcount,
      Nat.zero_add]
    cases code.inside place <;> rfl
  refine ⟨htally ▸ Bool.toNat_le _, fun hzero => hout ?_, fun other hother hinside => ?_⟩
  · rw [htally] at hzero
    exact Bool.toNat_eq_zero.mp hzero
  · rw [hplaces, List.mem_append, List.mem_cons] at hother
    by_cases hsame : other = place
    · subst hsame
      exact hin hinside
    · rw [hothers other (List.mem_append.mpr (by tauto))] at hinside
      cases hinside

theorem Outline.holds_move (h : code.Outline view Free At) {i : Nat} {place place' : π}
    {shared : σ} (hs : code.Holds view Free At s) (hmove : code.Moves s i place shared place')
    (hfree : code.inside place = false → code.inside place' = true →
      s.tally code.inside = 0) : code.Holds view Free At (s.move i shared place') := by
  obtain ⟨before, after, hbefore, hafter⟩ := Threads.exists_others hmove.stands
  by_cases hplace : code.inside place = true
  · have hat := hs.inside place (List.mem_of_getElem? hmove.stands) hplace
    have hothers := outside_of_others hbefore (by rw [hplace]; exact hs.exclusive)
    exact holds_of_others (hafter shared place') hothers
      (fun hplace' => h.within hmove hplace hplace' hat)
      (fun hplace' => h.leave hmove hplace hplace' hat)
  rw [Bool.not_eq_true] at hplace
  by_cases hplace' : code.inside place' = true
  · have hzero := hfree hplace hplace'
    have hothers := outside_of_others hbefore (by rw [hzero]; exact Nat.zero_le _)
    refine holds_of_others (hafter shared place') hothers
      (fun _ => h.enter hmove hplace hplace' (hs.free hzero)) fun hout => ?_
    rw [hplace'] at hout
    cases hout
  -- a move outside does not change who is inside
  · rw [Bool.not_eq_true] at hplace'
    obtain ⟨hkeep, hkeepAt⟩ := h.outside hmove hplace hplace'
    have htally := Threads.tally_move code.inside hmove.stands shared place'
    rw [hplace, hplace', Bool.toNat_false, Nat.add_zero, Nat.add_zero] at htally
    refine ⟨htally ▸ hs.exclusive, fun hzero => hkeep (hs.free (htally ▸ hzero)),
      fun other hother hin => hkeepAt other (hs.inside other ?_ hin)⟩
    rw [hafter, List.mem_append, List.mem_cons] at hother
    rw [hbefore, List.mem_append, List.mem_cons]
    rcases hother with hother | rfl | hother
    · exact Or.inl hother
    · rw [hplace'] at hin
      cases hin
    · exact Or.inr (Or.inr hother)

/-- The rule for monitors: an outline holds in every state that is reached. -/
theorem Outline.holds (h : code.Outline view Free At) {start : Threads σ π}
    (hnobody : start.places = []) (hstart : Free (view start)) {s : Threads σ π}
    (hs : Reachable code.step start s) : code.Holds view Free At s := by
  have hholds : code.Holds view Free At start := by
    refine ⟨?_, fun _ => hstart, fun place hplace => ?_⟩
    · rw [Threads.tally, hnobody]
      exact Nat.zero_le 1
    · rw [hnobody] at hplace
      cases hplace
  refine reachable_invariant hholds (fun s l s' hs hstep => ?_) hs
  cases l with
  | spawn place =>
      obtain ⟨hentry, rfl⟩ := step_spawn hstep
      exact h.holds_spawn hs hentry
  | act i answer =>
      obtain ⟨place, shared, place', hmove, hfree, rfl⟩ := step_act hstep
      exact h.holds_move hs hmove hfree

end ThreadCode
end Library
end WgKotlin
