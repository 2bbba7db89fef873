import Mathlib.Data.List.Nodup

/-!
# Insertion-ordered maps

A `LinkedMap` is a finite map that remembers the order in which its keys were
first inserted.  Overwriting a key keeps its place and a new key goes to the
end.  The key list has no duplicates by construction, so a lookup and a
membership say the same thing.
-/

namespace WgKotlin
namespace Library

/-- A finite map with its keys in insertion order. -/
structure LinkedMap (κ ν : Type) where
  entries : List (κ × ν)
  nodup : (entries.map Prod.fst).Nodup
  deriving DecidableEq

namespace LinkedMap

variable {κ ν : Type}

def empty : LinkedMap κ ν := { entries := [], nodup := List.nodup_nil }

def keys (m : LinkedMap κ ν) : List κ := m.entries.map Prod.fst

def values (m : LinkedMap κ ν) : List ν := m.entries.map Prod.snd

@[simp] theorem keys_empty : (empty : LinkedMap κ ν).keys = [] := rfl

variable [DecidableEq κ]

def lookupEntries (k : κ) : List (κ × ν) → Option ν
  | [] => none
  | (k', v) :: rest => if k' = k then some v else lookupEntries k rest

def putEntries (k : κ) (v : ν) : List (κ × ν) → List (κ × ν)
  | [] => [(k, v)]
  | (k', v') :: rest => if k' = k then (k, v) :: rest else (k', v') :: putEntries k v rest

theorem keys_putEntries (k : κ) (v : ν) (l : List (κ × ν)) :
    (putEntries k v l).map Prod.fst =
      if k ∈ l.map Prod.fst then l.map Prod.fst else l.map Prod.fst ++ [k] := by
  induction l with
  | nil => rfl
  | cons p rest ih =>
      obtain ⟨k', v'⟩ := p
      by_cases h : k' = k
      · subst h
        simp [putEntries]
      · have h' : k ≠ k' := fun e => h e.symm
        by_cases hm : k ∈ rest.map Prod.fst
        · simp [putEntries, h, ih, hm]
        · simp [putEntries, h, ih, hm, h']

theorem nodup_putEntries (k : κ) (v : ν) {l : List (κ × ν)} (h : (l.map Prod.fst).Nodup) :
    ((putEntries k v l).map Prod.fst).Nodup := by
  rw [keys_putEntries]
  by_cases hm : k ∈ l.map Prod.fst
  · rw [if_pos hm]
    exact h
  · rw [if_neg hm]
    exact List.nodup_append.mpr ⟨h, List.nodup_singleton k, fun a ha b hb e =>
      hm (by rw [List.mem_singleton] at hb; rw [← hb, ← e]; exact ha)⟩

def get (m : LinkedMap κ ν) (k : κ) : Option ν := lookupEntries k m.entries

def put (m : LinkedMap κ ν) (k : κ) (v : ν) : LinkedMap κ ν :=
  { entries := putEntries k v m.entries, nodup := nodup_putEntries k v m.nodup }

def remove (m : LinkedMap κ ν) (k : κ) : LinkedMap κ ν :=
  { entries := m.entries.filter fun p => decide (p.1 ≠ k),
    nodup := (List.filter_sublist.map Prod.fst).nodup m.nodup }

/-- Put the pairs of a list one after another. -/
def putAll (m : LinkedMap κ ν) (l : List (κ × ν)) : LinkedMap κ ν :=
  l.foldl (fun acc p => acc.put p.1 p.2) m

/-! ### Lookups and memberships -/

theorem lookupEntries_eq_some_iff {k : κ} {v : ν} {l : List (κ × ν)}
    (h : (l.map Prod.fst).Nodup) : lookupEntries k l = some v ↔ (k, v) ∈ l := by
  induction l with
  | nil => simp [lookupEntries]
  | cons p rest ih =>
      obtain ⟨k', v'⟩ := p
      rw [List.map_cons, List.nodup_cons] at h
      by_cases hk : k' = k
      · subst hk
        have hno : (k', v) ∉ rest := fun hm => h.1 (List.mem_map.mpr ⟨(k', v), hm, rfl⟩)
        simp only [lookupEntries, if_true, Option.some.injEq, List.mem_cons, Prod.mk.injEq,
          true_and, hno, or_false]
        exact eq_comm
      · have hk' : k ≠ k' := fun e => hk e.symm
        simp only [lookupEntries, hk, if_false, ih h.2, List.mem_cons, Prod.mk.injEq, hk',
          false_and, false_or]

theorem get_eq_some_iff {m : LinkedMap κ ν} {k : κ} {v : ν} :
    m.get k = some v ↔ (k, v) ∈ m.entries :=
  lookupEntries_eq_some_iff m.nodup

theorem get_eq_none_iff {m : LinkedMap κ ν} {k : κ} : m.get k = none ↔ k ∉ m.keys := by
  constructor
  · intro h hk
    obtain ⟨p, hp, rfl⟩ := List.mem_map.mp hk
    have hv : m.get p.1 = some p.2 := get_eq_some_iff.mpr hp
    rw [h] at hv
    cases hv
  · intro h
    cases hg : m.get k with
    | none => rfl
    | some v => exact absurd (List.mem_map_of_mem (get_eq_some_iff.mp hg)) h

theorem mem_keys_iff {m : LinkedMap κ ν} {k : κ} : k ∈ m.keys ↔ ∃ v, m.get k = some v := by
  constructor
  · intro h
    obtain ⟨p, hp, rfl⟩ := List.mem_map.mp h
    exact ⟨p.2, get_eq_some_iff.mpr hp⟩
  · rintro ⟨v, hv⟩
    exact List.mem_map_of_mem (get_eq_some_iff.mp hv)

theorem mem_values_iff {m : LinkedMap κ ν} {v : ν} : v ∈ m.values ↔ ∃ k, m.get k = some v := by
  constructor
  · intro h
    obtain ⟨p, hp, rfl⟩ := List.mem_map.mp h
    exact ⟨p.1, get_eq_some_iff.mpr hp⟩
  · rintro ⟨k, hk⟩
    exact List.mem_map.mpr ⟨(k, v), get_eq_some_iff.mp hk, rfl⟩

theorem lookupEntries_put (k j : κ) (v : ν) (l : List (κ × ν)) :
    lookupEntries j (putEntries k v l) = if k = j then some v else lookupEntries j l := by
  induction l with
  | nil => rfl
  | cons p rest ih =>
      obtain ⟨k', v'⟩ := p
      by_cases hk : k' = k
      · subst hk
        by_cases hj : k' = j <;> simp [putEntries, lookupEntries, hj]
      · by_cases hj : k' = j
        · subst hj
          have hk' : k ≠ k' := fun e => hk e.symm
          simp [putEntries, lookupEntries, hk, hk']
        · simp [putEntries, lookupEntries, hk, hj, ih]

theorem get_put (m : LinkedMap κ ν) (k j : κ) (v : ν) :
    (m.put k v).get j = if k = j then some v else m.get j :=
  lookupEntries_put k j v m.entries

@[simp] theorem get_put_self (m : LinkedMap κ ν) (k : κ) (v : ν) :
    (m.put k v).get k = some v := by
  rw [get_put, if_pos rfl]

theorem get_put_ne (m : LinkedMap κ ν) {k j : κ} (h : k ≠ j) (v : ν) :
    (m.put k v).get j = m.get j := by
  rw [get_put, if_neg h]

theorem keys_put (m : LinkedMap κ ν) (k : κ) (v : ν) :
    (m.put k v).keys = if k ∈ m.keys then m.keys else m.keys ++ [k] :=
  keys_putEntries k v m.entries

theorem putEntries_of_notMem {k : κ} {v : ν} {l : List (κ × ν)} (h : k ∉ l.map Prod.fst) :
    putEntries k v l = l ++ [(k, v)] := by
  induction l with
  | nil => rfl
  | cons p rest ih =>
      obtain ⟨k', v'⟩ := p
      rw [List.map_cons, List.mem_cons, not_or] at h
      have hk : k' ≠ k := fun e => h.1 e.symm
      rw [putEntries, if_neg hk, ih h.2, List.cons_append]

theorem entries_put_of_notMem {m : LinkedMap κ ν} {k : κ} (h : k ∉ m.keys) (v : ν) :
    (m.put k v).entries = m.entries ++ [(k, v)] :=
  putEntries_of_notMem h

/-- Putting pairs with new and distinct keys appends them. -/
theorem entries_putAll_of_nodup {m : LinkedMap κ ν} {l : List (κ × ν)}
    (h : (m.keys ++ l.map Prod.fst).Nodup) : (m.putAll l).entries = m.entries ++ l := by
  induction l generalizing m with
  | nil => exact (List.append_nil _).symm
  | cons p rest ih =>
      have hp : p.1 ∉ m.keys := by
        intro hm
        exact (List.nodup_append.mp h).2.2 p.1 hm p.1 List.mem_cons_self rfl
      have hkeys : (m.put p.1 p.2).keys = m.keys ++ [p.1] := by rw [keys_put, if_neg hp]
      show ((m.put p.1 p.2).putAll rest).entries = _
      rw [ih, entries_put_of_notMem hp, List.append_assoc]
      · rfl
      · rw [hkeys, List.append_assoc]
        exact h

theorem entries_putAll_empty {l : List (κ × ν)} (h : (l.map Prod.fst).Nodup) :
    ((empty : LinkedMap κ ν).putAll l).entries = l := by
  rw [entries_putAll_of_nodup (by simpa using h)]
  rfl

theorem get_remove (m : LinkedMap κ ν) (k j : κ) :
    (m.remove k).get j = if k = j then none else m.get j := by
  by_cases h : k = j
  · rw [if_pos h, get_eq_none_iff]
    intro hj
    obtain ⟨p, hp, rfl⟩ := List.mem_map.mp hj
    have := (List.mem_filter.mp hp).2
    exact of_decide_eq_true this h.symm
  · rw [if_neg h]
    cases hg : m.get j with
    | some v =>
        refine get_eq_some_iff.mpr (List.mem_filter.mpr ⟨get_eq_some_iff.mp hg, ?_⟩)
        exact decide_eq_true (fun e => h e.symm)
    | none =>
        rw [get_eq_none_iff] at hg ⊢
        exact fun hj => hg ((List.filter_sublist.map Prod.fst).subset hj)

omit [DecidableEq κ] in
/-- Association lists with the same distinct keys in the same order agree if one
is included in the other. -/
theorem eq_of_keys_of_subset {l m : List (κ × ν)} (hkeys : l.map Prod.fst = m.map Prod.fst)
    (hnodup : (m.map Prod.fst).Nodup) (hsub : ∀ p ∈ l, p ∈ m) : l = m := by
  induction l generalizing m with
  | nil => exact (List.map_eq_nil_iff.mp hkeys.symm).symm
  | cons p rest ih =>
      cases m with
      | nil => cases hkeys
      | cons q rest' =>
          rw [List.map_cons, List.map_cons, List.cons.injEq] at hkeys
          rw [List.map_cons, List.nodup_cons] at hnodup
          have hp : p = q := by
            rcases List.mem_cons.mp (hsub p List.mem_cons_self) with h | h
            · exact h
            · exact absurd (List.mem_map.mpr ⟨p, h, hkeys.1⟩) hnodup.1
          refine congrArg₂ _ hp (ih hkeys.2 hnodup.2 fun r hr => ?_)
          rcases List.mem_cons.mp (hsub r (List.mem_cons_of_mem p hr)) with h | h
          · refine absurd ?_ hnodup.1
            rw [← h, ← hkeys.2]
            exact List.mem_map.mpr ⟨r, hr, rfl⟩
          · exact h

end LinkedMap
end Library
end WgKotlin
