import Mathlib.Data.List.Nodup
import Mathlib.Data.List.Induction

/-!
# First occurrences

The elements of a list without those that came before.  Code collects them with a
loop that appends what it has not seen yet.
-/

namespace WgKotlin
namespace Library

variable {α : Type} [DecidableEq α]

theorem nodup_eraseDups (l : List α) : l.eraseDups.Nodup := by
  -- The recursion drops the later copies of the head, so it is on the length.
  induction hn : l.length using Nat.strongRecOn generalizing l with
  | ind n ih =>
      cases l with
      | nil => exact List.nodup_nil
      | cons a rest =>
          rw [List.eraseDups_cons, List.nodup_cons]
          refine ⟨?_, ih _ ?_ _ rfl⟩
          · rw [List.mem_eraseDups, List.mem_filter]
            intro h
            simp at h
          · rw [← hn]
            exact Nat.lt_succ_of_le (List.length_filter_le _ _)

theorem eraseDups_of_nodup {l : List α} (h : l.Nodup) :
    l.eraseDups = l := by
  induction l with
  | nil => rfl
  | cons a rest ih =>
      obtain ⟨ha, hrest⟩ := List.nodup_cons.mp h
      have hfilter : rest.filter (fun b => !b == a) = rest := by
        refine List.filter_eq_self.mpr fun b hb => ?_
        rw [Bool.not_eq_true', beq_eq_false_iff_ne]
        exact fun hba => ha (hba ▸ hb)
      rw [List.eraseDups_cons, hfilter, ih hrest]

/-- Append an element that is not there yet. -/
def pushNew (seen : List α) (a : α) : List α :=
  if seen.contains a then seen else seen ++ [a]

/-- A loop that appends what it has not seen yet collects the first occurrences. -/
theorem foldl_pushNew (l seen : List α) :
    l.foldl pushNew seen = seen ++ (l.filter fun a => !seen.contains a).eraseDups := by
  induction l generalizing seen with
  | nil => exact (List.append_nil seen).symm
  | cons a rest ih =>
      rw [List.foldl_cons, pushNew, List.filter_cons]
      by_cases ha : seen.contains a = true
      · rw [if_pos ha, ih, ha]
        rfl
      · have hsplit : (rest.filter fun b => !seen.contains b).filter (fun b => !b == a) =
            rest.filter fun b => !(seen ++ [a]).contains b := by
          rw [List.filter_filter]
          refine List.filter_congr fun b _ => ?_
          simp only [List.contains_eq_mem, List.mem_append, List.mem_singleton, Bool.decide_or,
            Bool.not_or, Bool.and_comm]
          rfl
        rw [if_neg ha, ih, Bool.eq_false_iff.mpr ha, Bool.not_false, if_pos rfl,
          List.eraseDups_cons, hsplit, List.append_assoc, List.singleton_append]

/-- The elements that are not among the elements before them. -/
def firstOccurrences (l : List α) : List α :=
  (l.zipIdx.filter fun p => !(l.take p.2).contains p.1).map Prod.fst

theorem firstOccurrences_concat (l : List α) (a : α) :
    firstOccurrences (l ++ [a]) =
      firstOccurrences l ++ if l.contains a then [] else [a] := by
  have hold : l.zipIdx.filter (fun p => !((l ++ [a]).take p.2).contains p.1) =
      l.zipIdx.filter fun p => !(l.take p.2).contains p.1 := by
    refine List.filter_congr fun p hp => ?_
    have hlt : p.2 < l.length := by
      have hbound := List.snd_lt_of_mem_zipIdx hp
      omega
    rw [List.take_append_of_le_length (Nat.le_of_lt hlt)]
  rw [firstOccurrences, List.zipIdx_append, List.filter_append, hold, List.map_append,
    firstOccurrences]
  congr 1
  simp only [List.zipIdx_singleton, Nat.zero_add, List.filter_cons, List.take_left,
    List.filter_nil]
  cases l.contains a <;> rfl

/-- The loop collects the first occurrences. -/
theorem foldl_pushNew_eq (l : List α) : l.foldl pushNew [] = firstOccurrences l := by
  induction l using List.reverseRecOn with
  | nil => rfl
  | append_singleton l a ih =>
      have hmem : (firstOccurrences l).contains a = l.contains a := by
        rw [← ih, foldl_pushNew, List.nil_append, List.contains_eq_mem, List.contains_eq_mem]
        simp only [List.mem_eraseDups, List.mem_filter, List.contains_nil, Bool.not_false, and_true]
      rw [List.foldl_append, List.foldl_cons, List.foldl_nil, ih, pushNew, hmem,
        firstOccurrences_concat]
      cases l.contains a with
      | true => exact (List.append_nil _).symm
      | false => rfl

theorem eraseDups_eq (l : List α) : l.eraseDups = firstOccurrences l := by
  have hall : (l.filter fun a => !([] : List α).contains a) = l :=
    List.filter_eq_self.mpr fun _ _ => rfl
  rw [← foldl_pushNew_eq, foldl_pushNew, hall, List.nil_append]

end Library
end WgKotlin
