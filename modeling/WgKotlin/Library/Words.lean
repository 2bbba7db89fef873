import WgKotlin.Library.Text

/-!
# Splitting a text

The words of a text and its pieces between runs of separators, the text without
separators at its ends, and the text after the last occurrence of a character.  All
of them recover fields that were joined with single separators.
-/

namespace WgKotlin
namespace Library

/-! ### The last occurrence -/

/-- The text after the last occurrence of a character. -/
def afterLast (c : Char) (text : List Char) : Option (List Char) :=
  if text.contains c then some (text.reverse.takeWhile (· ≠ c)).reverse else none

theorem afterLast_append {c : Char} (before : List Char) {after : List Char} (h : c ∉ after) :
    afterLast c (before ++ c :: after) = some after := by
  have hmem : (before ++ c :: after).contains c = true := by
    rw [List.contains_eq_mem, decide_eq_true_eq]
    exact List.mem_append_right before List.mem_cons_self
  have hnot : ∀ d ∈ after.reverse, decide (d ≠ c) = true := by
    intro d hd
    refine decide_eq_true fun hdc => h ?_
    rw [← hdc]
    exact List.mem_reverse.mp hd
  rw [afterLast, hmem, if_pos rfl, List.reverse_append, List.reverse_cons, List.append_assoc,
    List.takeWhile_append_of_pos hnot, List.singleton_append,
    List.takeWhile_cons_of_neg (by simp), List.append_nil, List.reverse_reverse]

/-! ### The ends -/

/-- The text without separators at its ends. -/
def trimBy (p : Char → Bool) (text : List Char) : List Char :=
  ((text.dropWhile p).reverse.dropWhile p).reverse

theorem dropWhile_append_head {p : Char → Bool} {front text : List Char}
    (hfront : ∀ c ∈ front, p c = true) (htext : ∀ c, text.head? = some c → p c = false) :
    (front ++ text).dropWhile p = text := by
  rw [List.dropWhile_append_of_pos hfront]
  cases text with
  | nil => rfl
  | cons c rest =>
      rw [List.dropWhile_cons_of_neg]
      rw [htext c rfl]
      exact Bool.false_ne_true

theorem trimBy_append {p : Char → Bool} {front text back : List Char}
    (hfront : ∀ c ∈ front, p c = true) (hback : ∀ c ∈ back, p c = true)
    (hne : text ≠ []) (hhead : ∀ c, text.head? = some c → p c = false)
    (hlast : ∀ c, text.getLast? = some c → p c = false) :
    trimBy p (front ++ text ++ back) = text := by
  have hstart : (front ++ text ++ back).dropWhile p = text ++ back := by
    rw [List.append_assoc]
    refine dropWhile_append_head hfront fun c hc => hhead c ?_
    rwa [List.head?_append_of_ne_nil _ hne] at hc
  rw [trimBy, hstart, List.reverse_append, dropWhile_append_head, List.reverse_reverse]
  · exact fun c hc => hback c (List.mem_reverse.mp hc)
  · intro c hc
    rw [List.head?_reverse] at hc
    exact hlast c hc

/-! ### Words -/

/-- The pieces between separators that are not empty. -/
def words (p : Char → Bool) (text : List Char) : List (List Char) :=
  (text.splitOnP p).filter fun word => !word.isEmpty

/-- The pieces between runs of separators.  The first and the last may be empty. -/
def splitRuns (p : Char → Bool) (text : List Char) : List (List Char) :=
  match text.splitOnP p with
  | [] => []
  | first :: rest =>
    first :: (rest.dropLast.filter fun piece => !piece.isEmpty) ++ rest.getLast?.toList

section Joined

variable {p : Char → Bool} {separator : Char} {fields : List (List Char)}

theorem words_append_cons (hsep : p separator = true) (a b : List Char) :
    words p (a ++ separator :: b) = words p a ++ words p b := by
  rw [words, List.splitOnP_append_cons a b hsep, List.filter_append, words, words]

theorem words_eq_nil {text : List Char} (h : ∀ c ∈ text, p c = true) : words p text = [] := by
  induction text with
  | nil => rfl
  | cons c rest ih =>
      obtain ⟨hc, hrest⟩ := List.forall_mem_cons.mp h
      have hsplit := words_append_cons hc [] rest
      rw [List.nil_append, ih hrest] at hsplit
      rw [hsplit]
      rfl

/-- Joined fields are split again. -/
theorem splitOnP_intercalate (hsep : p separator = true) (hne : fields ≠ [])
    (h : ∀ field ∈ fields, ∀ c ∈ field, p c = false) :
    ([separator].intercalate fields).splitOnP p = fields := by
  induction fields with
  | nil => exact absurd rfl hne
  | cons field rest ih =>
      obtain ⟨hfield, hrest⟩ := List.forall_mem_cons.mp h
      cases rest with
      | nil => rw [List.intercalate_singleton, List.splitOnP_eq_singleton hfield]
      | cons next more =>
          rw [List.intercalate_cons_cons, List.append_assoc, List.singleton_append,
            List.splitOnP_append_cons_of_forall_mem hfield separator hsep,
            ih (List.cons_ne_nil _ _) hrest]

theorem filter_nonempty (h : ∀ field ∈ fields, field ≠ []) :
    fields.filter (fun field => !field.isEmpty) = fields := by
  refine List.filter_eq_self.mpr fun field hfield => ?_
  rw [Bool.not_eq_true', List.isEmpty_eq_false_iff]
  exact h field hfield

theorem words_intercalate (hsep : p separator = true) (hne : fields ≠ [])
    (h : ∀ field ∈ fields, field ≠ [] ∧ ∀ c ∈ field, p c = false) :
    words p ([separator].intercalate fields) = fields := by
  rw [words, splitOnP_intercalate hsep hne fun field hfield => (h field hfield).2,
    filter_nonempty fun field hfield => (h field hfield).1]

theorem splitRuns_intercalate (hsep : p separator = true) (hne : fields ≠ [])
    (h : ∀ field ∈ fields, field ≠ [] ∧ ∀ c ∈ field, p c = false) :
    splitRuns p ([separator].intercalate fields) = fields := by
  rw [splitRuns, splitOnP_intercalate hsep hne fun field hfield => (h field hfield).2]
  cases fields with
  | nil => rfl
  | cons first rest =>
      have hrest : ∀ field ∈ rest.dropLast, field ≠ [] := fun field hfield =>
        (h field (List.mem_cons_of_mem first (List.dropLast_subset rest hfield))).1
      simp only [filter_nonempty hrest, List.cons_append, List.cons.injEq, true_and]
      cases hlast : rest.getLast? with
      | none =>
          rw [List.getLast?_eq_none_iff.mp hlast]
          rfl
      | some last => exact List.dropLast_append_getLast? last hlast

theorem intercalate_ne_nil (hne : fields ≠ []) (h : ∀ field ∈ fields, field ≠ []) :
    [separator].intercalate fields ≠ [] := by
  match fields, hne with
  | [field], _ =>
      rw [List.intercalate_singleton]
      exact h field List.mem_cons_self
  | field :: next :: more, _ =>
      rw [List.intercalate_cons_cons, List.append_assoc]
      exact List.append_ne_nil_of_left_ne_nil (h field List.mem_cons_self) _

/-- A joined text begins with a character of a field. -/
theorem mem_of_head?_intercalate (h : ∀ field ∈ fields, field ≠ []) {c : Char}
    (hc : ([separator].intercalate fields).head? = some c) : ∃ field ∈ fields, c ∈ field := by
  match fields with
  | [] => cases hc
  | [field] =>
      rw [List.intercalate_singleton] at hc
      exact ⟨field, List.mem_cons_self, List.mem_of_head? hc⟩
  | field :: next :: more =>
      rw [List.intercalate_cons_cons, List.append_assoc,
        List.head?_append_of_ne_nil _ (h field List.mem_cons_self)] at hc
      exact ⟨field, List.mem_cons_self, List.mem_of_head? hc⟩

/-- It ends with one as well. -/
theorem mem_of_getLast?_intercalate (h : ∀ field ∈ fields, field ≠ []) {c : Char}
    (hc : ([separator].intercalate fields).getLast? = some c) : ∃ field ∈ fields, c ∈ field := by
  induction fields with
  | nil => cases hc
  | cons field rest ih =>
      have hrest := (List.forall_mem_cons.mp h).2
      cases rest with
      | nil =>
          rw [List.intercalate_singleton] at hc
          exact ⟨field, List.mem_cons_self, List.mem_of_getLast? hc⟩
      | cons next more =>
          have hne : [separator].intercalate (next :: more) ≠ [] :=
            intercalate_ne_nil (List.cons_ne_nil next more) hrest
          rw [List.intercalate_cons_cons, List.getLast?_append_of_ne_nil _ hne] at hc
          obtain ⟨field', hfield', hmem⟩ := ih hrest hc
          exact ⟨field', List.mem_cons_of_mem field hfield', hmem⟩

end Joined

end Library
end WgKotlin
