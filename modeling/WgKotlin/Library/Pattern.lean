import Mathlib.Data.List.TakeDrop

/-!
# Patterns of characters and runs

A pattern that stands for a whole text: single characters of a class and runs of a
class, one after another.  `Fits` tells what the pattern means.  `run` matches it by
taking each run as far as it goes, which is right when no run can be followed by a
character of its own class.
-/

namespace WgKotlin
namespace Library

inductive Item
  | one (p : Char → Bool)
  | many (least : Nat) (p : Char → Bool)

namespace Item

/-- The text is the pieces, one for each item. -/
def Fits : List Item → List Char → List (List Char) → Prop
  | [], text, pieces => text = [] ∧ pieces = []
  | .one p :: items, text, pieces =>
    ∃ c rest more, text = c :: rest ∧ p c = true ∧ pieces = [c] :: more ∧ Fits items rest more
  | .many least p :: items, text, pieces =>
    ∃ run rest more, text = run ++ rest ∧ least ≤ run.length ∧ (∀ c ∈ run, p c = true) ∧
      pieces = run :: more ∧ Fits items rest more

/-- Match with the longest runs. -/
def run : List Item → List Char → Option (List (List Char))
  | [], [] => some []
  | [], _ :: _ => none
  | .one _ :: _, [] => none
  | .one p :: items, c :: rest => if p c then (run items rest).map ([c] :: ·) else none
  | .many least p :: items, text =>
    if (text.takeWhile p).length < least then none
    else (run items (text.dropWhile p)).map (text.takeWhile p :: ·)

/-- A run ends the pattern or stops before a character of another class. -/
def Deterministic : List Item → Prop
  | [] => True
  | .one _ :: items => Deterministic items
  | .many _ _ :: [] => True
  | .many _ p :: .one q :: items => (∀ c, p c = true → q c = false) ∧ Deterministic items
  | .many _ _ :: .many _ _ :: _ => False

/-- The run of a deterministic pattern is as long as it can be. -/
theorem span_of_fits {least : Nat} {p : Char → Bool} {items : List Item} {front rest : List Char}
    {more : List (List Char)} (h : Deterministic (.many least p :: items))
    (hrun : ∀ c ∈ front, p c = true) (hrest : Fits items rest more) :
    (front ++ rest).takeWhile p = front ∧ (front ++ rest).dropWhile p = rest := by
  -- what is left begins with a character that the next item takes
  have hstop : ∀ c tail, rest = c :: tail → p c = false := by
    intro c tail htail
    match items, h with
    | [], _ =>
        rw [hrest.1] at htail
        cases htail
    | .one q :: items, h =>
        obtain ⟨c', rest', more', hcons, hq, _, _⟩ := hrest
        rw [hcons, List.cons.injEq] at htail
        rw [← htail.1, Bool.eq_false_iff]
        intro hp
        rw [h.1 c' hp] at hq
        cases hq
  rw [List.takeWhile_append_of_pos hrun, List.dropWhile_append_of_pos hrun]
  cases rest with
  | nil => exact ⟨List.append_nil front, rfl⟩
  | cons c tail =>
      have hc : ¬ p c = true := Bool.eq_false_iff.mp (hstop c tail rfl)
      rw [List.takeWhile_cons_of_neg hc, List.dropWhile_cons_of_neg hc, List.append_nil]
      exact ⟨rfl, rfl⟩

theorem Deterministic.tail {item : Item} {items : List Item} (h : Deterministic (item :: items)) :
    Deterministic items := by
  match item, items, h with
  | .one _, _, h => exact h
  | .many _ _, [], _ => trivial
  | .many _ _, .one _ :: _, h => exact h.2

theorem run_eq_some {items : List Item} (h : Deterministic items) {text : List Char}
    {pieces : List (List Char)} : run items text = some pieces ↔ Fits items text pieces := by
  induction items generalizing text pieces with
  | nil =>
      cases text with
      | nil =>
          refine ⟨fun heq => ⟨rfl, (Option.some.inj heq).symm⟩, fun hfits => ?_⟩
          rw [hfits.2]
          rfl
      | cons c rest => exact ⟨fun heq => (by cases heq), fun hfits => (by cases hfits.1)⟩
  | cons item items ih =>
      have htail := @ih h.tail
      cases item with
      | one p =>
          constructor
          · intro heq
            cases text with
            | nil => cases heq
            | cons c rest =>
                rw [run] at heq
                split at heq
                next hp =>
                  obtain ⟨more, hmore, hpieces⟩ := Option.map_eq_some_iff.mp heq
                  exact ⟨c, rest, more, rfl, hp, hpieces.symm, htail.mp hmore⟩
                · cases heq
          · rintro ⟨c, rest, more, rfl, hp, rfl, hfits⟩
            rw [run, if_pos hp, htail.mpr hfits]
            rfl
      | many least p =>
          rw [run]
          constructor
          · intro heq
            split at heq
            · cases heq
            next hlong =>
              obtain ⟨more, hmore, hpieces⟩ := Option.map_eq_some_iff.mp heq
              exact ⟨text.takeWhile p, text.dropWhile p, more, List.takeWhile_append_dropWhile.symm,
                Nat.not_lt.mp hlong, List.all_eq_true.mp List.all_takeWhile, hpieces.symm,
                htail.mp hmore⟩
          · rintro ⟨front, rest, more, rfl, hlong, hrun, rfl, hfits⟩
            obtain ⟨htake, hdrop⟩ := span_of_fits h hrun hfits
            rw [htake, hdrop, if_neg (Nat.not_lt.mpr hlong), htail.mpr hfits]
            rfl

/-! ### Literals -/

/-- The characters of a word, compared after `fold`. -/
def literal (fold : Char → Char) (word : List Char) : List Item :=
  word.map fun x => .one fun c => fold c == x

theorem fits_literal {fold : Char → Char} {word : List Char} {items : List Item}
    {text : List Char} {pieces : List (List Char)} :
    Fits (literal fold word ++ items) text pieces ↔
      ∃ start rest more, text = start ++ rest ∧ start.map fold = word ∧
        pieces = start.map ([·]) ++ more ∧ Fits items rest more := by
  induction word generalizing text pieces with
  | nil =>
      constructor
      · intro h
        exact ⟨[], text, pieces, rfl, rfl, rfl, h⟩
      · rintro ⟨start, rest, more, rfl, hstart, rfl, h⟩
        rw [List.map_eq_nil_iff.mp hstart]
        exact h
  | cons x word ih =>
      constructor
      · rintro ⟨c, rest, more, rfl, hc, rfl, h⟩
        obtain ⟨start, rest', more', rfl, rfl, rfl, hfits⟩ := ih.mp h
        exact ⟨c :: start, rest', more', rfl, by rw [List.map_cons, eq_of_beq hc], rfl, hfits⟩
      · rintro ⟨start, rest, more, rfl, hstart, rfl, h⟩
        match start, hstart with
        | c :: start, hstart =>
            rw [List.map_cons, List.cons.injEq] at hstart
            exact ⟨c, start ++ rest, start.map ([·]) ++ more, rfl, beq_iff_eq.mpr hstart.1, rfl,
              ih.mpr ⟨start, rest, more, rfl, hstart.2, rfl, h⟩⟩

theorem deterministic_literal {fold : Char → Char} (word : List Char) {items : List Item}
    (h : Deterministic items) : Deterministic (literal fold word ++ items) := by
  induction word with
  | nil => exact h
  | cons x word ih => exact ih

end Item

end Library
end WgKotlin
