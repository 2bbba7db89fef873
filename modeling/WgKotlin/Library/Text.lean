import Mathlib.Data.List.Sort
import Mathlib.Order.Lattice.Nat
import Mathlib.Data.List.Lex
import WgKotlin.Library.Occurrences

/-!
# Text: digits, separators and the UTF-16 order

Strings of the source are sequences of UTF-16 code units and their natural
order compares those units.  `utf16` lists the units of a Lean string.  It is
injective, so the order is antisymmetric and sorting by it does not depend on
the order of its input.  The rest of the file recovers the parts of a text from
the text: digits of a number and fields between separators.
-/

namespace WgKotlin
namespace Library

/-! ### UTF-16 code units -/

def utf16Units (c : Char) : List Nat :=
  if c.toNat < 0x10000 then [c.toNat]
  else [0xd800 + (c.toNat - 0x10000) / 0x400, 0xdc00 + (c.toNat - 0x10000) % 0x400]

def utf16Chars (cs : List Char) : List Nat := cs.flatMap utf16Units

/-- The UTF-16 code units of a string. -/
def utf16 (s : String) : List Nat := utf16Chars s.toList

theorem char_bound (c : Char) : c.toNat < 0xd800 ∨ 0xdfff < c.toNat ∧ c.toNat < 0x110000 := by
  have h := c.valid
  simpa [UInt32.isValidChar, Nat.isValidChar] using h

theorem utf16Units_append_inj {c d : Char} {u v : List Nat}
    (h : utf16Units c ++ u = utf16Units d ++ v) : c = d ∧ u = v := by
  have hc := char_bound c
  have hd := char_bound d
  unfold utf16Units at h
  by_cases h1 : c.toNat < 0x10000 <;> by_cases h2 : d.toNat < 0x10000
  · simp only [h1, h2, if_true, List.cons_append, List.nil_append, List.cons.injEq] at h
    exact ⟨Char.toNat_inj.mp h.1, h.2⟩
  · simp only [h1, h2, if_true, if_false, List.cons_append, List.nil_append,
      List.cons.injEq] at h
    omega
  · simp only [h1, h2, if_true, if_false, List.cons_append, List.nil_append,
      List.cons.injEq] at h
    omega
  · simp only [h1, h2, if_false, List.cons_append, List.nil_append, List.cons.injEq] at h
    exact ⟨Char.toNat_inj.mp (by omega), h.2.2⟩

theorem utf16Units_ne_nil (c : Char) : utf16Units c ≠ [] := by
  unfold utf16Units
  split <;> simp

theorem utf16Chars_injective : ∀ {a b : List Char}, utf16Chars a = utf16Chars b → a = b
  | [], [], _ => rfl
  | [], d :: ds, h => by
      rw [utf16Chars, utf16Chars, List.flatMap_nil, List.flatMap_cons] at h
      exact absurd (List.append_eq_nil_iff.mp h.symm).1 (utf16Units_ne_nil d)
  | c :: cs, [], h => by
      rw [utf16Chars, utf16Chars, List.flatMap_nil, List.flatMap_cons] at h
      exact absurd (List.append_eq_nil_iff.mp h).1 (utf16Units_ne_nil c)
  | c :: cs, d :: ds, h => by
      rw [utf16Chars, utf16Chars, List.flatMap_cons, List.flatMap_cons] at h
      obtain ⟨rfl, hrest⟩ := utf16Units_append_inj h
      rw [utf16Chars_injective hrest]

theorem utf16_injective {a b : String} (h : utf16 a = utf16 b) : a = b :=
  String.toList_inj.mp (utf16Chars_injective h)

/-! ### Sorting by a textual key -/

section SortedBy

variable {α : Type} (key : α → String)

/-- Stable sort by the natural order of a textual key. -/
def sortedBy (l : List α) : List α :=
  l.insertionSort fun a b => utf16 (key a) ≤ utf16 (key b)

theorem sortedBy_perm (l : List α) : (sortedBy key l).Perm l := List.perm_insertionSort _ l

theorem mem_sortedBy {l : List α} {a : α} : a ∈ sortedBy key l ↔ a ∈ l :=
  (sortedBy_perm key l).mem_iff

theorem sortedBy_pairwise (l : List α) :
    (sortedBy key l).Pairwise fun a b => utf16 (key a) ≤ utf16 (key b) := by
  have : Std.Total (fun a b : α => utf16 (key a) ≤ utf16 (key b)) :=
    ⟨fun a b => Std.le_total⟩
  have : IsTrans α (fun a b : α => utf16 (key a) ≤ utf16 (key b)) :=
    ⟨fun a b c hab hbc => le_trans hab hbc⟩
  exact List.pairwise_insertionSort _ l

/-- Sorting by a key that tells the elements apart forgets the input order. -/
theorem sortedBy_eq_of_perm {l m : List α} (hlm : l.Perm m)
    (hinj : ∀ a ∈ l, ∀ b ∈ l, key a = key b → a = b) : sortedBy key l = sortedBy key m := by
  refine List.Perm.eq_of_pairwise ?_ (sortedBy_pairwise key l) (sortedBy_pairwise key m)
    ((sortedBy_perm key l).trans (hlm.trans (sortedBy_perm key m).symm))
  intro a b ha hb hab hba
  refine hinj a ((mem_sortedBy key).mp ha) b (hlm.mem_iff.mpr ((mem_sortedBy key).mp hb)) ?_
  exact utf16_injective (le_antisymm hab hba)

end SortedBy

/-! ### Digits -/

theorem digitChar_inj : ∀ i < 16, ∀ j < 16, Nat.digitChar i = Nat.digitChar j → i = j := by
  decide

theorem toNat_of_isDigit {c : Char} (h : c.isDigit = true) : 48 ≤ c.toNat ∧ c.toNat ≤ 57 := by
  simp only [Char.isDigit, Bool.and_eq_true, decide_eq_true_eq] at h
  exact ⟨UInt32.le_iff_toNat_le.mp h.1, UInt32.le_iff_toNat_le.mp h.2⟩

/-- Signs stand before the digits. -/
theorem not_lt_zero_of_isDigit {c : Char} (h : c.isDigit = true) : ¬ c < '0' := by
  intro hlt
  have hlow := (toNat_of_isDigit h).1
  have hhigh : c.toNat < 48 := UInt32.lt_iff_toNat_lt.mp hlt
  omega

theorem digit_lt_ten {c : Char} (h : c.isDigit = true) : c.toNat - '0'.toNat < 10 := by
  have hzero : '0'.toNat = 48 := rfl
  have := (toNat_of_isDigit h).2
  omega

theorem digitChar_of_isDigit {c : Char} (h : c.isDigit = true) :
    Nat.digitChar (c.toNat - '0'.toNat) = c := by
  have hzero : '0'.toNat = 48 := rfl
  have hlow := (toNat_of_isDigit h).1
  refine Char.toNat_inj.mp ?_
  rw [Nat.toNat_digitChar_of_lt_ten (digit_lt_ten h)]
  omega

/-- Every character of a numeral is one of the digits of its base. -/
theorem mem_toDigits {b : Nat} (hb : 1 < b) (n : Nat) {c : Char} (hc : c ∈ Nat.toDigits b n) :
    ∃ k < b, c = Nat.digitChar k := by
  induction n using Nat.strongRecOn with
  | ind n ih =>
      by_cases hn : n < b
      · rw [Nat.toDigits_of_lt_base hn, List.mem_singleton] at hc
        exact ⟨n, hn, hc⟩
      · rw [Nat.toDigits_of_base_le hb (Nat.le_of_not_lt hn), List.mem_append,
          List.mem_singleton] at hc
        rcases hc with hc | hc
        · exact ih (n / b) (Nat.div_lt_self (by omega) hb) hc
        · exact ⟨n % b, Nat.mod_lt n (by omega), hc⟩

theorem toDigits_injective {b : Nat} (hb : 1 < b) (hb16 : b ≤ 16) (m n : Nat)
    (h : Nat.toDigits b m = Nat.toDigits b n) : m = n := by
  induction m using Nat.strongRecOn generalizing n with
  | ind m ih =>
      by_cases hm : m < b <;> by_cases hn : n < b
      · rw [Nat.toDigits_of_lt_base hm, Nat.toDigits_of_lt_base hn, List.cons.injEq] at h
        exact digitChar_inj m (by omega) n (by omega) h.1
      · rw [Nat.toDigits_of_lt_base hm,
          Nat.toDigits_of_base_le hb (Nat.le_of_not_lt hn)] at h
        have hl := congrArg List.length h
        have hpos : 0 < (Nat.toDigits b (n / b)).length := Nat.length_toDigits_pos
        simp only [List.length_cons, List.length_nil, List.length_append] at hl
        omega
      · rw [Nat.toDigits_of_lt_base hn,
          Nat.toDigits_of_base_le hb (Nat.le_of_not_lt hm)] at h
        have hl := congrArg List.length h
        have hpos : 0 < (Nat.toDigits b (m / b)).length := Nat.length_toDigits_pos
        simp only [List.length_cons, List.length_nil, List.length_append] at hl
        omega
      · rw [Nat.toDigits_of_base_le hb (Nat.le_of_not_lt hm),
          Nat.toDigits_of_base_le hb (Nat.le_of_not_lt hn)] at h
        obtain ⟨h1, h2⟩ := List.append_inj' h rfl
        have hq := ih (m / b) (Nat.div_lt_self (by omega) hb) (n / b) h1
        rw [List.cons.injEq] at h2
        have hm16 : m % b < 16 := Nat.lt_of_lt_of_le (Nat.mod_lt m (by omega)) hb16
        have hn16 : n % b < 16 := Nat.lt_of_lt_of_le (Nat.mod_lt n (by omega)) hb16
        have hr := digitChar_inj _ hm16 _ hn16 h2.1
        rw [← Nat.div_add_mod m b, ← Nat.div_add_mod n b, hq, hr]

theorem toString_toList (n : Nat) : (toString n).toList = Nat.toDigits 10 n := by
  rw [show toString n = n.repr from rfl, Nat.toList_repr]

theorem toString_toList_ne_nil (n : Nat) : (toString n).toList ≠ [] := by
  rw [toString_toList]
  exact Nat.toDigits_ne_nil

theorem isDigit_of_mem_toString {n : Nat} {c : Char} (h : c ∈ (toString n).toList) :
    c.isDigit = true := by
  rw [toString_toList] at h
  exact Nat.isDigit_of_mem_toDigits (by omega) (by omega) h

theorem toString_inj {m n : Nat} (h : toString m = toString n) : m = n := by
  refine toDigits_injective (b := 10) (by omega) (by omega) m n ?_
  rw [← toString_toList, ← toString_toList, h]

theorem not_mem_toString {c : Char} (hc : ∀ k < 10, c ≠ Nat.digitChar k) (n : Nat) :
    c ∉ (toString n).toList := by
  intro h
  rw [toString_toList] at h
  obtain ⟨k, hk, he⟩ := mem_toDigits (by omega) n h
  exact hc k hk he

/-! ### Separators -/

/-- The text before the first separator and the text after it are determined. -/
theorem append_separator_inj {c : Char} : ∀ {a a' b b' : List Char}, c ∉ a → c ∉ a' →
    a ++ c :: b = a' ++ c :: b' → a = a' ∧ b = b'
  | [], [], b, b', _, _, h => by
      simpa using h
  | [], x :: xs, b, b', _, hx, h => by
      rw [List.nil_append, List.cons_append, List.cons.injEq] at h
      exact absurd (h.1 ▸ List.mem_cons_self) hx
  | x :: xs, [], b, b', hx, _, h => by
      rw [List.nil_append, List.cons_append, List.cons.injEq] at h
      exact absurd (h.1 ▸ List.mem_cons_self) hx
  | x :: xs, y :: ys, b, b', hx, hy, h => by
      rw [List.cons_append, List.cons_append, List.cons.injEq] at h
      obtain ⟨rfl, h⟩ := h
      rw [List.mem_cons, not_or] at hx hy
      obtain ⟨rfl, hb⟩ := append_separator_inj hx.2 hy.2 h
      exact ⟨rfl, hb⟩

theorem mem_intercalate {c d : Char} {fields : List (List Char)}
    (h : d ∈ [c].intercalate fields) : d = c ∨ ∃ f ∈ fields, d ∈ f := by
  induction fields with
  | nil => cases h
  | cons x rest ih =>
      cases rest with
      | nil =>
          rw [List.intercalate_singleton] at h
          exact Or.inr ⟨x, List.mem_cons_self, h⟩
      | cons y rest =>
          rw [List.intercalate_cons_cons, List.mem_append, List.mem_append,
            List.mem_singleton] at h
          rcases h with (h | h) | h
          · exact Or.inr ⟨x, List.mem_cons_self, h⟩
          · exact Or.inl h
          · rcases ih h with h | ⟨f, hf, hd⟩
            · exact Or.inl h
            · exact Or.inr ⟨f, List.mem_cons_of_mem x hf, hd⟩

/-- Fields without the separator are determined by the joined text. -/
theorem intercalate_inj {c : Char} {l m : List (List Char)} (hl : ∀ f ∈ l, c ∉ f)
    (hm : ∀ f ∈ m, c ∉ f) (hlnil : l ≠ []) (hmnil : m ≠ [])
    (h : [c].intercalate l = [c].intercalate m) : l = m := by
  rw [← List.splitOn_intercalate c hl hlnil, h, List.splitOn_intercalate c hm hmnil]

end Library
end WgKotlin
