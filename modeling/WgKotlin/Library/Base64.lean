import Mathlib.Data.List.Nodup
import Mathlib.Data.List.Forall2

/-!
# Base64

Bytes as text over an alphabet of 64 symbols.  Three bytes are four symbols.  One
or two bytes at the end are two or three symbols whose unused bits are zero, and
padding may fill up the last four.  This decoder takes any part of the padding, so
the texts of a byte string are its symbols with no more padding than it needs, and
no other text is read as that byte string.
-/

namespace WgKotlin
namespace Library
namespace Base64

structure Alphabet where
  symbols : List Char
  size : symbols.length = 64
  nodup : symbols.Nodup
  noPadding : '=' ∉ symbols

/-! ### Symbols -/

namespace Alphabet

variable (A : Alphabet)

def symbol (n : Nat) : Char := A.symbols.getD n '='

def sextet (c : Char) : Option Nat := A.symbols.idxOf? c

variable {A}

theorem symbol_eq {n : Nat} (h : n < A.symbols.length) : A.symbol n = A.symbols[n] := by
  rw [symbol, List.getD_eq_getElem?_getD, List.getElem?_eq_getElem h, Option.getD_some]

theorem sextet_eq_some {c : Char} {n : Nat} :
    A.sextet c = some n ↔ n < 64 ∧ A.symbol n = c := by
  rw [sextet, List.idxOf?_eq_some_iff]
  constructor
  · rintro ⟨hn, hc, _⟩
    exact ⟨A.size ▸ hn, (symbol_eq hn).trans hc⟩
  · rintro ⟨hn, hc⟩
    have hlen : n < A.symbols.length := A.size.symm ▸ hn
    rw [symbol_eq hlen] at hc
    refine ⟨hlen, hc, fun j hj hsame => ?_⟩
    have heq := A.nodup.getElem_inj_iff.mp (hsame.trans hc.symm)
    omega

theorem sextet_symbol {n : Nat} (h : n < 64) : A.sextet (A.symbol n) = some n :=
  sextet_eq_some.mpr ⟨h, rfl⟩

theorem symbol_ne_padding {n : Nat} (h : n < 64) : A.symbol n ≠ '=' := by
  have hlen : n < A.symbols.length := A.size.symm ▸ h
  intro hpad
  rw [symbol_eq hlen] at hpad
  exact A.noPadding (hpad ▸ List.getElem_mem hlen)

/-- Texts that are read symbol by symbol. -/
theorem mapM_sextet {text : List Char} {sextets : List Nat} :
    text.mapM A.sextet = some sextets ↔
      (∀ n ∈ sextets, n < 64) ∧ text = sextets.map A.symbol := by
  induction text generalizing sextets with
  | nil =>
      rw [List.mapM_nil]
      constructor
      · intro h
        cases h
        exact ⟨fun n hn => (by cases hn), rfl⟩
      · rintro ⟨_, h⟩
        rw [List.map_eq_nil_iff.mp h.symm]
        rfl
  | cons c rest ih =>
      rw [List.mapM_cons]
      constructor
      · intro h
        obtain ⟨n, hn, h⟩ := Option.bind_eq_some_iff.mp h
        obtain ⟨more, hmore, h⟩ := Option.bind_eq_some_iff.mp h
        cases h
        obtain ⟨hlt, hsymbol⟩ := sextet_eq_some.mp hn
        obtain ⟨hall, hrest⟩ := ih.mp hmore
        exact ⟨List.forall_mem_cons.mpr ⟨hlt, hall⟩, by rw [List.map_cons, hsymbol, ← hrest]⟩
      · rintro ⟨hall, h⟩
        cases sextets with
        | nil => cases h
        | cons n more =>
            obtain ⟨rfl, hrest⟩ := List.cons.inj h
            obtain ⟨hn, hmore⟩ := List.forall_mem_cons.mp hall
            rw [sextet_symbol hn, ih.mpr ⟨hmore, hrest⟩]
            rfl

end Alphabet

/-! ### Groups of three bytes -/

def quad (a b c : UInt8) : List Nat :=
  [a.toNat / 4, a.toNat % 4 * 16 + b.toNat / 16, b.toNat % 16 * 4 + c.toNat / 64, c.toNat % 64]

def triple (w x y z : Nat) : List UInt8 :=
  [UInt8.ofNat (w * 4 + x / 16), UInt8.ofNat (x % 16 * 16 + y / 4), UInt8.ofNat (y % 4 * 64 + z)]

theorem quad_lt {a b c : UInt8} {n : Nat} (h : n ∈ quad a b c) : n < 64 := by
  have ha : a.toNat < 256 := a.toNat_lt
  have hb : b.toNat < 256 := b.toNat_lt
  have hc : c.toNat < 256 := c.toNat_lt
  simp only [quad, List.mem_cons, List.not_mem_nil, or_false] at h
  omega

theorem triple_quad (a b c : UInt8) :
    triple (a.toNat / 4) (a.toNat % 4 * 16 + b.toNat / 16) (b.toNat % 16 * 4 + c.toNat / 64)
      (c.toNat % 64) = [a, b, c] := by
  have ha : a.toNat < 256 := a.toNat_lt
  have hb : b.toNat < 256 := b.toNat_lt
  have hc : c.toNat < 256 := c.toNat_lt
  have hfirst : a.toNat / 4 * 4 + (a.toNat % 4 * 16 + b.toNat / 16) / 16 = a.toNat := by omega
  have hsecond : (a.toNat % 4 * 16 + b.toNat / 16) % 16 * 16 +
      (b.toNat % 16 * 4 + c.toNat / 64) / 4 = b.toNat := by omega
  have hthird : (b.toNat % 16 * 4 + c.toNat / 64) % 4 * 64 + c.toNat % 64 = c.toNat := by omega
  rw [triple, hfirst, hsecond, hthird, UInt8.ofNat_toNat, UInt8.ofNat_toNat, UInt8.ofNat_toNat]

theorem quad_triple {w x y z : Nat} (hw : w < 64) (hx : x < 64) (hy : y < 64) (hz : z < 64) :
    quad (UInt8.ofNat (w * 4 + x / 16)) (UInt8.ofNat (x % 16 * 16 + y / 4))
      (UInt8.ofNat (y % 4 * 64 + z)) = [w, x, y, z] := by
  have hbyte : ∀ n < 256, (UInt8.ofNat n).toNat = n := fun n h => UInt8.toNat_ofNat_of_lt' h
  rw [quad, hbyte _ (by omega), hbyte _ (by omega), hbyte _ (by omega)]
  simp only [List.cons.injEq, and_true]
  omega

/-- The sextets of a byte string.  Bits that are missing at the end are zero. -/
def sextetsOf : List UInt8 → List Nat
  | [] => []
  | [a] => (quad a 0 0).take 2
  | [a, b] => (quad a b 0).take 3
  | a :: b :: c :: rest => quad a b c ++ sextetsOf rest

theorem sextetsOf_lt {bytes : List UInt8} : ∀ n ∈ sextetsOf bytes, n < 64 := by
  fun_induction sextetsOf bytes with
  | case1 => exact fun n hn => (by cases hn)
  | case2 a => exact fun n hn => quad_lt (List.mem_of_mem_take hn)
  | case3 a b => exact fun n hn => quad_lt (List.mem_of_mem_take hn)
  | case4 a b c rest ih =>
      intro n hn
      rcases List.mem_append.mp hn with hn | hn
      · exact quad_lt hn
      · exact ih n hn

theorem length_sextetsOf (bytes : List UInt8) :
    (sextetsOf bytes).length = (4 * bytes.length + 2) / 3 := by
  fun_induction sextetsOf bytes with
  | case1 => rfl
  | case2 a => simp [quad]
  | case3 a b => simp [quad]
  | case4 a b c rest ih =>
      rw [List.length_append, ih, quad]
      simp only [List.length_cons, List.length_nil]
      omega

theorem sextetsOf_triple {w x y z : Nat} (hw : w < 64) (hx : x < 64) (hy : y < 64) (hz : z < 64)
    (rest : List UInt8) :
    sextetsOf (triple w x y z ++ rest) = [w, x, y, z] ++ sextetsOf rest := by
  show quad _ _ _ ++ sextetsOf rest = _
  rw [quad_triple hw hx hy hz]

/-- How many symbols are missing from the last four. -/
def padding (length : Nat) : Nat := (3 - length % 3) % 3

/-- Symbols and padding of the last group are four. -/
theorem length_add_padding {bytes : List UInt8} (hne : bytes ≠ []) (hlen : bytes.length ≤ 3) :
    (sextetsOf bytes).length + padding bytes.length = 4 := by
  have hpos := List.length_pos_iff.mpr hne
  rw [length_sextetsOf, padding]
  omega

theorem padding_add_three (n : Nat) : padding (n + 3) = padding n := by
  rw [padding, padding, Nat.add_mod_right]

/-! ### The code -/

section Code

variable (A : Alphabet)

def encode (bytes : List UInt8) : List Char :=
  (sextetsOf bytes).map A.symbol ++ List.replicate (padding bytes.length) '='

/-- Two to four sextets.  The bits that make no byte have to be zero. -/
def decodeRest : List Nat → Option (List UInt8)
  | [w, x] => if x % 16 = 0 then some ((triple w x 0 0).take 1) else none
  | [w, x, y] => if y % 4 = 0 then some ((triple w x y 0).take 2) else none
  | [w, x, y, z] => some (triple w x y z)
  | _ => none

/-- The last four symbols or fewer, with what there is of the padding. -/
def decodeLast (text : List Char) : Option (List UInt8) :=
  if text.isEmpty then some []
  else if (text.dropWhile (· ≠ '=')).all (· = '=') then do
    let sextets ← (text.takeWhile (· ≠ '=')).mapM A.sextet
    decodeRest sextets
  else none

def decode : List Char → Option (List UInt8)
  | a :: b :: c :: d :: e :: rest => do
    let w ← A.sextet a
    let x ← A.sextet b
    let y ← A.sextet c
    let z ← A.sextet d
    let more ← decode (e :: rest)
    some (triple w x y z ++ more)
  | text => decodeLast A text

end Code

theorem decodeRest_eq_some {sextets : List Nat} {bytes : List UInt8}
    (hlt : ∀ n ∈ sextets, n < 64) :
    decodeRest sextets = some bytes ↔
      bytes ≠ [] ∧ bytes.length ≤ 3 ∧ sextets = sextetsOf bytes := by
  constructor
  · intro h
    unfold decodeRest at h
    split at h
    next w x =>
      obtain ⟨hw, hlt⟩ := List.forall_mem_cons.mp hlt
      obtain ⟨hx, _⟩ := List.forall_mem_cons.mp hlt
      split at h
      next hzero =>
        cases h
        have hquad := quad_triple hw hx (y := 0) (z := 0) (by omega) (by omega)
        rw [hzero] at hquad
        refine ⟨List.cons_ne_nil _ _, Nat.le_of_ble_eq_true rfl, ?_⟩
        exact (congrArg (List.take 2) hquad).symm
      next => cases h
    next w x y =>
      obtain ⟨hw, hlt⟩ := List.forall_mem_cons.mp hlt
      obtain ⟨hx, hlt⟩ := List.forall_mem_cons.mp hlt
      obtain ⟨hy, _⟩ := List.forall_mem_cons.mp hlt
      split at h
      next hzero =>
        cases h
        have hquad := quad_triple hw hx hy (z := 0) (by omega)
        rw [hzero] at hquad
        refine ⟨List.cons_ne_nil _ _, Nat.le_of_ble_eq_true rfl, ?_⟩
        exact (congrArg (List.take 3) hquad).symm
      next => cases h
    next w x y z =>
      cases h
      obtain ⟨hw, hlt⟩ := List.forall_mem_cons.mp hlt
      obtain ⟨hx, hlt⟩ := List.forall_mem_cons.mp hlt
      obtain ⟨hy, hlt⟩ := List.forall_mem_cons.mp hlt
      obtain ⟨hz, _⟩ := List.forall_mem_cons.mp hlt
      refine ⟨List.cons_ne_nil _ _, Nat.le_refl 3, ?_⟩
      have hsextets := sextetsOf_triple hw hx hy hz []
      rw [List.append_nil] at hsextets
      exact hsextets.symm
    next => cases h
  · rintro ⟨hne, hlen, rfl⟩
    match bytes, hne, hlen with
    | [a], _, _ =>
        have hzero : (a.toNat % 4 * 16 + (0 : UInt8).toNat / 16) % 16 = 0 := by
          rw [UInt8.toNat_zero]
          omega
        show (if _ then _ else none) = _
        rw [if_pos hzero]
        exact congrArg some (congrArg (List.take 1) (triple_quad a 0 0))
    | [a, b], _, _ =>
        have hzero : (b.toNat % 16 * 4 + (0 : UInt8).toNat / 64) % 4 = 0 := by
          rw [UInt8.toNat_zero]
          omega
        show (if _ then _ else none) = _
        rw [if_pos hzero]
        exact congrArg some (congrArg (List.take 2) (triple_quad a b 0))
    | [a, b, c], _, _ => exact congrArg some (triple_quad a b c)

section Code

variable {A : Alphabet}

/-- Symbols and padding of a text are told apart. -/
theorem decodeLast_append {sextets : List Nat} (hlt : ∀ n ∈ sextets, n < 64)
    (hne : sextets ≠ []) (k : Nat) :
    decodeLast A (sextets.map A.symbol ++ List.replicate k '=') = decodeRest sextets := by
  have hsymbols : ∀ c ∈ sextets.map A.symbol, decide (c ≠ '=') = true := by
    intro c hc
    obtain ⟨n, hn, rfl⟩ := List.mem_map.mp hc
    exact decide_eq_true (Alphabet.symbol_ne_padding (hlt n hn))
  have htake : (sextets.map A.symbol ++ List.replicate k '=').takeWhile (· ≠ '=') =
      sextets.map A.symbol := by
    rw [List.takeWhile_append_of_pos hsymbols]
    cases k with
    | zero => exact List.append_nil _
    | succ k => rw [List.replicate_succ, List.takeWhile_cons_of_neg (by decide), List.append_nil]
  have hdrop : (sextets.map A.symbol ++ List.replicate k '=').dropWhile (· ≠ '=') =
      List.replicate k '=' := by
    rw [List.dropWhile_append_of_pos hsymbols]
    cases k with
    | zero => rfl
    | succ k => rw [List.replicate_succ, List.dropWhile_cons_of_neg (by decide)]
  have hempty : (sextets.map A.symbol ++ List.replicate k '=').isEmpty = false := by
    rw [List.isEmpty_eq_false_iff]
    intro hnil
    exact hne (List.map_eq_nil_iff.mp (List.append_eq_nil_iff.mp hnil).1)
  have hpadding : (List.replicate k '=').all (· = '=') = true := by
    rw [List.all_eq_true]
    intro c hc
    exact decide_eq_true (List.eq_of_mem_replicate hc)
  rw [decodeLast, hempty, if_neg Bool.false_ne_true, htake, hdrop, hpadding, if_pos rfl,
    Alphabet.mapM_sextet.mpr ⟨hlt, rfl⟩]
  rfl

/-- What the decoder accepts at the end has the shape of symbols and padding. -/
theorem exists_of_decodeLast {text : List Char} {bytes : List UInt8}
    (h : decodeLast A text = some bytes) :
    text = [] ∧ bytes = [] ∨ ∃ sextets k, (∀ n ∈ sextets, n < 64) ∧
      text = sextets.map A.symbol ++ List.replicate k '=' ∧ decodeRest sextets = some bytes := by
  unfold decodeLast at h
  split at h
  next hempty =>
    cases h
    exact Or.inl ⟨List.isEmpty_iff.mp hempty, rfl⟩
  next =>
    split at h
    next hpadding =>
      obtain ⟨sextets, hsextets, h⟩ := Option.bind_eq_some_iff.mp h
      obtain ⟨hlt, htake⟩ := Alphabet.mapM_sextet.mp hsextets
      refine Or.inr ⟨sextets, (text.dropWhile (· ≠ '=')).length, hlt, ?_, h⟩
      have hdrop : text.dropWhile (· ≠ '=') =
          List.replicate (text.dropWhile (· ≠ '=')).length '=' := by
        refine List.eq_replicate_iff.mpr ⟨rfl, fun c hc => ?_⟩
        exact of_decide_eq_true (List.all_eq_true.mp hpadding c hc)
      rw [← htake, ← hdrop, List.takeWhile_append_dropWhile]
    next => cases h

theorem decodeLast_eq_some {text : List Char} (htext : text.length ≤ 4) {bytes : List UInt8} :
    decodeLast A text = some bytes ↔ bytes.length ≤ 3 ∧ ∃ k ≤ padding bytes.length,
      text = (sextetsOf bytes).map A.symbol ++ List.replicate k '=' := by
  constructor
  · intro h
    rcases exists_of_decodeLast h with ⟨rfl, rfl⟩ | ⟨sextets, k, hlt, rfl, hrest⟩
    · exact ⟨by decide, 0, Nat.zero_le _, rfl⟩
    · obtain ⟨hne, hlen, rfl⟩ := (decodeRest_eq_some hlt).mp hrest
      refine ⟨hlen, k, ?_, rfl⟩
      have hfour := length_add_padding hne hlen
      rw [List.length_append, List.length_map, List.length_replicate] at htext
      omega
  · rintro ⟨hlen, k, hk, rfl⟩
    by_cases hne : bytes = []
    · subst hne
      rw [Nat.le_zero.mp hk]
      rfl
    · have hsextets : sextetsOf bytes ≠ [] := by
        intro hnil
        have hfour := length_add_padding hne hlen
        rw [hnil, List.length_nil] at hfour
        have hpad : padding bytes.length < 3 := Nat.mod_lt _ (by decide)
        omega
      rw [decodeLast_append sextetsOf_lt hsextets, decodeRest_eq_some sextetsOf_lt]
      exact ⟨hne, hlen, rfl⟩

theorem decode_of_short {text : List Char} (h : text.length ≤ 4) :
    decode A text = decodeLast A text := by
  unfold decode
  split
  next a b c d e rest =>
    simp only [List.length_cons] at h
    omega
  next => rfl

theorem decode_short_bytes {bytes : List UInt8} (hlen : bytes.length ≤ 3) {k : Nat}
    (hk : k ≤ padding bytes.length) :
    decode A ((sextetsOf bytes).map A.symbol ++ List.replicate k '=') = some bytes := by
  have hshort : ((sextetsOf bytes).map A.symbol ++ List.replicate k '=').length ≤ 4 := by
    rw [List.length_append, List.length_map, List.length_replicate]
    by_cases hne : bytes = []
    · subst hne
      rw [Nat.le_zero.mp hk]
      decide
    · have hfour := length_add_padding hne hlen
      omega
  rw [decode_of_short hshort, decodeLast_eq_some hshort]
  exact ⟨hlen, k, hk, rfl⟩

theorem decode_quad (a b c : UInt8) {text : List Char} (htext : text ≠ []) {more : List UInt8}
    (h : decode A text = some more) :
    decode A ((quad a b c).map A.symbol ++ text) = some (a :: b :: c :: more) := by
  have hlt : ∀ n ∈ quad a b c, n < 64 := fun n hn => quad_lt hn
  have hread : ∀ n ∈ quad a b c, A.sextet (A.symbol n) = some n :=
    fun n hn => Alphabet.sextet_symbol (hlt n hn)
  simp only [quad, List.forall_mem_cons] at hread
  obtain ⟨hw, hx, hy, hz, _⟩ := hread
  obtain ⟨e, rest, rfl⟩ := List.exists_cons_of_ne_nil htext
  rw [quad, List.map_cons, List.map_cons, List.map_cons, List.map_cons, List.map_nil,
    List.cons_append, List.cons_append, List.cons_append, List.cons_append, List.nil_append, decode,
    hw, hx, hy, hz, h]
  show some (triple _ _ _ _ ++ more) = _
  rw [triple_quad]
  rfl

/-- The texts of a byte string are its symbols with a part of its padding. -/
theorem decode_eq_some {text : List Char} {bytes : List UInt8} :
    decode A text = some bytes ↔ ∃ k ≤ padding bytes.length,
      text = (sextetsOf bytes).map A.symbol ++ List.replicate k '=' := by
  constructor
  · intro h
    fun_induction decode A text generalizing bytes with
    | case1 a b c d e rest ih =>
        obtain ⟨w, hw, h⟩ := Option.bind_eq_some_iff.mp h
        obtain ⟨x, hx, h⟩ := Option.bind_eq_some_iff.mp h
        obtain ⟨y, hy, h⟩ := Option.bind_eq_some_iff.mp h
        obtain ⟨z, hz, h⟩ := Option.bind_eq_some_iff.mp h
        obtain ⟨more, hmore, h⟩ := Option.bind_eq_some_iff.mp h
        cases h
        obtain ⟨k, hk, hrest⟩ := ih hmore
        obtain ⟨hwlt, rfl⟩ := Alphabet.sextet_eq_some.mp hw
        obtain ⟨hxlt, rfl⟩ := Alphabet.sextet_eq_some.mp hx
        obtain ⟨hylt, rfl⟩ := Alphabet.sextet_eq_some.mp hy
        obtain ⟨hzlt, rfl⟩ := Alphabet.sextet_eq_some.mp hz
        refine ⟨k, ?_, ?_⟩
        · rw [List.length_append, Nat.add_comm]
          exact Nat.le_trans hk (Nat.le_of_eq (padding_add_three more.length).symm)
        · rw [sextetsOf_triple hwlt hxlt hylt hzlt, List.map_append, List.append_assoc, ← hrest]
          rfl
    | case2 text hshort =>
        have hlen : text.length ≤ 4 := by
          match text, hshort with
          | [], _ | [_], _ | [_, _], _ | [_, _, _], _ | [_, _, _, _], _ =>
              exact Nat.le_of_ble_eq_true rfl
          | a :: b :: c :: d :: e :: rest, hshort => exact absurd rfl (hshort a b c d e rest)
        exact ((decodeLast_eq_some hlen).mp h).2
  · rintro ⟨k, hk, rfl⟩
    induction bytes using sextetsOf.induct with
    | case1 => exact decode_short_bytes (by decide) hk
    | case2 a => exact decode_short_bytes (Nat.le_of_ble_eq_true rfl) hk
    | case3 a b => exact decode_short_bytes (Nat.le_of_ble_eq_true rfl) hk
    | case4 a b c rest ih =>
        by_cases hrest : rest = []
        · subst hrest
          have hlen : [a, b, c].length ≤ 3 := Nat.le_refl 3
          exact decode_short_bytes hlen hk
        · have hkrest : k ≤ padding rest.length :=
            Nat.le_trans hk (Nat.le_of_eq (padding_add_three rest.length))
          have htext : (sextetsOf rest).map A.symbol ++ List.replicate k '=' ≠ [] := by
            intro hnil
            have hdecode := ih hkrest
            rw [hnil] at hdecode
            cases hdecode
            exact hrest rfl
          rw [sextetsOf, List.map_append, List.append_assoc]
          exact decode_quad a b c htext (ih hkrest)

end Code

end Base64
end Library
end WgKotlin
