import Mathlib.Data.List.TakeDrop
import Mathlib.Data.List.Forall2

/-!
# Streams that arrive in pieces

A stream delivers its content in pieces of any size and then ends, cleanly or
with a failure.  One `read` returns at most the next piece.  `readExact` reads on
until its buffer is full, so its result depends on the content of the stream and
not on the pieces, and with it that of every reader that is built from it.
-/

namespace WgKotlin
namespace Library

variable {ε α β : Type}

/-- What is still to come of a stream: its pieces, and a failure if it does not
end cleanly. -/
structure InputStream (ε α : Type) where
  pieces : List (List α)
  nonempty : ∀ piece ∈ pieces, piece ≠ []
  failure : Option ε

/-- Why a buffer was not filled. -/
inductive ReadError (ε : Type)
  | unexpectedEof
  | failed (error : ε)
  deriving DecidableEq, Repr

namespace InputStream

def content (s : InputStream ε α) : List α := s.pieces.flatten

/-- One read into a buffer of `n` places.  It returns nothing at a clean end. -/
def read (n : Nat) : InputStream ε α → Except ε (List α × InputStream ε α)
  | ⟨[], h, none⟩ => .ok ([], ⟨[], h, none⟩)
  | ⟨[], _, some e⟩ => .error e
  | ⟨piece :: rest, h, failure⟩ =>
    if hn : n < piece.length then
      .ok (piece.take n, {
        pieces := piece.drop n :: rest
        nonempty := by
          intro q hq
          rcases List.mem_cons.mp hq with rfl | hq
          · simpa using hn
          · exact h q (List.mem_cons_of_mem _ hq)
        failure := failure })
    else
      .ok (piece, {
        pieces := rest
        nonempty := fun q hq => h q (List.mem_cons_of_mem _ hq)
        failure := failure })

/-- Read until `n` places are filled.  Every read fills at least one of them, so
`n` rounds are enough. -/
def readRounds : Nat → Nat → InputStream ε α →
    Except (ReadError ε) (List α × InputStream ε α)
  | _, 0, s => .ok ([], s)
  | 0, _ + 1, _ => .error .unexpectedEof
  | rounds + 1, n + 1, s =>
    match s.read (n + 1) with
    | .error e => .error (.failed e)
    | .ok ([], _) => .error .unexpectedEof
    | .ok (a :: as, s) =>
      match readRounds rounds (n - as.length) s with
      | .error e => .error e
      | .ok (rest, s) => .ok (a :: as ++ rest, s)

def readExact (n : Nat) (s : InputStream ε α) :
    Except (ReadError ε) (List α × InputStream ε α) :=
  readRounds n n s

/-- Read `k` items, one after the other. -/
def readMany {σ : Type} (read : σ → Except ε (β × σ)) : Nat → σ → Except ε (List β × σ)
  | 0, s => .ok ([], s)
  | k + 1, s =>
    match read s with
    | .error e => .error e
    | .ok (b, s) =>
      match readMany read k s with
      | .error e => .error e
      | .ok (bs, s) => .ok (b :: bs, s)

/-! ### Single reads -/

/-- The stream behind the next `n` places. -/
structure Skips (n : Nat) (s t : InputStream ε α) : Prop where
  content : t.content = s.content.drop n
  failure : t.failure = s.failure

/-- How a reader fails that needs more than there is. -/
def ending (s : InputStream ε α) : ReadError ε :=
  match s.failure with
  | none => .unexpectedEof
  | some e => .failed e

theorem Skips.trans {m n : Nat} {s t u : InputStream ε α} (h : Skips m s t) (h' : Skips n t u) :
    Skips (m + n) s u where
  content := by rw [h'.content, h.content, List.drop_drop]
  failure := h'.failure.trans h.failure

theorem Skips.ending_eq {n : Nat} {s t : InputStream ε α} (h : Skips n s t) :
    t.ending = s.ending := by
  rw [ending, h.failure, ending]

theorem pieces_eq_nil {s : InputStream ε α} (h : s.content = []) : s.pieces = [] := by
  cases hp : s.pieces with
  | nil => rfl
  | cons piece rest =>
      have hmem : piece ∈ s.pieces := by rw [hp]; exact List.mem_cons_self
      exact absurd (List.flatten_eq_nil_iff.mp h piece hmem) (s.nonempty piece hmem)

theorem read_of_empty {n : Nat} {s : InputStream ε α} (h : s.content = []) :
    s.read n = match s.failure with
      | none => .ok ([], s)
      | some e => .error e := by
  have hpieces := pieces_eq_nil h
  obtain ⟨pieces, hne, failure⟩ := s
  cases hpieces
  cases failure with
  | none => rfl
  | some e => rfl

/-- A read of a stream that has not ended fills between one place and all. -/
theorem read_of_content {n : Nat} {s : InputStream ε α} (h : s.content ≠ []) :
    ∃ a as t, s.read (n + 1) = .ok (a :: as, t) ∧ as.length ≤ n ∧
      a :: as = s.content.take (as.length + 1) ∧ Skips (as.length + 1) s t := by
  obtain ⟨pieces, hne, failure⟩ := s
  cases pieces with
  | nil => exact absurd rfl h
  | cons piece rest =>
      cases piece with
      | nil => exact absurd rfl (hne [] List.mem_cons_self)
      | cons a as =>
          rw [read]
          -- A piece that does not fit is cut, and its rest becomes the next piece.
          by_cases hn : n + 1 < (a :: as).length
          · have hlen : (as.take n).length = n := by
              rw [List.length_cons] at hn
              rw [List.length_take]
              omega
            rw [dif_pos hn]
            refine ⟨a, as.take n, _, rfl, Nat.le_of_eq hlen, ?_, ?_, rfl⟩
            · rw [hlen, content, List.flatten_cons, List.take_append_of_le_length (by omega),
                List.take_succ_cons]
            · rw [hlen, content, content, List.flatten_cons, List.flatten_cons,
                List.drop_append_of_le_length (by omega)]
          · rw [dif_neg hn]
            rw [List.length_cons] at hn
            refine ⟨a, as, _, rfl, by omega, ?_, ?_, rfl⟩
            · rw [content, List.flatten_cons, ← List.length_cons (a := a), List.take_left]
            · rw [content, content, List.flatten_cons, ← List.length_cons (a := a),
                List.drop_left]

/-! ### Full buffers -/

theorem readRounds_of_le {rounds n : Nat} {s : InputStream ε α} (hn : n ≤ rounds)
    (h : n ≤ s.content.length) :
    ∃ t, readRounds rounds n s = .ok (s.content.take n, t) ∧ Skips n s t := by
  -- A round fills `as.length + 1` places and leaves `n - as.length` for the others.
  induction rounds generalizing n s with
  | zero =>
      obtain rfl : n = 0 := by omega
      exact ⟨s, rfl, rfl, rfl⟩
  | succ rounds ih =>
      cases n with
      | zero => exact ⟨s, rfl, rfl, rfl⟩
      | succ n =>
          have hne : s.content ≠ [] := List.ne_nil_of_length_pos (by omega)
          obtain ⟨a, as, t, hread, hlen, htake, hskips⟩ := read_of_content (n := n) hne
          have hrest : n - as.length ≤ t.content.length := by
            rw [hskips.content, List.length_drop]
            omega
          obtain ⟨u, hrounds, hskips'⟩ := ih (by omega) hrest
          have hsum : as.length + 1 + (n - as.length) = n + 1 := by omega
          refine ⟨u, ?_, hsum ▸ hskips.trans hskips'⟩
          rw [readRounds, hread]
          simp only [hrounds]
          rw [htake, hskips.content, ← List.take_add, hsum]

theorem readRounds_of_lt {rounds n : Nat} {s : InputStream ε α} (hn : n ≤ rounds)
    (h : s.content.length < n) : readRounds rounds n s = .error s.ending := by
  induction rounds generalizing n s with
  | zero => omega
  | succ rounds ih =>
      cases n with
      | zero => omega
      | succ n =>
          rw [readRounds]
          by_cases hne : s.content = []
          · rw [read_of_empty hne, ending]
            cases s.failure with
            | none => rfl
            | some e => rfl
          · obtain ⟨a, as, t, hread, hlen, htake, hskips⟩ := read_of_content (n := n) hne
            have hle : as.length + 1 ≤ s.content.length := by
              have hcount := congrArg List.length htake
              rw [List.length_cons, List.length_take] at hcount
              omega
            have hrest : t.content.length < n - as.length := by
              rw [hskips.content, List.length_drop]
              omega
            rw [hread]
            simp only [ih (by omega) hrest, hskips.ending_eq]

/-- A stream with enough content fills the buffer, however it arrives. -/
theorem readExact_of_le {n : Nat} {s : InputStream ε α} (h : n ≤ s.content.length) :
    ∃ t, s.readExact n = .ok (s.content.take n, t) ∧ Skips n s t :=
  readRounds_of_le (Nat.le_refl n) h

theorem readExact_of_lt {n : Nat} {s : InputStream ε α} (h : s.content.length < n) :
    s.readExact n = .error s.ending :=
  readRounds_of_lt (Nat.le_refl n) h

/-! ### Items one after the other -/

/-- The reader takes exactly these places off the front of a stream and returns
the item. -/
def Delivers {ε' : Type} (read : InputStream ε α → Except ε' (β × InputStream ε α))
    (places : List α) (b : β) : Prop :=
  ∀ s rest, s.content = places ++ rest →
    ∃ t, read s = .ok (b, t) ∧ t.content = rest ∧ t.failure = s.failure

theorem readMany_of_delivers {ε' : Type}
    {read : InputStream ε α → Except ε' (β × InputStream ε α)} {items : List (List α)}
    {bs : List β} (h : List.Forall₂ (Delivers read) items bs) {s : InputStream ε α}
    {rest : List α} (hs : s.content = items.flatten ++ rest) :
    ∃ t, readMany read bs.length s = .ok (bs, t) ∧ t.content = rest ∧ t.failure = s.failure := by
  induction h generalizing s with
  | nil => exact ⟨s, rfl, hs, rfl⟩
  | cons hitem _ ih =>
      rw [List.flatten_cons, List.append_assoc] at hs
      obtain ⟨t, hread, ht, hfailure⟩ := hitem s _ hs
      obtain ⟨u, hmany, hu, hfailure'⟩ := ih ht
      refine ⟨u, ?_, hu, hfailure'.trans hfailure⟩
      rw [List.length_cons, readMany, hread]
      simp only [hmany]

end InputStream

end Library
end WgKotlin
