import WgKotlin.Proto
import WgKotlin.Library.Text
import WgKotlin.Library.Except
import WgKotlin.Library.Numerals
import WgKotlin.Library.Words

/-!
# The Kotlin library as the client uses it

Exceptions, indexing that can fail, and the text functions the client calls.
-/

namespace WgKotlin

/-- The exceptions of the client, by class. -/
inductive Throwable
  | illegalArgument (message : String)
  | illegalState (message : String)
  | indexOutOfBounds
  | unknownHost (host : String)
  | noSuchElement (message : String)
  deriving DecidableEq, Repr

namespace Kotlin

/-- `require(condition) { message }` -/
def require (condition : Bool) (message : String) : Except Throwable Unit :=
  if condition then .ok () else .error (.illegalArgument message)

theorem require_eq_ok {condition : Bool} {message : String} {u : Unit} :
    require condition message = .ok u ↔ condition = true := by
  cases condition
  · exact ⟨fun h => (by cases h), fun h => (by cases h)⟩
  · exact ⟨fun _ => rfl, fun _ => rfl⟩

/-- `error(message)` -/
def error {α : Type} (message : String) : Except Throwable α := .error (.illegalState message)

/-- `UInt.toInt()`: the same bits read as a signed number. -/
def toInt (u : UInt32) : Int := u.toBitVec.toInt

theorem toInt_of_lt {u : UInt32} (h : u.toNat < 2 ^ 31) : toInt u = u.toNat := by
  have h' : u.toBitVec.toNat < 2 ^ 31 := h
  rw [toInt, BitVec.toInt_eq_toNat_of_lt (by omega)]
  rfl

theorem toInt_neg {u : UInt32} (h : 2 ^ 31 ≤ u.toNat) : toInt u < 0 := by
  have h' : 2 ^ 31 ≤ u.toBitVec.toNat := h
  have hlt : u.toBitVec.toNat < 2 ^ 32 := u.toBitVec.isLt
  rw [toInt, BitVec.toInt_eq_toNat_cond]
  omega

/-- `Char.isWhitespace()`: the separators, and the control characters that count as such. -/
def isWhitespace (c : Char) : Bool :=
  let n := c.toNat
  (9 ≤ n && n ≤ 13) || (28 ≤ n && n ≤ 32) || n == 0xA0 || n == 0x1680 ||
    (0x2000 ≤ n && n ≤ 0x200A) || n == 0x2028 || n == 0x2029 || n == 0x202F || n == 0x205F ||
    n == 0x3000

def isBlank (s : String) : Bool := s.toList.all isWhitespace

/-- `bytes[index]` -/
def byteAt (bytes : Bytes) (index : Int) : Except Throwable UInt8 :=
  if index < 0 then .error .indexOutOfBounds
  else
    match bytes[index.toNat]? with
    | some b => .ok b
    | none => .error .indexOutOfBounds

/-- `bytes[index] = b` -/
def setByte (bytes : Bytes) (index : Int) (b : UInt8) : Except Throwable Bytes :=
  if index < 0 ∨ (bytes.length : Int) ≤ index then .error .indexOutOfBounds
  else .ok (bytes.set index.toNat b)

theorem byteAt_natCast {bytes : Bytes} {i : Nat} (h : i < bytes.length) :
    byteAt bytes (i : Int) = .ok (bytes.getD i 0) := by
  have h0 : ¬ ((i : Int) < 0) := by omega
  rw [byteAt, if_neg h0, Int.toNat_natCast, List.getElem?_eq_getElem h]
  simp [List.getD, h]

theorem byteAt_of_length_le {bytes : Bytes} {i : Nat} (h : bytes.length ≤ i) :
    byteAt bytes (i : Int) = .error .indexOutOfBounds := by
  have h0 : ¬ ((i : Int) < 0) := by omega
  rw [byteAt, if_neg h0, Int.toNat_natCast, List.getElem?_eq_none h]

theorem setByte_natCast {bytes : Bytes} {i : Nat} (h : i < bytes.length) (b : UInt8) :
    setByte bytes (i : Int) b = .ok (bytes.set i b) := by
  have h0 : ¬ ((i : Int) < 0 ∨ (bytes.length : Int) ≤ i) := by omega
  rw [setByte, if_neg h0, Int.toNat_natCast]

/-- `copyOfRange(fromIndex, toIndex)` for indices inside the array. -/
def copyOfRange (bytes : Bytes) (fromIndex toIndex : Nat) : Bytes :=
  (bytes.drop fromIndex).take (toIndex - fromIndex)

/-- `n.toString(16)` for a number that is not negative. -/
def toString16 (n : Nat) : String := String.ofList (Nat.toDigits 16 n)

/-- `s.padStart(length, padChar)` -/
def padStart (s : String) (length : Nat) (padChar : Char) : String :=
  String.ofList (List.replicate (length - s.toList.length) padChar ++ s.toList)

/-- `parts.joinToString(separator)` for a one-character separator. -/
def joinToString (separator : Char) (parts : List String) : String :=
  String.ofList ([separator].intercalate (parts.map String.toList))

theorem joinToString_inj {c : Char} {l m : List String} (hl : ∀ s ∈ l, c ∉ s.toList)
    (hm : ∀ s ∈ m, c ∉ s.toList) (hlnil : l ≠ []) (hmnil : m ≠ [])
    (h : joinToString c l = joinToString c m) : l = m := by
  have hfields : ∀ {parts : List String}, (∀ s ∈ parts, c ∉ s.toList) →
      ∀ f ∈ parts.map String.toList, c ∉ f := by
    intro parts hparts f hf
    obtain ⟨s, hs, rfl⟩ := List.mem_map.mp hf
    exact hparts s hs
  have hmap := Library.intercalate_inj (hfields hl) (hfields hm) (by simpa using hlnil)
    (by simpa using hmnil) (String.ofList_injective h)
  exact List.map_injective_iff.mpr (fun _ _ e => String.toList_inj.mp e) hmap

theorem not_mem_joinToString {c d : Char} {parts : List String} (hne : d ≠ c)
    (hparts : ∀ s ∈ parts, d ∉ s.toList) : d ∉ (joinToString c parts).toList := by
  intro h
  rw [joinToString, String.toList_ofList] at h
  rcases Library.mem_intercalate h with he | ⟨f, hf, hd⟩
  · exact hne he
  · obtain ⟨s, hs, rfl⟩ := List.mem_map.mp hf
    exact hparts s hs hd

theorem separator_mem_joinToString {c : Char} {parts : List String} (h : 2 ≤ parts.length) :
    c ∈ (joinToString c parts).toList := by
  match parts, h with
  | x :: y :: rest, _ =>
      rw [joinToString, String.toList_ofList, List.map_cons, List.map_cons,
        List.intercalate_cons_cons]
      simp

/-- `buildString` over texts appended one after another. -/
def appendAll (parts : List String) : String := String.ofList (parts.flatMap String.toList)

/-- The first code points of the runs of ten decimal digits that
`Character.digit` accepts and that fit in one UTF-16 unit. -/
def decimalZeros : List Nat :=
  [0x0030, 0x0660, 0x06f0, 0x07c0, 0x0966, 0x09e6, 0x0a66, 0x0ae6, 0x0b66, 0x0be6, 0x0c66,
    0x0ce6, 0x0d66, 0x0de6, 0x0e50, 0x0ed0, 0x0f20, 0x1040, 0x1090, 0x17e0, 0x1810, 0x1946,
    0x19d0, 0x1a80, 0x1a90, 0x1b50, 0x1bb0, 0x1c40, 0x1c50, 0xa620, 0xa8d0, 0xa900, 0xa9d0,
    0xa9f0, 0xaa50, 0xabf0, 0xff10]

/-- `Character.digit(c, 10)` -/
def digitOf (c : Char) : Option Nat :=
  (decimalZeros.find? fun first => first ≤ c.toNat && c.toNat < first + 10).map (c.toNat - ·)

theorem digitOf_of_isDigit {c : Char} (h : c.isDigit = true) :
    digitOf c = some (c.toNat - '0'.toNat) := by
  have hc := Library.toNat_of_isDigit h
  have hfirst : decimalZeros.find?
      (fun first => first ≤ c.toNat && c.toNat < first + 10) = some 0x30 := by
    refine List.find?_cons_of_pos ?_
    rw [Bool.and_eq_true, decide_eq_true_eq, decide_eq_true_eq]
    omega
  rw [digitOf, hfirst]
  rfl

def parseUInt (acc : Nat) : List Char → Option UInt32
  | [] => some (UInt32.ofNat acc)
  | c :: rest =>
    match digitOf c with
    | none => none
    | some digit =>
      if acc * 10 + digit < 2 ^ 32 then parseUInt (acc * 10 + digit) rest else none

/-- `s.toUIntOrNull()`.  A leading plus sign is accepted before digits. -/
def toUIntOrNull (s : String) : Option UInt32 :=
  match s.toList with
  | [] => none
  | first :: rest =>
    if first < '0' then
      if rest = [] ∨ first ≠ '+' then none else parseUInt 0 rest
    else parseUInt 0 (first :: rest)

/-- `s.split("/", limit = 2)`: the text before the first slash and, if there is
one, the text after it. -/
def splitSlash (s : String) : String × Option String :=
  match s.toList.span (· ≠ '/') with
  | (before, []) => (String.ofList before, none)
  | (before, _ :: after) => (String.ofList before, some (String.ofList after))

/-- `s.substringAfterLast(delimiter)`: all of the text if the delimiter is not in it. -/
def substringAfterLast (delimiter : Char) (s : List Char) : List Char :=
  (Library.afterLast delimiter s).getD s

/-- `s.trim()` -/
def trim (s : List Char) : List Char := Library.trimBy isWhitespace s

/-- The class `\s` of a regular expression. -/
def isRegexSpace (c : Char) : Bool := (9 ≤ c.toNat && c.toNat ≤ 13) || c.toNat == 32

/-- `s.split(Regex("\\s+"))` -/
def splitSpaces (s : List Char) : List (List Char) := Library.splitRuns isRegexSpace s

/-- `list[index]` -/
def elementAt {α : Type} (list : List α) (index : Nat) : Except Throwable α :=
  match list[index]? with
  | some a => .ok a
  | none => .error .indexOutOfBounds

/-- `NumberFormatException` -/
def numberFormat (s : List Char) : Throwable :=
  .illegalArgument ("For input string: \"" ++ String.ofList s ++ "\"")

def digitOrThrow (s : List Char) (c : Char) : Except Throwable Nat :=
  match digitOf c with
  | some digit => .ok digit
  | none => .error (numberFormat s)

/-- The digits of `java.lang.Long.parseLong(s)`. -/
def parseLong (s : List Char) (limit : Nat) (digits : List Char) : Except Throwable Nat :=
  Library.readBounded 10 limit (digitOrThrow s) (numberFormat s) digits

/-- `s.toLong()` -/
def toLong (s : List Char) : Except Throwable Int :=
  match s with
  | [] => .error (numberFormat s)
  | first :: rest =>
    if first < '0' then
      if rest = [] ∨ (first ≠ '-' ∧ first ≠ '+') then .error (numberFormat s)
      else if first = '+' then (parseLong s (2 ^ 63) rest).map Int.ofNat
      else (parseLong s (2 ^ 63 + 1) rest).map fun n => - Int.ofNat n
    else (parseLong s (2 ^ 63) (first :: rest)).map Int.ofNat

end Kotlin
end WgKotlin
