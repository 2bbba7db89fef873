import Mathlib.Algebra.Order.Ring.Nat
import WgKotlin.Library.Except

/-!
# Messages as tagged fields

A message is written as a list of fields, each with its number, the kind of its value and the
value.  Numbers are written in groups of seven bits, and what has no fixed size is written
with its length, so that a reader can skip a field whose number it does not know.  A schema
says which fields a message has and how a field that is read changes a message.  Reading what
was written gives the message back.
-/

namespace WgKotlin
namespace Library
namespace Tagged

/-! ### Numbers -/

/-- A number in groups of seven bits, the low ones first, in at most `more + 1` bytes. -/
def varintBytes : Nat → Nat → List UInt8
  | 0, n => [UInt8.ofNat n]
  | more + 1, n =>
    if n < 128 then [UInt8.ofNat n]
    else UInt8.ofNat (n % 128 + 128) :: varintBytes more (n / 128)

def readVarintBytes : Nat → List UInt8 → Option (Nat × List UInt8)
  | _, [] => none
  | 0, b :: rest => if b.toNat < 128 then some (b.toNat, rest) else none
  | more + 1, b :: rest =>
    if b.toNat < 128 then some (b.toNat, rest)
    else do
      let (high, rest) ← readVarintBytes more rest
      some (b.toNat - 128 + 128 * high, rest)

/-- A number of 64 bits takes ten bytes at most. -/
def varint (n : Nat) : List UInt8 := varintBytes 9 n

def readVarint (bytes : List UInt8) : Option (Nat × List UInt8) := do
  let (n, rest) ← readVarintBytes 9 bytes
  if n < 2 ^ 64 then some (n, rest) else none

theorem toNat_ofNat_of_lt {n : Nat} (h : n < 256) : (UInt8.ofNat n).toNat = n := by
  rw [UInt8.toNat_ofNat']
  omega

theorem readVarintBytes_append {more n : Nat} (h : n < 128 ^ (more + 1)) (rest : List UInt8) :
    readVarintBytes more (varintBytes more n ++ rest) = some (n, rest) := by
  induction more generalizing n with
  | zero =>
      have hn : n < 128 := by simpa using h
      simp [varintBytes, readVarintBytes, toNat_ofNat_of_lt (by omega : n < 256), hn]
  | succ more ih =>
      unfold varintBytes
      by_cases hn : n < 128
      · simp [hn, readVarintBytes, toNat_ofNat_of_lt (by omega : n < 256)]
      · have hdiv : n / 128 < 128 ^ (more + 1) := by
          rw [Nat.div_lt_iff_lt_mul (by decide), ← Nat.pow_succ]
          exact h
        have hbyte := toNat_ofNat_of_lt (by omega : n % 128 + 128 < 256)
        rw [if_neg hn, List.cons_append, readVarintBytes, hbyte, if_neg (by omega), ih hdiv]
        show some (n % 128 + 128 - 128 + 128 * (n / 128), rest) = some (n, rest)
        rw [Nat.add_sub_cancel, Nat.mod_add_div]

theorem readVarint_append {n : Nat} (h : n < 2 ^ 64) (rest : List UInt8) :
    readVarint (varint n ++ rest) = some (n, rest) := by
  have hread : readVarintBytes 9 (varint n ++ rest) = some (n, rest) :=
    readVarintBytes_append (by omega) rest
  rw [readVarint, hread]
  exact if_pos h

theorem varintBytes_ne_nil (more n : Nat) : varintBytes more n ≠ [] := by
  cases more with
  | zero => exact List.cons_ne_nil _ _
  | succ more =>
      unfold varintBytes
      split <;> exact List.cons_ne_nil _ _

theorem length_varintBytes_le {more n k : Nat} (h : n < 128 ^ (k + 1)) :
    (varintBytes more n).length ≤ k + 1 := by
  induction more generalizing n k with
  | zero => exact Nat.le_add_left 1 k
  | succ more ih =>
      unfold varintBytes
      by_cases hn : n < 128
      · rw [if_pos hn]
        exact Nat.le_add_left 1 k
      · cases k with
        | zero => exact absurd (by simpa using h) hn
        | succ k =>
            have hdiv : n / 128 < 128 ^ (k + 1) := by
              rw [Nat.div_lt_iff_lt_mul (by decide), ← Nat.pow_succ]
              exact h
            rw [if_neg hn, List.length_cons]
            exact Nat.succ_le_succ (ih hdiv)

/-! ### Fields -/

inductive FieldValue
  | varint (n : Nat)
  | fixed64 (data : List UInt8)
  | bytes (data : List UInt8)
  | fixed32 (data : List UInt8)
  deriving DecidableEq, Repr

namespace FieldValue

def wireType : FieldValue → Nat
  | varint _ => 0
  | fixed64 _ => 1
  | bytes _ => 2
  | fixed32 _ => 5

def write : FieldValue → List UInt8
  | varint n => Tagged.varint n
  | fixed64 data => data
  | bytes data => Tagged.varint data.length ++ data
  | fixed32 data => data

/-- The value has the size of its kind. -/
def Valid : FieldValue → Prop
  | varint n => n < 2 ^ 64
  | fixed64 data => data.length = 8
  | bytes data => data.length < 2 ^ 64
  | fixed32 data => data.length = 4

end FieldValue

structure Field where
  number : Nat
  value : FieldValue
  deriving DecidableEq, Repr

namespace Field

def Valid (f : Field) : Prop := 1 ≤ f.number ∧ f.number < 2 ^ 29 ∧ f.value.Valid

def write (f : Field) : List UInt8 :=
  varint (f.number * 8 + f.value.wireType) ++ f.value.write

end Field

def writeFields (fields : List Field) : List UInt8 := fields.flatMap Field.write

def takeExact (n : Nat) (bytes : List UInt8) : Option (List UInt8 × List UInt8) :=
  if bytes.length < n then none else some (bytes.take n, bytes.drop n)

/-- The value of a kind, and what follows it.  Groups are not read. -/
def readValue (wireType : Nat) (bytes : List UInt8) : Option (FieldValue × List UInt8) :=
  match wireType with
  | 0 => do
    let (n, rest) ← readVarint bytes
    some (.varint n, rest)
  | 1 => do
    let (data, rest) ← takeExact 8 bytes
    some (.fixed64 data, rest)
  | 2 => do
    let (length, rest) ← readVarint bytes
    let (data, rest) ← takeExact length rest
    some (.bytes data, rest)
  | 5 => do
    let (data, rest) ← takeExact 4 bytes
    some (.fixed32 data, rest)
  | _ => none

def readField (bytes : List UInt8) : Option (Field × List UInt8) := do
  let (key, rest) ← readVarint bytes
  if key < 2 ^ 32 ∧ 1 ≤ key / 8 then do
    let (value, rest) ← readValue (key % 8) rest
    some ({ number := key / 8, value := value }, rest)
  else none

def readFieldsIn : Nat → List UInt8 → Option (List Field)
  | _, [] => some []
  | 0, _ :: _ => none
  | fuel + 1, b :: bytes => do
    let (field, rest) ← readField (b :: bytes)
    let fields ← readFieldsIn fuel rest
    some (field :: fields)

/-- No field is empty, so that the length of the bytes is enough. -/
def readFields (bytes : List UInt8) : Option (List Field) := readFieldsIn bytes.length bytes

theorem takeExact_append {data : List UInt8} {n : Nat} (h : data.length = n) (rest : List UInt8) :
    takeExact n (data ++ rest) = some (data, rest) := by
  have hlen : ¬ (data ++ rest).length < n := by
    rw [List.length_append]
    omega
  rw [takeExact, if_neg hlen, List.take_left' h, List.drop_left' h]

theorem readValue_write {value : FieldValue} (h : value.Valid) (rest : List UInt8) :
    readValue value.wireType (value.write ++ rest) = some (value, rest) := by
  cases value with
  | varint n =>
      show (readVarint (varint n ++ rest) >>= _) = _
      rw [readVarint_append h]
      rfl
  | fixed64 data =>
      show (takeExact 8 (data ++ rest) >>= _) = _
      rw [takeExact_append h]
      rfl
  | bytes data =>
      show (readVarint (varint data.length ++ data ++ rest) >>= _) = _
      rw [List.append_assoc, readVarint_append h]
      show (takeExact data.length (data ++ rest) >>= _) = _
      rw [takeExact_append rfl]
      rfl
  | fixed32 data =>
      show (takeExact 4 (data ++ rest) >>= _) = _
      rw [takeExact_append h]
      rfl

theorem FieldValue.wireType_lt (value : FieldValue) : value.wireType < 8 := by
  cases value with
  | varint n => exact Nat.zero_lt_succ 7
  | fixed64 data => exact Nat.one_lt_succ_succ 6
  | bytes data => show 2 < 8; omega
  | fixed32 data => show 5 < 8; omega

theorem readField_write {f : Field} (h : f.Valid) (rest : List UInt8) :
    readField (f.write ++ rest) = some (f, rest) := by
  obtain ⟨hpos, hlt, hvalue⟩ := h
  have hkind := f.value.wireType_lt
  have hkey : f.number * 8 + f.value.wireType < 2 ^ 32 := by omega
  have hnumber : (f.number * 8 + f.value.wireType) / 8 = f.number := by omega
  have htype : (f.number * 8 + f.value.wireType) % 8 = f.value.wireType := by omega
  rw [Field.write, List.append_assoc, readField, readVarint_append (by omega)]
  show (if _ then _ else none) = _
  rw [hnumber, htype, if_pos ⟨hkey, hpos⟩, readValue_write hvalue]
  rfl

theorem Field.write_ne_nil (f : Field) : f.write ≠ [] := by
  intro h
  exact varintBytes_ne_nil _ _ (List.append_eq_nil_iff.mp h).1

theorem readFieldsIn_write {fields : List Field} (h : ∀ f ∈ fields, f.Valid) {fuel : Nat}
    (hfuel : fields.length ≤ fuel) : readFieldsIn fuel (writeFields fields) = some fields := by
  induction fields generalizing fuel with
  | nil => cases fuel <;> rfl
  | cons f rest ih =>
      cases fuel with
      | zero => exact absurd hfuel (Nat.not_succ_le_zero _)
      | succ fuel =>
          have hrest := ih (fun g hg => h g (List.mem_cons_of_mem f hg))
            (Nat.le_of_succ_le_succ hfuel)
          have hread := readField_write (h f List.mem_cons_self) (writeFields rest)
          have hwrite : writeFields (f :: rest) = f.write ++ writeFields rest := rfl
          obtain ⟨b, bytes, hb⟩ :=
            List.exists_cons_of_ne_nil (List.append_ne_nil_of_left_ne_nil f.write_ne_nil
              (writeFields rest))
          rw [hb] at hread
          rw [hwrite, hb, readFieldsIn, hread]
          show (readFieldsIn fuel (writeFields rest) >>= _) = _
          rw [hrest]
          rfl

theorem length_le_writeFields (fields : List Field) :
    fields.length ≤ (writeFields fields).length := by
  induction fields with
  | nil => exact Nat.le_refl 0
  | cons f rest ih =>
      have hpos := List.length_pos_of_ne_nil f.write_ne_nil
      have hwrite : writeFields (f :: rest) = f.write ++ writeFields rest := rfl
      rw [hwrite, List.length_append, List.length_cons]
      omega

/-- Fields that were written are read back. -/
theorem readFields_write {fields : List Field} (h : ∀ f ∈ fields, f.Valid) :
    readFields (writeFields fields) = some fields :=
  readFieldsIn_write h (length_le_writeFields fields)

theorem writeFields_eq_nil {fields : List Field} : writeFields fields = [] ↔ fields = [] := by
  constructor
  · intro h
    have hle := length_le_writeFields fields
    rw [h] at hle
    exact List.length_eq_zero_iff.mp (Nat.le_zero.mp hle)
  · rintro rfl
    rfl

/-- A field of bytes with a small number takes at most five bytes more than its data. -/
theorem length_write_bytes_le {number : Nat} (data : List UInt8) (hnumber : number < 16)
    (hdata : data.length < 128 ^ 4) :
    (Field.write { number := number, value := .bytes data }).length ≤ data.length + 5 := by
  have hkey : (varint (number * 8 + 2)).length ≤ 0 + 1 := length_varintBytes_le (by omega)
  have hlength : (varint data.length).length ≤ 3 + 1 := length_varintBytes_le hdata
  show (varint (number * 8 + 2) ++ (varint data.length ++ data)).length ≤ _
  rw [List.length_append, List.length_append]
  omega

/-! ### Schemas -/

/-- What is certain of a value before its length is known. -/
def FieldValue.Sized : FieldValue → Prop
  | varint n => n < 2 ^ 64
  | fixed64 data => data.length = 8
  | bytes _ => True
  | fixed32 data => data.length = 4

/-- Fields with these numbers only. -/
def Known (numbers : List Nat) (fields : List Field) : Prop :=
  ∀ f ∈ fields, f.number ∈ numbers ∧ f.value.Sized

/-- The fields of a message type.  `merge` takes one field that was read into the message. -/
structure Schema (M : Type) where
  empty : M
  numbers : List Nat
  fields : M → List Field
  merge : M → Field → Option M
  numbers_valid : ∀ n ∈ numbers, 1 ≤ n ∧ n < 2 ^ 29
  known : ∀ m, Known numbers (fields m)
  merge_fields : ∀ m, (∀ f ∈ fields m, f.Valid) → (fields m).foldlM merge empty = some m

namespace Schema

variable {M : Type} (schema : Schema M)

def encode (m : M) : List UInt8 := writeFields (schema.fields m)

/-- Reading into a message that may have fields already. -/
def decodeInto (m : M) (bytes : List UInt8) : Option M := do
  let fields ← readFields bytes
  fields.foldlM schema.merge m

def decode (bytes : List UInt8) : Option M := schema.decodeInto schema.empty bytes

theorem length_data_le {fields : List Field} {number : Nat} {data : List UInt8}
    (h : { number := number, value := .bytes data } ∈ fields) :
    data.length ≤ (writeFields fields).length := by
  obtain ⟨before, after, rfl⟩ := List.append_of_mem h
  simp only [writeFields, List.flatMap_append, List.flatMap_cons, List.length_append, Field.write,
    FieldValue.write]
  omega

/-- The fields of a message of less than 2^64 bytes have sizes that can be written. -/
theorem valid_fields {m : M} (hsize : (schema.encode m).length < 2 ^ 64) :
    ∀ f ∈ schema.fields m, f.Valid := by
  intro f hf
  obtain ⟨hnumber, hvalue⟩ := schema.known m f hf
  obtain ⟨hpos, hlt⟩ := schema.numbers_valid f.number hnumber
  obtain ⟨number, value⟩ := f
  refine ⟨hpos, hlt, ?_⟩
  cases value with
  | varint n => exact hvalue
  | fixed64 data => exact hvalue
  | bytes data => exact Nat.lt_of_le_of_lt (length_data_le hf) hsize
  | fixed32 data => exact hvalue

theorem decode_encode {m : M} (hsize : (schema.encode m).length < 2 ^ 64) :
    schema.decode (schema.encode m) = some m := by
  have hvalid := schema.valid_fields hsize
  rw [decode, decodeInto, encode, readFields_write hvalid]
  exact schema.merge_fields m hvalid

theorem decode_encode_of_valid {a : M} {number : Nat}
    (h : Field.Valid { number := number, value := .bytes (schema.encode a) }) :
    schema.decode (schema.encode a) = some a :=
  schema.decode_encode h.2.2

end Schema

/-! ### Kinds of fields -/

def utf8 (s : String) : List UInt8 := s.toUTF8.data.toList

def ofUtf8 (data : List UInt8) : Option String := String.fromUTF8? ⟨data.toArray⟩

theorem ofUtf8_utf8 (s : String) : ofUtf8 (utf8 s) = some s := by
  have hbytes : (⟨(utf8 s).toArray⟩ : ByteArray) = s.toByteArray := rfl
  rw [ofUtf8, hbytes, String.fromUTF8?, dif_pos s.isValidUTF8]
  rfl

theorem utf8_eq_nil {s : String} : utf8 s = [] ↔ s = "" := by
  constructor
  · intro h
    have hread := ofUtf8_utf8 s
    rw [h] at hread
    have hempty : ofUtf8 [] = some "" := ofUtf8_utf8 ""
    rw [hempty, Option.some.injEq] at hread
    exact hread.symm
  · rintro rfl
    rfl

/-- Data is written unless there is none. -/
def bytesField (number : Nat) (data : List UInt8) : List Field :=
  if data = [] then [] else [{ number := number, value := .bytes data }]

def stringField (number : Nat) (s : String) : List Field := bytesField number (utf8 s)

/-- A number is written unless it is zero. -/
def varintField (number n : Nat) : List Field :=
  if n = 0 then [] else [{ number := number, value := .varint n }]

section Kinds

variable {A : Type} (schema : Schema A)

def messageField (number : Nat) : Option A → List Field
  | none => []
  | some a => [{ number := number, value := .bytes (schema.encode a) }]

def repeatedField (number : Nat) (items : List A) : List Field :=
  items.map fun a => { number := number, value := .bytes (schema.encode a) }

def repeatedString (number : Nat) (items : List String) : List Field :=
  items.map fun s => { number := number, value := .bytes (utf8 s) }

end Kinds

theorem known_nil (numbers : List Nat) : Known numbers [] := fun _ h => absurd h List.not_mem_nil

theorem known_singleton {numbers : List Nat} {number : Nat} {value : FieldValue}
    (h : number ∈ numbers) (hsized : value.Sized) :
    Known numbers [{ number := number, value := value }] := by
  intro f hf
  rw [List.mem_singleton.mp hf]
  exact ⟨h, hsized⟩

theorem length_varintField_le {number n : Nat} (hnumber : number < 16) (hn : n < 128 ^ 10) :
    (writeFields (varintField number n)).length ≤ 11 := by
  have hkey : (varint (number * 8 + 0)).length ≤ 0 + 1 := length_varintBytes_le (by omega)
  have hvalue : (varint n).length ≤ 9 + 1 := length_varintBytes_le hn
  unfold varintField
  split
  · exact Nat.zero_le 11
  · rw [writeFields, List.flatMap_singleton]
    show (varint (number * 8 + 0) ++ varint n).length ≤ 11
    rw [List.length_append]
    omega

theorem Known.append {numbers : List Nat} {fields more : List Field} (h : Known numbers fields)
    (h' : Known numbers more) : Known numbers (fields ++ more) := by
  intro f hf
  rcases List.mem_append.mp hf with hf | hf
  · exact h f hf
  · exact h' f hf

section KnownKinds

variable {A : Type} (schema : Schema A) {numbers : List Nat} {number : Nat}

theorem known_bytesField (h : number ∈ numbers) (data : List UInt8) :
    Known numbers (bytesField number data) := by
  unfold bytesField
  split
  · exact known_nil numbers
  · exact known_singleton h trivial

theorem known_varintField (h : number ∈ numbers) {n : Nat} (hn : n < 2 ^ 64) :
    Known numbers (varintField number n) := by
  unfold varintField
  split
  · exact known_nil numbers
  · exact known_singleton h hn

theorem known_messageField (h : number ∈ numbers) (item : Option A) :
    Known numbers (messageField schema number item) := by
  cases item with
  | none => exact known_nil numbers
  | some a => exact known_singleton h trivial

theorem known_repeatedField (h : number ∈ numbers) (items : List A) :
    Known numbers (repeatedField schema number items) := by
  intro f hf
  obtain ⟨a, _, rfl⟩ := List.mem_map.mp hf
  exact ⟨h, trivial⟩

theorem known_repeatedString (h : number ∈ numbers) (items : List String) :
    Known numbers (repeatedString number items) := by
  intro f hf
  obtain ⟨a, _, rfl⟩ := List.mem_map.mp hf
  exact ⟨h, trivial⟩

end KnownKinds

/-! ### Reading one part of a message -/

section Parts

variable {M A : Type}

/-- Parts that are read one after another. -/
theorem foldlM_parts {merge : M → Field → Option M} {m m' : M} {part rest : List Field}
    (hpart : part.foldlM merge m = some m') :
    (part ++ rest).foldlM merge m = rest.foldlM merge m' := by
  rw [List.foldlM_append, hpart]
  rfl

variable (merge : M → Field → Option M) (number : Nat)

theorem foldlM_bytesField (set : List UInt8 → M)
    (hmerge : ∀ data, merge (set []) { number := number, value := .bytes data } = some (set data))
    (data : List UInt8) : (bytesField number data).foldlM merge (set []) = some (set data) := by
  unfold bytesField
  by_cases hdata : data = []
  · rw [if_pos hdata, hdata]
    rfl
  · rw [if_neg hdata, List.foldlM_cons, hmerge]
    rfl

theorem foldlM_stringField (set : String → M)
    (hmerge : ∀ data, merge (set "") { number := number, value := .bytes data } =
      (ofUtf8 data).map set)
    (s : String) : (stringField number s).foldlM merge (set "") = some (set s) := by
  unfold stringField bytesField
  by_cases hs : utf8 s = []
  · rw [if_pos hs, utf8_eq_nil.mp hs]
    rfl
  · rw [if_neg hs, List.foldlM_cons, hmerge, ofUtf8_utf8]
    rfl

/-- A number that is read as another type, in which zero is the default. -/
theorem foldlM_varintField (set : A → M) (read : Nat → A)
    (hmerge : ∀ n, merge (set (read 0)) { number := number, value := .varint n } =
      some (set (read n)))
    (n : Nat) : (varintField number n).foldlM merge (set (read 0)) = some (set (read n)) := by
  unfold varintField
  by_cases hn : n = 0
  · rw [if_pos hn, hn]
    rfl
  · rw [if_neg hn, List.foldlM_cons, hmerge]
    rfl

variable (schema : Schema A)

/-- A message in a field of its own. -/
theorem foldlM_singleton (set : A → M) {m : M}
    (hmerge : ∀ data, merge m { number := number, value := .bytes data } =
      (schema.decode data).map set)
    {a : A} (hvalid : Field.Valid { number := number, value := .bytes (schema.encode a) }) :
    [{ number := number, value := .bytes (schema.encode a) }].foldlM merge m =
      some (set a) := by
  have hdecode := schema.decode_encode_of_valid hvalid
  rw [List.foldlM_cons, hmerge, hdecode]
  rfl

theorem foldlM_messageField (set : Option A → M)
    (hmerge : ∀ data, merge (set none) { number := number, value := .bytes data } =
      (schema.decode data).map fun a => set (some a))
    {item : Option A} (hvalid : ∀ f ∈ messageField schema number item, f.Valid) :
    (messageField schema number item).foldlM merge (set none) = some (set item) := by
  cases item with
  | none => rfl
  | some a =>
      exact foldlM_singleton merge number schema (fun a => set (some a)) hmerge
        (hvalid _ List.mem_cons_self)

/-- Each further item is put behind those that were read. -/
theorem foldlM_repeatedField (set : List A → M)
    (hmerge : ∀ items data, merge (set items) { number := number, value := .bytes data } =
      (schema.decode data).map fun a => set (items ++ [a]))
    {items : List A} (hvalid : ∀ f ∈ repeatedField schema number items, f.Valid)
    (before : List A) :
    (repeatedField schema number items).foldlM merge (set before) =
      some (set (before ++ items)) := by
  induction items generalizing before with
  | nil =>
      rw [List.append_nil]
      rfl
  | cons a rest ih =>
      have hdecode := schema.decode_encode_of_valid (hvalid _ List.mem_cons_self)
      have hrest := ih (fun f hf => hvalid f (List.mem_cons_of_mem _ hf)) (before ++ [a])
      rw [List.append_assoc] at hrest
      rw [repeatedField, List.map_cons, List.foldlM_cons, hmerge, hdecode]
      exact hrest

theorem foldlM_repeatedString (set : List String → M)
    (hmerge : ∀ items data, merge (set items) { number := number, value := .bytes data } =
      (ofUtf8 data).map fun s => set (items ++ [s]))
    (items before : List String) :
    (repeatedString number items).foldlM merge (set before) = some (set (before ++ items)) := by
  induction items generalizing before with
  | nil =>
      rw [List.append_nil]
      rfl
  | cons s rest ih =>
      have hrest := ih (before ++ [s])
      rw [List.append_assoc] at hrest
      rw [repeatedString, List.map_cons, List.foldlM_cons, hmerge, ofUtf8_utf8]
      exact hrest

end Parts

end Tagged
end Library
end WgKotlin
