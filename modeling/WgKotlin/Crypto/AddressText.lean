import WgKotlin.Util.IpText
import WgKotlin.Crypto.Loops
import WgKotlin.Uniffi.Tunnel

/-!
# Addresses as text between three readers

The client prints an address with `toPlainString`.  The text is read back by
`InetAddress.getByName`, by the parser of Rust behind `decrypt_to_raw_packet`, and it
is compared with the source of a datagram in the encrypted loop.  `readAddress` is what
RFC 4291 says of the two forms that are printed.  Of the two parsers no more is assumed
than that they agree with it.
-/

namespace WgKotlin
namespace Crypto

open Proto Kotlin Library Util
open Daemon (IpAddr parseProtoIp)

/-! ### The two forms -/

/-- A decimal number of one byte, without leading zeros. -/
def readOctet (field : List Char) : Option UInt8 :=
  let value := digitsValue 10 (fun c => c.toNat - '0'.toNat) field
  if field = Nat.toDigits 10 value ∧ value < 256 then some (UInt8.ofNat value) else none

/-- The value of a hexadecimal digit, and 16 for any other character. -/
def hexDigit (c : Char) : Nat :=
  if c.isDigit then c.toNat - '0'.toNat
  else if 'a' ≤ c ∧ c ≤ 'f' then c.toNat - 'a'.toNat + 10
  else if 'A' ≤ c ∧ c ≤ 'F' then c.toNat - 'A'.toNat + 10
  else 16

/-- One to four hexadecimal digits. -/
def readGroup (field : List Char) : Option Bytes :=
  let value := digitsValue 16 hexDigit field
  if field ≠ [] ∧ field.length ≤ 4 ∧ field.all (fun c => hexDigit c < 16) then
    some [UInt8.ofNat (value / 256), UInt8.ofNat value]
  else none

def ofOctets (family : Family) (octets : Bytes) : Option IpAddr :=
  if h : octets.length = family.size then some { family := family, octets := octets, size := h }
  else none

/-- Dotted decimal, or eight groups of hexadecimal digits. -/
def readAddress (text : String) : Option IpAddr :=
  let fields := text.toList.splitOn '.'
  let groups := text.toList.splitOn ':'
  if fields.length = 4 then (fields.mapM readOctet).bind (ofOctets .v4)
  else if groups.length = 8 then
    (groups.mapM readGroup).bind fun bytes => ofOctets .v6 bytes.flatten
  else none

/-- An IPv6 address that stands for an IPv4 one. -/
def IsMapped (ip : IpAddr) : Prop :=
  ip.family = .v6 ∧ ip.octets.take 12 = List.replicate 10 0 ++ [255, 255]

/-- Both parsers read the two forms as they are defined.  `getByName` turns a mapped
address into an IPv4 one. -/
structure AddressReaders (getByName : String → Except Throwable Bytes)
    (parseIp : String → Option IpAddr) : Prop where
  java : ∀ text ip, readAddress text = some ip → ¬ IsMapped ip →
    getByName text = .ok ip.octets
  rust : ∀ text ip, readAddress text = some ip → parseIp text = some ip

/-! ### Fields -/

theorem readOctet_toString (b : UInt8) : readOctet (toString b.toNat).toList = some b := by
  simp only [readOctet, toString_toList, decimal_toDigits]
  rw [if_pos ⟨trivial, b.toNat_lt⟩, UInt8.ofNat_toNat]

theorem hexDigit_digitChar : ∀ k < 16, hexDigit (Nat.digitChar k) = k := by decide

theorem readGroup_segmentString (pair : UInt8 × UInt8) :
    readGroup (segmentString pair).toList = some [pair.1, pair.2] := by
  have hhigh : pair.1.toNat < 256 := pair.1.toNat_lt
  have hlow : pair.2.toNat < 256 := pair.2.toNat_lt
  have hnumber : (pair.1.toNat <<< 8) ||| pair.2.toNat = 256 * pair.1.toNat + pair.2.toNat := by
    rw [← Nat.shiftLeft_add_eq_or_of_lt hlow, Nat.shiftLeft_eq, Nat.mul_comm]
  have hvalue := digitsValue_toDigits (by omega) hexDigit_digitChar
    (256 * pair.1.toNat + pair.2.toNat)
  have hlength : (Nat.toDigits 16 (256 * pair.1.toNat + pair.2.toNat)).length ≤ 4 :=
    (Nat.length_toDigits_le_iff (by omega) (by omega)).mpr (by omega)
  have hhex : (Nat.toDigits 16 (256 * pair.1.toNat + pair.2.toNat)).all
      (fun c => hexDigit c < 16) = true := by
    refine List.all_eq_true.mpr fun c hc => decide_eq_true ?_
    obtain ⟨k, hk, rfl⟩ := mem_toDigits (by omega) _ hc
    rw [hexDigit_digitChar k hk]
    exact hk
  simp only [readGroup, segmentString, toString16_toList, hnumber, hvalue]
  rw [if_pos ⟨Nat.toDigits_ne_nil, hlength, hhex⟩]
  have hfirst : (256 * pair.1.toNat + pair.2.toNat) / 256 = pair.1.toNat := by omega
  have hsecond : UInt8.ofNat (256 * pair.1.toNat + pair.2.toNat) = pair.2 := by
    refine UInt8.toNat_inj.mp ?_
    rw [UInt8.toNat_ofNat']
    omega
  rw [hfirst, hsecond, UInt8.ofNat_toNat]

theorem mapM_map_of_some {α β γ : Type} {f : β → Option γ} {g : α → β} {k : α → γ}
    {l : List α} (h : ∀ a, f (g a) = some (k a)) : (l.map g).mapM f = some (l.map k) := by
  induction l with
  | nil => rfl
  | cons a rest ih =>
      rw [List.map_cons, List.mapM_cons, h a, ih]
      rfl

/-! ### Addresses -/

theorem splitOn_joinToString {α : Type} {c : Char} {f : α → String} {l : List α} (hne : l ≠ [])
    (h : ∀ a, c ∉ (f a).toList) :
    (joinToString c (l.map f)).toList.splitOn c = l.map fun a => (f a).toList := by
  have hmap : (l.map f).map String.toList = l.map fun a => (f a).toList := List.map_map
  rw [joinToString, String.toList_ofList, hmap, List.splitOn_intercalate]
  · intro field hfield
    obtain ⟨a, _, rfl⟩ := List.mem_map.mp hfield
    exact h a
  · rw [Ne, List.map_eq_nil_iff]
    exact hne

theorem splitOn_of_not_mem {c : Char} {text : List Char} (h : c ∉ text) :
    text.splitOn c = [text] := by
  have hsplit := List.splitOn_intercalate c
    (fun l hl => List.mem_singleton.mp hl ▸ h) (List.cons_ne_nil text [])
  rwa [List.intercalate_singleton] at hsplit

theorem readAddress_v4 {bytes : Bytes} (h : bytes.length = 4) :
    readAddress (joinToString '.' (bytes.map fun b => toString b.toNat)) =
      ofOctets .v4 bytes := by
  have hne : bytes ≠ [] := by
    rintro rfl
    cases h
  simp only [readAddress]
  rw [splitOn_joinToString hne fun b => separator_not_mem_toString (Or.inl rfl) _,
    List.length_map, if_pos h, mapM_map_of_some readOctet_toString, List.map_id']
  rfl

theorem readAddress_v6 {pairs : List (UInt8 × UInt8)} (h : pairs.length = 8) :
    readAddress (joinToString ':' (pairs.map segmentString)) =
      ofOctets .v6 (pairs.flatMap fun p => [p.1, p.2]) := by
  have hne : pairs ≠ [] := by
    rintro rfl
    cases h
  have hcolon : ∀ p, ':' ∉ (segmentString p).toList := fun p =>
    not_mem_toString16 (Or.inr (Or.inl rfl)) _
  simp only [readAddress]
  rw [splitOn_of_not_mem (not_mem_v6 (Or.inl rfl) pairs), List.length_singleton,
    if_neg (by decide), splitOn_joinToString hne hcolon, List.length_map, if_pos h,
    mapM_map_of_some readGroup_segmentString, List.flatMap_def]
  rfl

/-- The text of an address reads as that address. -/
theorem readAddress_toPlainString {ip : Ip} (h : ip.WellFormed) :
    ∃ text address, toPlainString ip = .ok text ∧ parseProtoIp ip = some address ∧
      readAddress text = some address := by
  obtain ⟨a, ha, hspec⟩ := toPlainString_eq h
  cases a with
  | v4 bytes =>
      obtain ⟨hlength, htext⟩ := hspec
      refine ⟨_, { family := .v4, octets := bytes, size := hlength }, htext, ?_, ?_⟩
      · rw [parseProtoIp, ha]
        exact dif_pos hlength
      · rw [readAddress_v4 hlength]
        exact dif_pos hlength
  | v6 bytes =>
      obtain ⟨pairs, hpairs, hpairsLength, htext⟩ := hspec
      have hbytes := chunkedPairs_eq_ok hpairs
      have hlength : bytes.length = 16 := by
        obtain ⟨a, ha', hsize⟩ := h.exists_value
        rw [ha] at ha'
        cases ha'
        exact hsize
      refine ⟨_, { family := .v6, octets := bytes, size := hlength }, htext, ?_, ?_⟩
      · rw [parseProtoIp, ha]
        exact dif_pos hlength
      · rw [readAddress_v6 hpairsLength, ← hbytes]
        exact dif_pos hlength

/-! ### Prefixes -/

theorem parseUInt_digits {digits : List Char} (h : ∀ c ∈ digits, c.isDigit = true) {acc : Nat}
    (hfits : digitsFrom 10 (fun c => c.toNat - '0'.toNat) acc digits < 2 ^ 32) :
    parseUInt acc digits =
      some (UInt32.ofNat (digitsFrom 10 (fun c => c.toNat - '0'.toNat) acc digits)) := by
  induction digits generalizing acc with
  | nil => rfl
  | cons c rest ih =>
      obtain ⟨hc, hrest⟩ := List.forall_mem_cons.mp h
      have hnext : 10 * acc + (c.toNat - '0'.toNat) ≤
          digitsFrom 10 (fun c => c.toNat - '0'.toNat) acc (c :: rest) :=
        le_digitsFrom (by decide) rest _
      rw [parseUInt, digitOf_of_isDigit hc]
      simp only
      rw [Nat.mul_comm acc 10, if_pos (by omega)]
      exact ih hrest hfits

theorem toUIntOrNull_toString (n : UInt32) : toUIntOrNull (toString n.toNat) = some n := by
  have hdigits : ∀ c ∈ (toString n.toNat).toList, c.isDigit = true :=
    fun c hc => isDigit_of_mem_toString hc
  have hvalue := decimal_toDigits n.toNat
  rw [← toString_toList, digitsValue] at hvalue
  have hparse := parseUInt_digits hdigits (hvalue ▸ n.toNat_lt)
  rw [hvalue, UInt32.ofNat_toNat] at hparse
  unfold toUIntOrNull
  split
  next hnil => exact absurd hnil (toString_toList_ne_nil n.toNat)
  next first rest hcons =>
    have hfirst := not_lt_zero_of_isDigit (hdigits first (hcons ▸ List.mem_cons_self))
    rw [if_neg hfirst, ← hcons]
    exact hparse

theorem splitSlash_append {plain : String} (h : '/' ∉ plain.toList) (suffix : String) :
    splitSlash (plain ++ "/" ++ suffix) = (plain, some suffix) := by
  have hbefore : ∀ c ∈ plain.toList, decide (c ≠ '/') = true := by
    intro c hc
    refine decide_eq_true ?_
    rintro rfl
    exact h hc
  have hchars : (plain ++ "/" ++ suffix).toList = plain.toList ++ '/' :: suffix.toList := by
    rw [String.toList_append, String.toList_append, List.append_assoc]
    rfl
  have hspan : (plain ++ "/" ++ suffix).toList.span (· ≠ '/') =
      (plain.toList, '/' :: suffix.toList) := by
    rw [hchars, List.span_eq_takeWhile_dropWhile, List.takeWhile_append_of_pos hbefore,
      List.dropWhile_append_of_pos hbefore, List.takeWhile_cons_of_neg (by decide),
      List.dropWhile_cons_of_neg (by decide), List.append_nil]
  rw [splitSlash, hspan]
  simp only [String.ofList_toList]

/-! ### What the readers make of the texts -/

section Readers

variable {getByName : String → Except Throwable Bytes} {parseIp : String → Option IpAddr}

/-- An address of the protocol that is mapped. -/
def IsMappedIp (ip : Ip) : Prop := ∃ address, parseProtoIp ip = some address ∧ IsMapped address

theorem octets_of_parseProtoIp {ip : Ip} {address : IpAddr} (h : parseProtoIp ip = some address) :
    (address.octets.length = 4 ∧ ip.value = some (.v4 address.octets)) ∨
      (address.octets.length = 16 ∧ ip.value = some (.v6 address.octets)) := by
  unfold parseProtoIp at h
  split at h
  · cases h
  next bytes hvalue =>
    split at h
    next hlength =>
      cases h
      exact Or.inl ⟨hlength, hvalue⟩
    · cases h
  next bytes hvalue =>
    split at h
    next hlength =>
      cases h
      exact Or.inr ⟨hlength, hvalue⟩
    · cases h

/-- Java and Rust read the text of an address as that address. -/
theorem read_toPlainString (readers : AddressReaders getByName parseIp) {ip : Ip}
    (h : ip.WellFormed) (hmapped : ¬ IsMappedIp ip) :
    ∃ text address, toPlainString ip = .ok text ∧ resolveToIp getByName text = .ok ip ∧
      parseProtoIp ip = some address ∧ parseIp text = some address := by
  obtain ⟨text, address, htext, haddress, hread⟩ := readAddress_toPlainString h
  refine ⟨text, address, htext, ?_, haddress, readers.rust text address hread⟩
  have hbytes := readers.java text address hread fun hm => hmapped ⟨address, haddress, hm⟩
  rw [resolveToIp, hbytes, ok_bind]
  rcases octets_of_parseProtoIp haddress with ⟨hlength, hvalue⟩ | ⟨hlength, hvalue⟩
  · rw [if_pos hlength, ← hvalue]
  · rw [if_neg (by omega), if_pos hlength, ← hvalue]

/-- A prefix is read back from its text. -/
theorem toCidr_toCidrString (readers : AddressReaders getByName parseIp) {cidr : Cidr}
    (h : cidr.WellFormed) (hmapped : ¬ IsMappedIp cidr.getIp) :
    ∃ text, toCidrString cidr = .ok text ∧ toCidr getByName text = .ok cidr := by
  obtain ⟨plain, hplain, hslash, htext⟩ := toCidrString_eq h
  refine ⟨_, htext, ?_⟩
  obtain ⟨plain', _, hplain', hresolve, _, _⟩ := read_toPlainString readers h.1 hmapped
  rw [hplain, Except.ok.injEq] at hplain'
  subst hplain'
  obtain ⟨a, ha, _, hle⟩ := h.exists_value
  have hlongest : ∃ longest, maxPrefix cidr.getIp = .ok longest ∧ cidr.prefixLen ≤ longest := by
    unfold maxPrefix
    rw [ha]
    cases a with
    | v4 bytes => exact ⟨32, rfl, hle⟩
    | v6 bytes => exact ⟨128, rfl, hle⟩
  obtain ⟨longest, hmax, hrange⟩ := hlongest
  rw [toCidr, splitSlash_append hslash]
  simp only [hresolve, hmax, ok_bind, toUIntOrNull_toString, require, decide_eq_true hrange,
    if_true]
  rw [← h.ip_eq]

end Readers

/-! ### Datagrams -/

/-- The encrypted loop compares the address and the port. -/
theorem endpointMatches_eq {ip : Ip} {text : String} {port : Int32} (hip : ip.WellFormed)
    (htext : toPlainString ip = .ok text) {entry : PeerSessionEntry}
    (hentry : ∀ a, entry.peer.endpointAddress = some a → a.WellFormed) :
    endpointMatches { address := text, port := port } entry =
      .ok (decide (entry.peer.endpointAddress = some ip ∧
        entry.peer.endpointPort = some port)) := by
  unfold endpointMatches
  cases haddress : entry.peer.endpointAddress with
  | none => simp
  | some a =>
      obtain ⟨plain, hplain, _⟩ := toPlainString_total (hentry a haddress)
      have hsame : plain = text ↔ a = ip := by
        constructor
        · rintro rfl
          exact toPlainString_inj (hentry a haddress) hip (hplain.trans htext.symm)
        · rintro rfl
          exact Except.ok.inj (hplain.symm.trans htext)
      simp only [hplain, ok_bind, Option.some.injEq, hsame, Bool.decide_and]

/-- It takes the first peer with that address and port. -/
theorem firstMatch_eq {ip : Ip} {text : String} {port : Int32} (hip : ip.WellFormed)
    (htext : toPlainString ip = .ok text) {entries : List PeerSessionEntry}
    (hentries : ∀ entry ∈ entries, ∀ a, entry.peer.endpointAddress = some a → a.WellFormed) :
    firstMatch { address := text, port := port } entries =
      .ok (entries.find? fun entry =>
        decide (entry.peer.endpointAddress = some ip ∧ entry.peer.endpointPort = some port)) := by
  induction entries with
  | nil => rfl
  | cons entry rest ih =>
      obtain ⟨hentry, hrest⟩ := List.forall_mem_cons.mp hentries
      rw [firstMatch, endpointMatches_eq hip htext hentry, ok_bind, List.find?_cons, ih hrest]
      cases decide (entry.peer.endpointAddress = some ip ∧ entry.peer.endpointPort = some port) with
      | true => rfl
      | false => rfl

/-- `decrypt_to_raw_packet` never refuses a source address that the client printed. -/
theorem decryptToRawPacket_source {σ : Type} {getByName : String → Except Throwable Bytes}
    {parseIp : String → Option IpAddr} (readers : AddressReaders getByName parseIp) {ip : Ip}
    (h : ip.WellFormed) {text : String} (htext : toPlainString ip = .ok text)
    (tunn : Uniffi.Tunn σ) (s : Uniffi.TunnelSession σ) (src : Bytes) (dstSize : UInt32) :
    (Uniffi.decryptToRawPacket tunn s parseIp src dstSize text).2 ≠
      .returned (.error .invalidSourceIp) := by
  obtain ⟨text', address, htext', _, hread⟩ := readAddress_toPlainString h
  cases htext.symm.trans htext'
  unfold Uniffi.decryptToRawPacket
  rw [readers.rust text address hread]
  split
  · exact fun h => (by cases h)
  · simp only
    unfold Uniffi.packetBufferSize
    split
    next e he =>
      split at he
      · cases he
        exact fun h => (by cases h)
      · cases he
    next size hsize =>
      unfold Uniffi.TunnelSession.lend
      split
      · exact fun h => (by cases h)
      · split
        · exact fun h => (by cases h)
        · exact Uniffi.settle_ne_error

/-- The text of an address identifies it for each of its readers. -/
theorem address_text_identifies {getByName : String → Except Throwable Bytes}
    {parseIp : String → Option IpAddr} (readers : AddressReaders getByName parseIp) :
    (∀ ip : Ip, ip.WellFormed → ¬ IsMappedIp ip →
        ∃ text address, toPlainString ip = .ok text ∧ resolveToIp getByName text = .ok ip ∧
          parseProtoIp ip = some address ∧ parseIp text = some address) ∧
      (∀ ip ip' : Ip, ip.WellFormed → ip'.WellFormed →
        toPlainString ip = toPlainString ip' → ip = ip') ∧
      (∀ (ip : Ip) (text : String) (port : Int32) (entries : List PeerSessionEntry),
        ip.WellFormed → toPlainString ip = .ok text →
        (∀ entry ∈ entries, ∀ a, entry.peer.endpointAddress = some a → a.WellFormed) →
        (∀ entry ∈ entries, endpointMatches { address := text, port := port } entry =
          .ok (decide (entry.peer.endpointAddress = some ip ∧
            entry.peer.endpointPort = some port))) ∧
        firstMatch { address := text, port := port } entries =
          .ok (entries.find? fun entry => decide
            (entry.peer.endpointAddress = some ip ∧ entry.peer.endpointPort = some port))) ∧
      ∀ cidr : Cidr, cidr.WellFormed → ¬ IsMappedIp cidr.getIp →
        ∃ text, toCidrString cidr = .ok text ∧ toCidr getByName text = .ok cidr := by
  refine ⟨fun ip h hmapped => read_toPlainString readers h hmapped,
    fun ip ip' h h' heq => toPlainString_inj h h' heq, ?_,
    fun cidr h hmapped => toCidr_toCidrString readers h hmapped⟩
  intro ip text port entries hip htext hentries
  exact ⟨fun entry hentry => endpointMatches_eq hip htext (hentries entry hentry),
    firstMatch_eq hip htext hentries⟩

/-! ### Readers of these two forms only -/

def literalOctets (text : String) : Except Throwable Bytes :=
  match readAddress text with
  | some ip => .ok ip.octets
  | none => .error (.unknownHost text)

theorem literalReaders : AddressReaders literalOctets readAddress where
  java := by
    intro text ip h _
    rw [literalOctets, h]
  rust := fun _ _ h => h

/-- `2001:db8::1` -/
def documentationIp : Ip :=
  { value := some (.v6 [0x20, 0x01, 0x0d, 0xb8, 0, 0, 0, 0, 0, 0, 0, 0, 0, 0, 0, 1]) }

theorem documentationIp_identified :
    resolveToIp literalOctets "2001:db8:0:0:0:0:0:1" = .ok documentationIp ∧
      toCidr literalOctets "2001:db8:0:0:0:0:0:1/32" =
        .ok { ip := some documentationIp, prefixLen := 32 } := by
  have htext : toPlainString documentationIp = .ok "2001:db8:0:0:0:0:0:1" := by decide +kernel
  have hcidr : toCidrString { ip := some documentationIp, prefixLen := 32 } =
      .ok "2001:db8:0:0:0:0:0:1/32" := by decide +kernel
  have hmapped : ¬ IsMappedIp documentationIp := by
    rintro ⟨address, haddress, _, htake⟩
    cases haddress
    exact absurd htake (by decide)
  obtain ⟨hread, _, _, hcidrs⟩ := address_text_identifies literalReaders
  obtain ⟨text, _, htext', hresolve, _⟩ := hread documentationIp (by decide) hmapped
  obtain ⟨text', hcidr', hto⟩ :=
    hcidrs { ip := some documentationIp, prefixLen := 32 } (by decide) hmapped
  cases htext.symm.trans htext'
  cases hcidr.symm.trans hcidr'
  exact ⟨hresolve, hto⟩

end Crypto
end WgKotlin
