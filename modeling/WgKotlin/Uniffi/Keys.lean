import WgKotlin.Uniffi.Tunnel
import WgKotlin.Library.Base64

/-!
# Keys as text

A key of 32 bytes has 43 symbols and one padding character.  `parse_key_bytes`
takes the text with the padding and without it, and whatever else passes the test
of the length decodes to 31 or to 33 bytes, or not at all.  A tunnel is therefore
opened by two texts for each key and by no others.
-/

namespace WgKotlin
namespace Uniffi

open Library
open Daemon (utf8Len)

/-! ### The engine -/

/-- `alphabet::STANDARD` -/
def standard : Base64.Alphabet where
  symbols := "ABCDEFGHIJKLMNOPQRSTUVWXYZabcdefghijklmnopqrstuvwxyz0123456789+/".toList
  size := by decide
  nodup := by decide
  noPadding := by decide

/-- The engine writes symbols of the standard alphabet and the whole padding.  It reads them
with any part of the padding, and nothing that has other bits behind the last byte. -/
structure Base64Engine.Standard (engine : Base64Engine) : Prop where
  encode : ∀ bytes, (engine.encode bytes).toList =
    (Base64.sextetsOf bytes).map standard.symbol ++
      List.replicate (Base64.padding bytes.length) '='
  decode : ∀ text bytes, engine.decode text = some bytes ↔
    ∃ k ≤ Base64.padding bytes.length, text.toList =
      (Base64.sextetsOf bytes).map standard.symbol ++ List.replicate k '='

/-! ### Reading a key -/

section Engine

variable {engine : Base64Engine}

theorem Key.ext_bytes {a b : Key} (h : a.bytes = b.bytes) : a = b := by
  cases a
  cases b
  cases h
  rfl

/-- A key that is written in full. -/
theorem Key.bytes_write {decoded : Bytes} (h : decoded.length ≤ keySize)
    (hfull : decoded.length = keySize) (key : Key) : (key.write decoded h).bytes = decoded := by
  show decoded ++ key.bytes.drop decoded.length = decoded
  rw [hfull, ← key.size, List.drop_length, List.append_nil]

theorem decodeSlice_eq_some {encoded : String} (output : Key) {key : Key} :
    decodeSlice engine encoded output = some (keySize, key) ↔
      engine.decode encoded = some key.bytes := by
  unfold decodeSlice
  cases hdecode : engine.decode encoded with
  | none => exact ⟨fun h => (by cases h), fun h => (by cases h)⟩
  | some decoded =>
      simp only
      constructor
      · intro h
        split at h
        next hroom =>
          obtain ⟨hfull, rfl⟩ := Prod.mk.inj (Option.some.inj h)
          rw [Key.bytes_write hroom hfull]
        next => cases h
      · intro h
        obtain rfl := Option.some.inj h
        have hroom : key.bytes.length ≤ keySize := Nat.le_of_eq key.size
        rw [dif_pos hroom, Key.ext_bytes (Key.bytes_write hroom key.size output), key.size]

theorem utf8Size_symbol {n : Nat} (h : n < 64) : (standard.symbol n).utf8Size = 1 := by
  have hall : standard.symbols.all (fun c => c.utf8Size == 1) = true := by decide
  have hlen : n < standard.symbols.length := h
  rw [Base64.Alphabet.symbol_eq hlen]
  exact eq_of_beq (List.all_eq_true.mp hall _ (List.getElem_mem hlen))

/-- Each symbol and each padding character is one byte. -/
theorem utf8Len_text {sextets : List Nat} (h : ∀ n ∈ sextets, n < 64) (k : Nat) :
    utf8Len (sextets.map standard.symbol ++ List.replicate k '=') = sextets.length + k := by
  have hpadding : '='.utf8Size = 1 := by decide
  have hsymbols : (sextets.map standard.symbol).map Char.utf8Size =
      List.replicate sextets.length 1 := by
    refine List.eq_replicate_iff.mpr ⟨by rw [List.length_map, List.length_map], ?_⟩
    intro size hsize
    obtain ⟨c, hc, rfl⟩ := List.mem_map.mp hsize
    obtain ⟨n, hn, rfl⟩ := List.mem_map.mp hc
    exact utf8Size_symbol (h n hn)
  rw [utf8Len, List.map_append, hsymbols, List.map_replicate, hpadding, List.sum_append,
    List.sum_replicate_nat, List.sum_replicate_nat, Nat.mul_one, Nat.mul_one]

theorem length_sextets (key : Key) : (Base64.sextetsOf key.bytes).length = 43 := by
  rw [Base64.length_sextetsOf, key.size]
  rfl

/-- The window of the length lets every text of a key pass. -/
theorem parseKeyBytes_iff_decode (hengine : engine.Standard) {encoded : String} {key : Key} :
    parseKeyBytes engine encoded = some key ↔ engine.decode encoded = some key.bytes := by
  rw [← decodeSlice_eq_some Key.zero]
  constructor
  · intro h
    unfold parseKeyBytes at h
    split at h
    · cases h
    · split at h
      · cases h
      next decodedSize key' hslice =>
        split at h
        · cases h
        next hsize =>
          cases h
          rw [hslice, not_not.mp hsize]
  · intro h
    obtain ⟨k, hk, htext⟩ := (hengine.decode _ _).mp ((decodeSlice_eq_some Key.zero).mp h)
    have hone : Base64.padding key.bytes.length = 1 := by
      rw [key.size]
      rfl
    have hlen : utf8Len encoded.toList = 43 + k := by
      rw [htext, utf8Len_text Base64.sextetsOf_lt, length_sextets]
    rw [parseKeyBytes, if_neg (by omega), h]
    exact if_neg (fun hne => hne rfl)

/-! ### The two texts of a key -/

/-- The text of a key without its padding. -/
def bareText (key : Key) : String :=
  String.ofList ((Base64.sextetsOf key.bytes).map standard.symbol)

theorem convertX25519KeyToBase64_eq (hengine : engine.Standard) (key : Key) :
    convertX25519KeyToBase64 engine key.bytes = some (bareText key ++ "=") := by
  have hone : Base64.padding key.bytes.length = 1 := by
    rw [key.size]
    rfl
  rw [convertX25519KeyToBase64, if_neg (not_not.mpr key.size), Option.some.injEq]
  refine String.toList_inj.mp ?_
  rw [hengine.encode, hone, String.toList_append, bareText, String.toList_ofList]
  rfl

theorem parseKeyBytes_eq_some (hengine : engine.Standard) {encoded : String} {key : Key} :
    parseKeyBytes engine encoded = some key ↔
      encoded = bareText key ++ "=" ∨ encoded = bareText key := by
  have hone : Base64.padding key.bytes.length = 1 := by
    rw [key.size]
    rfl
  have hbare : (bareText key).toList = (Base64.sextetsOf key.bytes).map standard.symbol :=
    String.toList_ofList
  have hpadded : (bareText key ++ "=").toList =
      (Base64.sextetsOf key.bytes).map standard.symbol ++ List.replicate 1 '=' := by
    rw [String.toList_append, hbare]
    rfl
  rw [parseKeyBytes_iff_decode hengine, hengine.decode, hone]
  constructor
  · rintro ⟨k, hk, htext⟩
    rcases Nat.le_one_iff_eq_zero_or_eq_one.mp hk with rfl | rfl
    · right
      refine String.toList_inj.mp ?_
      rw [htext, hbare]
      exact List.append_nil _
    · left
      refine String.toList_inj.mp ?_
      rw [htext, hpadded]
  · rintro (rfl | rfl)
    · exact ⟨1, Nat.le_refl 1, hpadded⟩
    · exact ⟨0, Nat.zero_le 1, hbare.trans (List.append_nil _).symm⟩

/-! ### Opening a tunnel -/

theorem exists_requireKey {encoded : String} :
    (∃ key, requireKey engine encoded = .ok key) ↔
      ∃ key, parseKeyBytes engine encoded = some key := by
  unfold requireKey
  cases parseKeyBytes engine encoded with
  | none => exact ⟨fun ⟨_, h⟩ => (by cases h), fun ⟨_, h⟩ => (by cases h)⟩
  | some key => exact ⟨fun _ => ⟨key, rfl⟩, fun _ => ⟨key, rfl⟩⟩

/-- A text of a key: its encoding, or the encoding without the last character. -/
def IsKeyText (engine : Base64Engine) (encoded : String) : Prop :=
  ∃ key : Key, ∃ bare, convertX25519KeyToBase64 engine key.bytes = some (bare ++ "=") ∧
    (encoded = bare ++ "=" ∨ encoded = bare)

theorem isKeyText_iff (hengine : engine.Standard) {encoded : String} :
    IsKeyText engine encoded ↔ ∃ key, requireKey engine encoded = .ok key := by
  rw [exists_requireKey]
  constructor
  · rintro ⟨key, bare, hconvert, htext⟩
    rw [convertX25519KeyToBase64_eq hengine, Option.some.injEq, String.append_left_inj] at hconvert
    subst hconvert
    exact ⟨key, (parseKeyBytes_eq_some hengine).mpr htext⟩
  · rintro ⟨key, h⟩
    exact ⟨key, bareText key, convertX25519KeyToBase64_eq hengine key,
      (parseKeyBytes_eq_some hengine).mp h⟩

theorem exists_requirePresharedKey (hengine : engine.Standard) {presharedKey : Option String} :
    (∃ preshared, requirePresharedKey engine presharedKey = .ok preshared) ↔
      ∀ text, presharedKey = some text → IsKeyText engine text := by
  cases presharedKey with
  | none => exact ⟨fun _ _ h => (by cases h), fun _ => ⟨none, rfl⟩⟩
  | some text =>
      simp only [requirePresharedKey, Option.some.injEq, forall_eq', isKeyText_iff hengine]
      cases requireKey engine text with
      | error e => exact ⟨fun ⟨_, h⟩ => (by cases h), fun ⟨_, h⟩ => (by cases h)⟩
      | ok key => exact ⟨fun _ => ⟨key, rfl⟩, fun _ => ⟨some key, rfl⟩⟩

theorem exists_createNewTunnel (hengine : engine.Standard) {σ : Type} {tunn : Tunn σ}
    {secretKey publicKey : String} {presharedKey : Option String} {keepAlive : UInt16}
    {index : UInt32} :
    (∃ session, createNewTunnel engine tunn secretKey publicKey presharedKey keepAlive index =
      .ok session) ↔
      index ≤ maxPeerIndex ∧ IsKeyText engine secretKey ∧ IsKeyText engine publicKey ∧
        ∀ text, presharedKey = some text → IsKeyText engine text := by
  rw [← exists_requirePresharedKey hengine, isKeyText_iff hengine, isKeyText_iff hengine,
    createNewTunnel]
  constructor
  · rintro ⟨session, h⟩
    split at h
    · cases h
    next hindex =>
      obtain ⟨secret, hsecret, h⟩ := bind_eq_ok.mp h
      obtain ⟨peer, hpeer, h⟩ := bind_eq_ok.mp h
      obtain ⟨preshared, hpreshared, _⟩ := bind_eq_ok.mp h
      exact ⟨UInt32.not_lt.mp hindex, ⟨secret, hsecret⟩, ⟨peer, hpeer⟩, ⟨preshared, hpreshared⟩⟩
  · rintro ⟨hindex, ⟨secret, hsecret⟩, ⟨peer, hpeer⟩, ⟨preshared, hpreshared⟩⟩
    rw [if_neg (UInt32.not_lt.mpr hindex), hsecret, hpeer, hpreshared]
    exact ⟨_, rfl⟩

end Engine

/-- A key is read from its encoding, with and without the padding character at its
end.  No other text is read as a key, and a tunnel is opened exactly by texts that
are. -/
theorem key_text_unambiguous (engine : Base64Engine) (hengine : engine.Standard) :
    (∀ key : Key, ∃ bare, convertX25519KeyToBase64 engine key.bytes = some (bare ++ "=") ∧
      parseKeyBytes engine (bare ++ "=") = some key ∧ parseKeyBytes engine bare = some key) ∧
    (∀ (encoded : String) (key : Key), parseKeyBytes engine encoded = some key →
      ∃ bare, convertX25519KeyToBase64 engine key.bytes = some (bare ++ "=") ∧
        (encoded = bare ++ "=" ∨ encoded = bare)) ∧
    ∀ (σ : Type) (tunn : Tunn σ) (secretKey publicKey : String) (presharedKey : Option String)
      (keepAlive : UInt16) (index : UInt32),
      (∃ session, createNewTunnel engine tunn secretKey publicKey presharedKey keepAlive index =
        .ok session) ↔
        index ≤ maxPeerIndex ∧ IsKeyText engine secretKey ∧ IsKeyText engine publicKey ∧
          ∀ text, presharedKey = some text → IsKeyText engine text := by
  refine ⟨fun key => ?_, fun encoded key h => ?_, fun _ _ _ _ _ _ _ => ?_⟩
  · exact ⟨bareText key, convertX25519KeyToBase64_eq hengine key,
      (parseKeyBytes_eq_some hengine).mpr (Or.inl rfl),
      (parseKeyBytes_eq_some hengine).mpr (Or.inr rfl)⟩
  · exact ⟨bareText key, convertX25519KeyToBase64_eq hengine key,
      (parseKeyBytes_eq_some hengine).mp h⟩
  · exact exists_createNewTunnel hengine

/-- `BASE64_ENGINE` -/
def base64Engine : Base64Engine where
  encode bytes := String.ofList (Base64.encode standard bytes)
  decode text := Base64.decode standard text.toList

theorem standard_base64Engine : base64Engine.Standard where
  encode _ := String.toList_ofList
  decode _ _ := Base64.decode_eq_some

/-- The text of the key that is all zeros. -/
theorem zeroKey_text :
    ∃ bare, convertX25519KeyToBase64 base64Engine Key.zero.bytes = some (bare ++ "=") ∧
      "AAAAAAAAAAAAAAAAAAAAAAAAAAAAAAAAAAAAAAAAAAA" = bare := by
  have hparse : parseKeyBytes base64Engine "AAAAAAAAAAAAAAAAAAAAAAAAAAAAAAAAAAAAAAAAAAA" =
      some Key.zero := by
    decide +kernel
  obtain ⟨bare, hconvert, htext⟩ :=
    (key_text_unambiguous base64Engine standard_base64Engine).2.1 _ _ hparse
  refine ⟨bare, hconvert, htext.resolve_left fun hlong => ?_⟩
  have hlast := congrArg (fun text : String => text.toList.getLast?) hlong
  simp only [String.toList_append] at hlast
  rw [show "=".toList = ['='] from rfl, List.getLast?_concat] at hlast
  exact absurd hlast (by decide)

end Uniffi
end WgKotlin
