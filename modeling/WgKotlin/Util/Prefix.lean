import WgKotlin.Util.IpUtil

/-!
# Prefix tests and network keys

`matches` and `normalizedKey` against the leading bits they stand for.  Both
mask the byte in which the prefix ends with the same mask, so a byte string and
its network bytes agree exactly on the leading bits.
-/

namespace WgKotlin
namespace Util

open Proto Kotlin Library

/-! ### The prefix test -/

theorem drop_eq_getD_cons {a : Bytes} {i : Nat} (h : i < a.length) :
    a.drop i = a.getD i 0 :: a.drop (i + 1) := by
  rw [List.drop_eq_getElem_cons h, List.getD_eq_getElem _ _ h]

theorem fullBytesMatch_eq {a b : Bytes} {i count : Nat} (ha : i + count ≤ a.length)
    (hb : i + count ≤ b.length) :
    fullBytesMatch a b (i : Int) count =
      .ok (decide ((a.drop i).take count = (b.drop i).take count)) := by
  induction count generalizing i with
  | zero => simp [fullBytesMatch]
  | succ count ih =>
      have hia : i < a.length := by omega
      have hib : i < b.length := by omega
      have hcast : (i : Int) + 1 = ((i + 1 : Nat) : Int) := by omega
      rw [fullBytesMatch, byteAt_natCast hia, byteAt_natCast hib, drop_eq_getD_cons hia,
        drop_eq_getD_cons hib, List.take_succ_cons, List.take_succ_cons]
      show (if a.getD i 0 ≠ b.getD i 0 then Except.ok false
        else fullBytesMatch a b ((i : Int) + 1) count) = _
      by_cases hne : a.getD i 0 = b.getD i 0
      · rw [if_neg (not_not.mpr hne), hcast, ih (by omega) (by omega)]
        simp only [List.cons.injEq, hne, true_and]
      · rw [if_pos hne]
        simp only [List.cons.injEq, hne, false_and, decide_false]

theorem prefixMask_natCast {r : Nat} (hr : r < 8) : prefixMask (r : Int) = highMask r := by
  unfold prefixMask highMask
  congr 2
  omega

theorem ipBytes_of_value {ip : Ip} {a : IpValue} (h : ip.value = some a) :
    ipBytes ip = some a.bytes := by
  unfold ipBytes
  rw [h]
  cases a <;> rfl

theorem sameClass_of_value {x y : Ip} {a b : IpValue} (ha : x.value = some a)
    (hb : y.value = some b) : sameClass x y = decide (a.family = b.family) := by
  unfold sameClass
  rw [ha, hb]
  cases a <;> cases b <;> rfl

theorem tdiv_natCast (p : Nat) : (p : Int).tdiv 8 = ((p / 8 : Nat) : Int) :=
  (Int.ofNat_tdiv p 8).symm

theorem tmod_natCast (p : Nat) : (p : Int).tmod 8 = ((p % 8 : Nat) : Int) :=
  (Int.ofNat_tmod p 8).symm

theorem bytesMatch_eq {a b : Bytes} {p : Nat} (ha : p ≤ 8 * a.length) (hb : p ≤ 8 * b.length) :
    bytesMatch a b (p : Int) = .ok (decide ((bits a).take p = (bits b).take p)) := by
  have hfull : fullBytesMatch a b 0 (p / 8) = .ok (decide (a.take (p / 8) = b.take (p / 8))) :=
    fullBytesMatch_eq (i := 0) (by omega) (by omega)
  have hbits := take_bits_eq_iff ha hb
  rw [bytesMatch, tdiv_natCast, tmod_natCast, Int.toNat_natCast, hfull]
  by_cases htake : a.take (p / 8) = b.take (p / 8)
  · rw [htake] at hbits
    simp only [true_and] at hbits
    by_cases hr : p % 8 = 0
    · have hb : (bits a).take p = (bits b).take p := by
        rw [hbits, hr, highMask_zero, Nat.and_zero, Nat.and_zero]
      simp [htake, hr, hb, bind, Except.bind]
    · have hia : p / 8 < a.length := by omega
      have hib : p / 8 < b.length := by omega
      have hr8 : p % 8 < 8 := Nat.mod_lt p (by omega)
      have hr' : ¬ (((p % 8 : Nat) : Int) = 0) := by omega
      rw [byteAt_natCast hia, byteAt_natCast hib, prefixMask_natCast hr8]
      simp only [htake, hr', bind, Except.bind, decide_true, Bool.not_true, Bool.false_eq_true,
        if_false, hbits]
      rfl
  · have hb : ¬ (bits a).take p = (bits b).take p := fun h => htake (hbits.mp h).1
    simp [htake, hb, bind, Except.bind]

/-! ### Destinations of any length -/

/-- The loop over the whole bytes, cut into two. -/
theorem fullBytesMatch_add (a b : Bytes) (i m k : Nat) :
    fullBytesMatch a b (i : Int) (m + k) = (do
      let equal ← fullBytesMatch a b (i : Int) m
      if equal then fullBytesMatch a b ((i + m : Nat) : Int) k else .ok false) := by
  induction m generalizing i with
  | zero => rw [Nat.zero_add, Nat.add_zero]; rfl
  | succ m ih =>
      have hcast : (i : Int) + 1 = ((i + 1 : Nat) : Int) := by omega
      have hstart : i + (m + 1) = i + 1 + m := by omega
      have hcount : m + 1 + k = m + k + 1 := by omega
      rw [hcount, fullBytesMatch, fullBytesMatch, hcast, ih, hstart]
      cases byteAt a (i : Int) with
      | error t => rfl
      | ok left =>
          cases byteAt b (i : Int) with
          | error t => rfl
          | ok right =>
              simp only [bind, Except.bind]
              by_cases hne : left = right
              · rw [if_neg (not_not.mpr hne), if_neg (not_not.mpr hne)]
              · rw [if_pos hne, if_pos hne]
                rfl

/-- A destination that is shorter than the prefix is read past its end when it
agrees with the prefix as far as it goes. -/
theorem bytesMatch_short {a b : Bytes} {p : Nat} (ha : p ≤ 8 * a.length) (hb : 8 * b.length < p) :
    bytesMatch a b (p : Int) =
      if b = a.take b.length then .error .indexOutOfBounds else .ok false := by
  obtain ⟨k, hk⟩ : ∃ k, p / 8 = b.length + k := ⟨p / 8 - b.length, by omega⟩
  have hfirst : fullBytesMatch a b ((0 : Nat) : Int) b.length =
      .ok (decide (b = a.take b.length)) := by
    rw [fullBytesMatch_eq (by omega) (by omega), List.drop_zero, List.drop_zero, List.take_length]
    simp only [eq_comm]
  have hsplit : fullBytesMatch a b 0 (b.length + k) = _ := fullBytesMatch_add a b 0 b.length k
  rw [hfirst, Nat.zero_add] at hsplit
  rw [bytesMatch, tdiv_natCast, tmod_natCast, Int.toNat_natCast, hk, hsplit]
  by_cases heq : b = a.take b.length
  · rw [if_pos heq, decide_eq_true heq]
    cases k with
    | zero =>
        have hr : ¬ (((p % 8 : Nat) : Int) = 0) := by omega
        rw [byteAt_natCast (show b.length + 0 < a.length by omega),
          byteAt_of_length_le (show b.length ≤ b.length + 0 by omega)]
        simp only [fullBytesMatch, bind, Except.bind, if_true, Bool.not_true, Bool.false_eq_true,
          if_false, hr]
    | succ k =>
        rw [fullBytesMatch, byteAt_natCast (show b.length < a.length by omega),
          byteAt_of_length_le (Nat.le_refl b.length)]
        rfl
  · rw [if_neg heq, decide_eq_false heq]
    rfl

/-- The bytes of the destination end before the prefix does, and agree with it up
to there. -/
def RunsPast (cidr : Cidr) (ip : Ip) : Prop :=
  ∃ a b, cidr.getIp.value = some a ∧ ip.value = some b ∧ a.family = b.family ∧
    8 * b.bytes.length < cidr.prefixLen.toNat ∧ b.bytes = a.bytes.take b.bytes.length

theorem cidrMatches_of_value {cidr : Cidr} {ip : Ip} {a b : IpValue} (hc : cidr.WellFormed)
    (ha : cidr.getIp.value = some a) (hb : ip.value = some b) :
    cidrMatches cidr ip =
      if a.family = b.family then bytesMatch a.bytes b.bytes (cidr.prefixLen.toNat : Int)
      else .ok false := by
  have h31 : cidr.prefixLen.toNat < 2 ^ 31 := by
    have := hc.prefixLen_le
    omega
  rw [cidrMatches, ipBytes_of_value ha, ipBytes_of_value hb]
  simp only [sameClass_of_value ha hb, toInt_of_lt h31, decide_eq_true_eq]

theorem not_contains_of_short {cidr : Cidr} {ip : Ip} {a b : IpValue}
    (ha : cidr.getIp.value = some a) (hb : ip.value = some b)
    (hlong : cidr.prefixLen.toNat ≤ 8 * a.bytes.length)
    (hshort : 8 * b.bytes.length < cidr.prefixLen.toNat) : ¬ cidr.Contains ip := by
  intro h
  have hlen := congrArg List.length ((Cidr.contains_iff ha hb).mp h).2
  rw [List.length_take, List.length_take, length_bits, length_bits] at hlen
  omega

/-- What `matches` does with any destination. -/
theorem cidrMatches_cases {cidr : Cidr} (hc : cidr.WellFormed) (ip : Ip) :
    (cidrMatches cidr ip = .error .indexOutOfBounds ∧ RunsPast cidr ip ∧ ¬ cidr.Contains ip) ∨
      (cidrMatches cidr ip = .ok (decide (cidr.Contains ip)) ∧ ¬ RunsPast cidr ip) := by
  obtain ⟨a, ha, hla, hp⟩ := hc.exists_value
  rw [← hla] at hp
  cases hb : ip.value with
  | none =>
      have hno : ¬ cidr.Contains ip := fun h => by
        obtain ⟨_, _, _, hv⟩ := h.exists_value
        rw [hb] at hv
        cases hv
      refine .inr ⟨?_, fun ⟨_, _, _, hv, _⟩ => by rw [hb] at hv; cases hv⟩
      rw [cidrMatches, ipBytes_of_value ha, decide_eq_false hno]
      simp only [ipBytes, hb]
  | some b =>
      have hpast : RunsPast cidr ip ↔ a.family = b.family ∧
          8 * b.bytes.length < cidr.prefixLen.toNat ∧ b.bytes = a.bytes.take b.bytes.length := by
        constructor
        · rintro ⟨a', b', ha', hb', h⟩
          cases ha.symm.trans ha'
          cases hb.symm.trans hb'
          exact h
        · exact fun h => ⟨a, b, ha, hb, h⟩
      rw [cidrMatches_of_value hc ha hb, hpast]
      by_cases hf : a.family = b.family
      · rw [if_pos hf]
        by_cases hshort : 8 * b.bytes.length < cidr.prefixLen.toNat
        · have hno := not_contains_of_short ha hb hp hshort
          rw [bytesMatch_short hp hshort, decide_eq_false hno]
          by_cases heq : b.bytes = a.bytes.take b.bytes.length
          · exact .inl ⟨if_pos heq, ⟨hf, hshort, heq⟩, hno⟩
          · exact .inr ⟨if_neg heq, fun h => heq h.2.2⟩
        · have hcontains := Cidr.contains_iff ha hb
          refine .inr ⟨?_, fun h => hshort h.2.1⟩
          rw [bytesMatch_eq hp (Nat.le_of_not_lt hshort)]
          simp only [hcontains, hf, true_and]
      · have hno : ¬ cidr.Contains ip := fun h => hf ((Cidr.contains_iff ha hb).mp h).1
        refine .inr ⟨?_, fun h => hf h.1⟩
        rw [if_neg hf, decide_eq_false hno]

theorem cidrMatches_eq_true_iff {cidr : Cidr} (hc : cidr.WellFormed) (ip : Ip) :
    cidrMatches cidr ip = .ok true ↔ cidr.Contains ip := by
  rcases cidrMatches_cases hc ip with ⟨h, _, hno⟩ | ⟨h, _⟩
  · rw [h]
    exact ⟨fun he => (by cases he), fun hyes => absurd hyes hno⟩
  · rw [h, Except.ok.injEq, decide_eq_true_eq]

theorem cidrMatches_eq_error_iff {cidr : Cidr} (hc : cidr.WellFormed) (ip : Ip) :
    (∃ t, cidrMatches cidr ip = .error t) ↔ RunsPast cidr ip := by
  rcases cidrMatches_cases hc ip with ⟨h, hpast, _⟩ | ⟨h, hpast⟩
  · exact ⟨fun _ => hpast, fun _ => ⟨_, h⟩⟩
  · rw [h]
    exact ⟨fun ⟨_, he⟩ => (by cases he), fun hyes => absurd hyes hpast⟩

/-- On well-formed operands `matches` reads no byte out of range and decides
whether the prefix contains the address. -/
theorem cidrMatches_eq {cidr : Cidr} {ip : Ip} (hc : cidr.WellFormed) (hi : ip.WellFormed) :
    cidrMatches cidr ip = .ok (decide (cidr.Contains ip)) := by
  rcases cidrMatches_cases hc ip with ⟨_, ⟨a, b, ha, hb, hf, hshort, _⟩, _⟩ | ⟨h, _⟩
  · obtain ⟨a', ha', _, hp⟩ := hc.exists_value
    obtain ⟨b', hb', hlb⟩ := hi.exists_value
    cases ha.symm.trans ha'
    cases hb.symm.trans hb'
    rw [hlb, ← hf] at hshort
    omega
  · exact h

/-! ### Network keys -/

theorem clearBytes_eq {bytes : Bytes} {i count : Nat} (h : i + count = bytes.length) :
    clearBytes bytes (i : Int) count = .ok (bytes.take i ++ List.replicate count 0) := by
  induction count generalizing bytes i with
  | zero => rw [clearBytes, List.replicate_zero, List.append_nil, List.take_of_length_le (by omega)]
  | succ count ih =>
      have hi : i < bytes.length := by omega
      have hcast : (i : Int) + 1 = ((i + 1 : Nat) : Int) := by omega
      have hset : (bytes.set i 0).take (i + 1) = bytes.take i ++ [0] := by
        rw [List.take_add_one, List.getElem?_set_self hi, List.take_set_of_le (Nat.le_refl i)]
        rfl
      rw [clearBytes, setByte_natCast hi]
      show clearBytes (bytes.set i 0) ((i : Int) + 1) count = _
      rw [hcast, ih (by rw [List.length_set]; omega), hset, List.append_assoc,
        List.singleton_append, ← List.replicate_succ]

/-- The bytes of an address with everything after the first `p` bits cleared. -/
def networkBytes (bytes : Bytes) (p : Nat) : Bytes :=
  bytes.take (p / 8) ++
    if p / 8 < bytes.length then
      UInt8.ofNat ((bytes.getD (p / 8) 0).toNat &&& highMask (p % 8)) ::
        List.replicate (bytes.length - (p / 8 + 1)) 0
    else []

theorem normalizeNetworkBytes_eq (bytes : Bytes) (p : Nat) :
    normalizeNetworkBytes bytes (p : Int) = .ok (networkBytes bytes p) := by
  rw [normalizeNetworkBytes, networkBytes, tdiv_natCast, tmod_natCast]
  by_cases hlt : p / 8 < bytes.length
  · have hlt' : ((p / 8 : Nat) : Int) < bytes.length := by omega
    simp only [hlt, hlt', if_true]
    by_cases hr : p % 8 = 0
    · have hcount :
          ((bytes.length : Int) - ((p / 8 : Nat) : Int)).toNat = bytes.length - p / 8 := by
        omega
      have hzero : ((p % 8 : Nat) : Int) = 0 := by omega
      simp only [hzero, if_true, bind, Except.bind, hcount]
      rw [clearBytes_eq (by omega), hr, highMask_zero, Nat.and_zero]
      have hrep : bytes.length - p / 8 = bytes.length - (p / 8 + 1) + 1 := by omega
      rw [hrep, List.replicate_succ]
      rfl
    · have hr8 : p % 8 < 8 := Nat.mod_lt p (by omega)
      have hpos : 0 < ((p % 8 : Nat) : Int) := by omega
      have hne : ¬ (((p % 8 : Nat) : Int) = 0) := by omega
      have hcast : ((p / 8 : Nat) : Int) + 1 = ((p / 8 + 1 : Nat) : Int) := by omega
      have hcount : ((bytes.length : Int) - ((p / 8 + 1 : Nat) : Int)).toNat =
          bytes.length - (p / 8 + 1) := by omega
      simp only [hpos, hne, if_true, if_false, byteAt_natCast hlt, setByte_natCast hlt, bind,
        Except.bind, hcast, hcount, prefixMask_natCast hr8]
      rw [clearBytes_eq (by rw [List.length_set]; omega), List.take_add_one,
        List.getElem?_set_self hlt, List.take_set_of_le (Nat.le_refl _), List.append_assoc]
      rfl
  · have hlt' : ¬ (((p / 8 : Nat) : Int) < bytes.length) := by omega
    simp only [hlt, hlt', if_false, List.append_nil]
    rw [List.take_of_length_le (by omega)]

theorem and_highMask_lt (b : UInt8) (r : Nat) : b.toNat &&& highMask r < 256 :=
  Nat.lt_of_le_of_lt Nat.and_le_left b.toNat_lt

/-- Clearing the bits after a prefix forgets exactly those bits. -/
theorem networkBytes_eq_iff {a b : Bytes} (hab : a.length = b.length) {p : Nat}
    (hp : p ≤ 8 * a.length) :
    networkBytes a p = networkBytes b p ↔ (bits a).take p = (bits b).take p := by
  rw [take_bits_eq_iff hp (by rw [← hab]; exact hp), networkBytes, networkBytes, hab]
  have hlen : (a.take (p / 8)).length = (b.take (p / 8)).length := by
    rw [List.length_take, List.length_take, hab]
  by_cases hlt : p / 8 < b.length
  · rw [if_pos hlt, if_pos hlt]
    constructor
    · intro h
      obtain ⟨h1, h2⟩ := List.append_inj h hlen
      rw [List.cons.injEq] at h2
      have hmask := congrArg UInt8.toNat h2.1
      rw [UInt8.toNat_ofNat_of_lt' (and_highMask_lt _ _),
        UInt8.toNat_ofNat_of_lt' (and_highMask_lt _ _)] at hmask
      exact ⟨h1, hmask⟩
    · intro h
      rw [h.1, h.2]
  · rw [if_neg hlt, if_neg hlt, List.append_nil, List.append_nil]
    have hget : ∀ c : Bytes, c.length ≤ p / 8 → c.getD (p / 8) 0 = 0 := fun c hc => by
      rw [List.getD_eq_default _ _ hc]
    rw [hget a (by omega), hget b (by omega)]
    exact ⟨fun h => ⟨h, rfl⟩, fun h => h.1⟩

theorem hexByte_toList (b : UInt8) :
    (hexByte b).toList = [Nat.digitChar (b.toNat / 16), Nat.digitChar (b.toNat % 16)] := by
  have hb : b.toNat < 256 := b.toNat_lt
  rw [hexByte, padStart, toString16, String.toList_ofList, String.toList_ofList]
  by_cases h : b.toNat < 16
  · rw [Nat.toDigits_of_lt_base h, Nat.div_eq_of_lt h, Nat.mod_eq_of_lt h]
    rfl
  · rw [Nat.toDigits_of_base_le (by omega) (by omega), Nat.toDigits_of_lt_base (by omega)]
    rfl

theorem appendAll_hexByte_inj : ∀ {a b : Bytes}, a.length = b.length →
    appendAll (a.map hexByte) = appendAll (b.map hexByte) → a = b := by
  intro a b hab h
  have hchars := String.ofList_injective h
  clear h
  induction a generalizing b with
  | nil => exact (List.eq_nil_of_length_eq_zero hab.symm).symm
  | cons x xs ih =>
      cases b with
      | nil => cases hab
      | cons y ys =>
          simp only [List.map_cons, List.flatMap_cons, hexByte_toList, List.cons_append,
            List.nil_append, List.cons.injEq] at hchars
          obtain ⟨h1, h2, h3⟩ := hchars
          have hx := x.toNat_lt
          have hy := y.toNat_lt
          have hd := digitChar_inj _ (by omega) _ (by omega) h1
          have hm := digitChar_inj _ (by omega) _ (by omega) h2
          have hxy : x = y := UInt8.toNat_inj.mp (by omega)
          rw [hxy, ih (Nat.succ.inj hab) h3]

theorem networkBytes_length (bytes : Bytes) (p : Nat) :
    (networkBytes bytes p).length = bytes.length := by
  rw [networkBytes, List.length_append, List.length_take]
  by_cases hlt : p / 8 < bytes.length
  · rw [if_pos hlt, List.length_cons, List.length_replicate]
    omega
  · rw [if_neg hlt, List.length_nil]
    omega

def familyChars : Family → String
  | .v4 => "v4"
  | .v6 => "v6"

theorem familyName_of_value {ip : Ip} {a : IpValue} (h : ip.value = some a) :
    familyName ip = .ok (familyChars a.family) := by
  unfold familyName
  rw [h]
  cases a <;> rfl

/-- The key of a well-formed prefix, spelled out. -/
theorem normalizedKey_eq {cidr : Cidr} {a : IpValue} (hc : cidr.WellFormed)
    (ha : cidr.getIp.value = some a) :
    normalizedKey cidr = .ok (familyChars a.family ++ "/" ++ toString cidr.prefixLen.toNat ++ ":" ++
      appendAll ((networkBytes a.bytes cidr.prefixLen.toNat).map hexByte)) := by
  have h31 : cidr.prefixLen.toNat < 2 ^ 31 := by
    have := hc.prefixLen_le
    omega
  rw [normalizedKey, ipBytes_of_value ha]
  simp only [toInt_of_lt h31]
  rw [normalizeNetworkBytes_eq, familyName_of_value ha]
  rfl

theorem familyChars_inj {f g : Family} (h : familyChars f = familyChars g) : f = g := by
  cases f <;> cases g <;> first | rfl | exact absurd h (by decide)

theorem familyChars_length (f : Family) : (familyChars f).toList.length = 2 := by
  cases f <;> rfl

/-- The three fields of a key are determined by the key. -/
theorem key_inj {f g : Family} {p q : Nat} {u v : String}
    (h : familyChars f ++ "/" ++ toString p ++ ":" ++ u =
      familyChars g ++ "/" ++ toString q ++ ":" ++ v) : f = g ∧ p = q ∧ u = v := by
  have hno : ∀ (e : Family) (n : Nat), ':' ∉ (familyChars e ++ "/" ++ toString n).toList := by
    intro e n hmem
    rw [String.toList_append, String.toList_append, List.mem_append, List.mem_append] at hmem
    rcases hmem with (hmem | hmem) | hmem
    · revert hmem
      cases e <;> decide
    · revert hmem
      decide
    · exact not_mem_toString (by decide) n hmem
  have hchars := congrArg String.toList h
  rw [String.toList_append (t := u), String.toList_append (t := v), String.toList_append (t := ":"),
    String.toList_append (t := ":"), List.append_assoc, List.append_assoc] at hchars
  obtain ⟨hhead, htail⟩ := append_separator_inj (c := ':') (hno f p) (hno g q) hchars
  rw [String.toList_append, String.toList_append, String.toList_append, String.toList_append,
    List.append_assoc, List.append_assoc] at hhead
  obtain ⟨hfam, hrest⟩ := List.append_inj hhead (by rw [familyChars_length, familyChars_length])
  have hnum := (List.append_inj hrest rfl).2
  exact ⟨familyChars_inj (String.toList_inj.mp hfam), toString_inj (String.toList_inj.mp hnum),
    String.toList_inj.mp htail⟩

theorem normalizedKey_total {cidr : Cidr} (hc : cidr.WellFormed) :
    ∃ key, normalizedKey cidr = .ok key := by
  obtain ⟨a, ha, _⟩ := hc.exists_value
  exact ⟨_, normalizedKey_eq hc ha⟩

/-- Two well-formed prefixes have one key exactly when they are one network. -/
theorem normalizedKey_eq_iff {c d : Cidr} (hc : c.WellFormed) (hd : d.WellFormed) :
    normalizedKey c = normalizedKey d ↔ c.SameNetwork d := by
  obtain ⟨a, ha, hla, hpa⟩ := hc.exists_value
  obtain ⟨b, hb, hlb, _⟩ := hd.exists_value
  rw [normalizedKey_eq hc ha, normalizedKey_eq hd hb, Except.ok.injEq]
  constructor
  · intro h
    obtain ⟨hf, hp, hu⟩ := key_inj h
    have hlen : a.bytes.length = b.bytes.length := by rw [hla, hlb, hf]
    have hnet := appendAll_hexByte_inj
      (by rw [networkBytes_length, networkBytes_length, hlen]) hu
    rw [← hp, networkBytes_eq_iff hlen (by rw [hla]; exact hpa)] at hnet
    exact ⟨UInt32.toNat_inj.mp hp, (Cidr.contains_iff ha hb).mpr ⟨hf, hnet⟩⟩
  · intro h
    obtain ⟨hf, hbits⟩ := (Cidr.contains_iff ha hb).mp h.2
    have hlen : a.bytes.length = b.bytes.length := by rw [hla, hlb, hf]
    rw [(networkBytes_eq_iff hlen (by rw [hla]; exact hpa)).mpr hbits, hf, h.1]

theorem contains_self {cidr : Cidr} (hc : cidr.WellFormed) : cidr.Contains cidr.getIp := by
  obtain ⟨a, ha, _⟩ := hc.exists_value
  exact (Cidr.contains_iff ha ha).mpr ⟨rfl, rfl⟩

/-- One network, told by the addresses in it. -/
theorem sameNetwork_iff_contains {c d : Cidr} (hd : d.WellFormed) :
    c.SameNetwork d ↔ c.prefixLen = d.prefixLen ∧ ∀ ip, c.Contains ip ↔ d.Contains ip := by
  constructor
  · rintro ⟨hlen, hcd⟩
    obtain ⟨a, b, ha, hb⟩ := hcd.exists_value
    obtain ⟨hf, hbits⟩ := (Cidr.contains_iff ha hb).mp hcd
    refine ⟨hlen, fun ip => ?_⟩
    cases hv : ip.value with
    | none => simp only [Cidr.Contains, ha, hb, hv]
    | some i => rw [Cidr.contains_iff ha hv, Cidr.contains_iff hb hv, hf, hbits, hlen]
  · rintro ⟨hlen, hsame⟩
    exact ⟨hlen, (hsame d.getIp).mpr (contains_self hd)⟩

/-- The leading bits as numbers: two addresses of one family agree on them when
their big-endian numbers agree above the host part. -/
theorem contains_iff_shiftRight {cidr : Cidr} {ip : Ip} {a b : IpValue} (hc : cidr.WellFormed)
    (ha : cidr.getIp.value = some a) (hb : ip.value = some b)
    (hlen : b.bytes.length = b.family.size) :
    cidr.Contains ip ↔ a.family = b.family ∧
      ofBeBytes a.bytes >>> (8 * a.family.size - cidr.prefixLen.toNat) =
        ofBeBytes b.bytes >>> (8 * a.family.size - cidr.prefixLen.toNat) := by
  obtain ⟨a', ha', hla, hp⟩ := hc.exists_value
  cases ha.symm.trans ha'
  rw [Cidr.contains_iff ha hb]
  refine and_congr_right fun hf => ?_
  rw [take_bits_eq_iff_shiftRight (by rw [hla, hlen, hf]) (by rw [hla]; exact hp), hla]

/-- `matches` and `normalizedKey` mean the same networks.  The test holds for
exactly the addresses that share the leading bits; it reads out of range only
when a destination ends inside the prefix, which no destination with all its
bytes does; and two keys are equal for two prefixes of one family and length
that match the same addresses. -/
theorem cidrMatches_normalizedKey_agree (a b : Cidr) (ha : a.WellFormed) (hb : b.WellFormed) :
    (∀ d, cidrMatches a d = .ok true ↔ a.Contains d) ∧
    (∀ d va vd, a.getIp.value = some va → d.value = some vd →
      vd.bytes.length = vd.family.size →
      (a.Contains d ↔ va.family = vd.family ∧
        ofBeBytes va.bytes >>> (8 * va.family.size - a.prefixLen.toNat) =
          ofBeBytes vd.bytes >>> (8 * va.family.size - a.prefixLen.toNat))) ∧
    (∀ d, (∃ t, cidrMatches a d = .error t) ↔ RunsPast a d) ∧
    (∀ d vd, d.value = some vd → RunsPast a d → vd.bytes.length < vd.family.size) ∧
    ∃ ka kb, normalizedKey a = .ok ka ∧ normalizedKey b = .ok kb ∧
      (ka = kb ↔ a.getIp.value.map IpValue.family = b.getIp.value.map IpValue.family ∧
        a.prefixLen = b.prefixLen ∧
        ∀ d, cidrMatches a d = .ok true ↔ cidrMatches b d = .ok true) := by
  obtain ⟨va, hva, hla, hp⟩ := ha.exists_value
  obtain ⟨vb, hvb, _⟩ := hb.exists_value
  refine ⟨fun d => cidrMatches_eq_true_iff ha d, ?_, fun d => cidrMatches_eq_error_iff ha d, ?_, ?_⟩
  · intro d va' vd hva' hvd hlen
    exact contains_iff_shiftRight ha hva' hvd hlen
  · rintro d vd hvd ⟨va', vd', hva', hvd', hf, hshort, _⟩
    cases hva.symm.trans hva'
    cases hvd.symm.trans hvd'
    rw [← hf]
    omega
  · obtain ⟨ka, hka⟩ := normalizedKey_total ha
    obtain ⟨kb, hkb⟩ := normalizedKey_total hb
    have hkeys := normalizedKey_eq_iff ha hb
    rw [hka, hkb, Except.ok.injEq, sameNetwork_iff_contains hb] at hkeys
    refine ⟨ka, kb, hka, hkb, ?_⟩
    rw [hkeys]
    simp only [cidrMatches_eq_true_iff ha, cidrMatches_eq_true_iff hb]
    constructor
    · rintro ⟨hlen, hsame⟩
      have hf := ((Cidr.contains_iff hva hvb).mp ((hsame b.getIp).mpr (contains_self hb))).1
      exact ⟨by rw [hva, hvb, Option.map_some, Option.map_some, hf], hlen, hsame⟩
    · exact fun h => h.2

def tenNet : Cidr := { ip := some { value := some (.v4 [10, 1, 0, 0]) }, prefixLen := 12 }

theorem tenNet_agree : tenNet.WellFormed ∧
    cidrMatches tenNet { value := some (.v4 [10, 15, 2, 3]) } = .ok true := by
  have h := cidrMatches_normalizedKey_agree tenNet tenNet (by decide) (by decide)
  exact ⟨by decide, (h.1 _).mpr (by decide)⟩

/-- A destination of three bytes is read past its end. -/
theorem cidrMatches_short_destination :
    Cidr.WellFormed { ip := some { value := some (.v4 [10, 0, 0, 1]) }, prefixLen := 32 } ∧
      cidrMatches { ip := some { value := some (.v4 [10, 0, 0, 1]) }, prefixLen := 32 }
        { value := some (.v4 [10, 0, 0]) } = .error .indexOutOfBounds := by
  decide

/-! ### Packet destinations -/

theorem copyOfRange_length {bytes : Bytes} {i j : Nat} (h : j ≤ bytes.length) :
    (copyOfRange bytes i j).length = j - i := by
  rw [copyOfRange, List.length_take, List.length_drop]
  omega

/-- A destination that was read has as many bytes as its family has. -/
theorem parsePacketDestination_wellFormed {packet : Bytes} {ip : Ip}
    (h : parsePacketDestination packet = .ok ip) : ip.WellFormed := by
  cases packet with
  | nil => cases h
  | cons first rest =>
      rw [parsePacketDestination] at h
      by_cases h4 : (first.toNat >>> 4) &&& 0x0f = 4
      · simp only [h4, if_true] at h
        obtain ⟨_, hlen, hip⟩ := bind_eq_ok.mp h
        cases hip
        exact copyOfRange_length (of_decide_eq_true (require_eq_ok.mp hlen))
      · by_cases h6 : (first.toNat >>> 4) &&& 0x0f = 6
        · simp only [h6, if_true] at h
          obtain ⟨_, hlen, hip⟩ := bind_eq_ok.mp h
          cases hip
          exact copyOfRange_length (of_decide_eq_true (require_eq_ok.mp hlen))
        · simp only [h4, h6, if_false] at h
          cases h

end Util
end WgKotlin
