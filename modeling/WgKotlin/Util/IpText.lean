import WgKotlin.Util.IpUtil

/-!
# Addresses and prefixes as text

What parsing yields is well formed, and the text of a well-formed prefix
determines it: a dotted or a colon-separated address cannot be taken for one
another, and the slash ends the address.
-/

namespace WgKotlin
namespace Util

open Proto Kotlin Library

/-! ### Parsing -/

theorem resolveToIp_wellFormed {getByName : String → Except Throwable Bytes} {host : String}
    {ip : Ip} (h : resolveToIp getByName host = .ok ip) : ip.WellFormed := by
  obtain ⟨bytes, _, h⟩ := bind_eq_ok.mp h
  split at h
  next hlen =>
    cases h
    exact hlen
  next =>
    split at h
    next hlen =>
      cases h
      exact hlen
    next => cases h

theorem maxPrefix_eq_ok {ip : Ip} {longest : UInt32} (h : maxPrefix ip = .ok longest) :
    ∃ a, ip.value = some a ∧ longest.toNat = 8 * a.family.size := by
  unfold maxPrefix at h
  split at h
  next bytes hvalue =>
    cases h
    exact ⟨_, hvalue, rfl⟩
  next bytes hvalue =>
    cases h
    exact ⟨_, hvalue, rfl⟩
  next => cases h

theorem toCidr_wellFormed {getByName : String → Except Throwable Bytes} {text : String}
    {cidr : Cidr} (h : toCidr getByName text = .ok cidr) : cidr.WellFormed := by
  obtain ⟨ip, hip, h⟩ := bind_eq_ok.mp h
  obtain ⟨longest, hlongest, h⟩ := bind_eq_ok.mp h
  obtain ⟨a, ha, hsize⟩ := maxPrefix_eq_ok hlongest
  have hwf := resolveToIp_wellFormed hip
  have hof : ∀ p : UInt32, p ≤ longest → Cidr.WellFormed { ip := some ip, prefixLen := p } := by
    intro p hp
    have hp : p.toNat ≤ longest.toNat := hp
    exact hwf.cidr ha (by omega)
  split at h
  next =>
    cases h
    exact hof longest (Nat.le_refl _)
  next =>
    split at h
    next => cases h
    next p _ =>
      obtain ⟨_, hrange, h⟩ := bind_eq_ok.mp h
      cases h
      exact hof p (of_decide_eq_true (require_eq_ok.mp hrange))

/-! ### Texts of addresses -/

theorem toString16_toList (n : Nat) : (toString16 n).toList = Nat.toDigits 16 n :=
  String.toList_ofList

/-- The separators of addresses are no digits. -/
theorem separator_ne_digitChar {c : Char} (hc : c = '.' ∨ c = ':' ∨ c = '/') :
    ∀ k < 16, c ≠ Nat.digitChar k := by
  rcases hc with rfl | rfl | rfl <;> decide

theorem not_mem_toString16 {c : Char} (hc : c = '.' ∨ c = ':' ∨ c = '/') (n : Nat) :
    c ∉ (toString16 n).toList := by
  intro h
  rw [toString16_toList] at h
  obtain ⟨k, hk, he⟩ := mem_toDigits (by omega) n h
  exact separator_ne_digitChar hc k hk he

theorem separator_not_mem_toString {c : Char} (hc : c = '.' ∨ c = ':' ∨ c = '/') (n : Nat) :
    c ∉ (toString n).toList :=
  not_mem_toString (fun k hk => separator_ne_digitChar hc k (by omega)) n

theorem segmentString_inj {p q : UInt8 × UInt8} (h : segmentString p = segmentString q) :
    p = q := by
  have hdigits := congrArg String.toList h
  rw [segmentString, segmentString, toString16_toList, toString16_toList] at hdigits
  have hvalue := toDigits_injective (by omega) (by omega) _ _ hdigits
  have hp : p.2.toNat < 2 ^ 8 := p.2.toNat_lt
  have hq : q.2.toNat < 2 ^ 8 := q.2.toNat_lt
  rw [← Nat.shiftLeft_add_eq_or_of_lt hp, ← Nat.shiftLeft_add_eq_or_of_lt hq,
    Nat.shiftLeft_eq, Nat.shiftLeft_eq] at hvalue
  have h1 : p.1.toNat = q.1.toNat := by omega
  have h2 : p.2.toNat = q.2.toNat := by omega
  exact Prod.ext (UInt8.toNat_inj.mp h1) (UInt8.toNat_inj.mp h2)

theorem chunkedPairs_eq_ok {bytes : Bytes} {pairs : List (UInt8 × UInt8)}
    (h : chunkedPairs bytes = .ok pairs) : bytes = pairs.flatMap fun p => [p.1, p.2] := by
  fun_induction chunkedPairs bytes generalizing pairs with
  | case1 =>
      cases h
      rfl
  | case2 => cases h
  | case3 hi lo rest ih =>
      obtain ⟨rest', hrest, h⟩ := bind_eq_ok.mp h
      cases h
      rw [ih hrest]
      rfl

theorem chunkedPairs_total : ∀ (n : Nat) (bytes : Bytes), bytes.length = 2 * n →
    ∃ pairs, chunkedPairs bytes = .ok pairs ∧ pairs.length = n
  | 0, bytes, h => by
      rw [List.length_eq_zero_iff.mp h]
      exact ⟨[], rfl, rfl⟩
  | n + 1, [], h => by
      rw [List.length_nil] at h
      omega
  | n + 1, [_], h => by
      rw [List.length_singleton] at h
      omega
  | n + 1, hi :: lo :: rest, h => by
      rw [List.length_cons, List.length_cons] at h
      obtain ⟨pairs, hpairs, hlen⟩ := chunkedPairs_total n rest (by omega)
      refine ⟨(hi, lo) :: pairs, ?_, by rw [List.length_cons, hlen]⟩
      rw [chunkedPairs, hpairs]
      rfl

/-- The text of a well-formed address: its fields and their separator. -/
theorem toPlainString_eq {ip : Ip} (h : ip.WellFormed) :
    ∃ a, ip.value = some a ∧ match a with
      | .v4 bytes => bytes.length = 4 ∧
        toPlainString ip = .ok (joinToString '.' (bytes.map fun b => toString b.toNat))
      | .v6 bytes => ∃ pairs, chunkedPairs bytes = .ok pairs ∧ pairs.length = 8 ∧
        toPlainString ip = .ok (joinToString ':' (pairs.map segmentString)) := by
  obtain ⟨a, ha, hlen⟩ := h.exists_value
  refine ⟨a, ha, ?_⟩
  cases a with
  | v4 bytes => exact ⟨hlen, by rw [toPlainString, ha]⟩
  | v6 bytes =>
      obtain ⟨pairs, hpairs, hlen⟩ := chunkedPairs_total 8 bytes hlen
      refine ⟨pairs, hpairs, hlen, ?_⟩
      rw [toPlainString, ha]
      simp only [hpairs]
      rfl

/-- The fields of the text of an address. -/
theorem not_mem_v4 {c : Char} (hc : c = ':' ∨ c = '/') (bytes : Bytes) :
    c ∉ (joinToString '.' (bytes.map fun b => toString b.toNat)).toList := by
  refine not_mem_joinToString (by rcases hc with rfl | rfl <;> decide) fun s hs => ?_
  obtain ⟨b, _, rfl⟩ := List.mem_map.mp hs
  exact separator_not_mem_toString (Or.inr hc) _

theorem not_mem_v6 {c : Char} (hc : c = '.' ∨ c = '/') (pairs : List (UInt8 × UInt8)) :
    c ∉ (joinToString ':' (pairs.map segmentString)).toList := by
  refine not_mem_joinToString (by rcases hc with rfl | rfl <;> decide) fun s hs => ?_
  obtain ⟨p, _, rfl⟩ := List.mem_map.mp hs
  refine not_mem_toString16 ?_ _
  rcases hc with rfl | rfl
  · exact Or.inl rfl
  · exact Or.inr (Or.inr rfl)

theorem v4_text_ne_v6_text {bytes : Bytes} {pairs : List (UInt8 × UInt8)}
    (hlen : bytes.length = 4) :
    joinToString '.' (bytes.map fun b => toString b.toNat) ≠
      joinToString ':' (pairs.map segmentString) := by
  intro h
  have hdot : '.' ∈ (joinToString '.' (bytes.map fun b => toString b.toNat)).toList :=
    separator_mem_joinToString (by rw [List.length_map]; omega)
  rw [h] at hdot
  exact not_mem_v6 (Or.inl rfl) pairs hdot

theorem v4_text_inj {a b : Bytes} (ha : a.length = 4) (hb : b.length = 4)
    (h : joinToString '.' (a.map fun x => toString x.toNat) =
      joinToString '.' (b.map fun x => toString x.toNat)) : a = b := by
  have hfields : ∀ l : Bytes, ∀ s ∈ l.map (fun x => toString x.toNat), '.' ∉ s.toList := by
    intro l s hs
    obtain ⟨x, _, rfl⟩ := List.mem_map.mp hs
    exact separator_not_mem_toString (Or.inl rfl) _
  have hmap := joinToString_inj (hfields a) (hfields b) ?_ ?_ h
  · refine List.map_injective_iff.mpr (fun x y hxy => ?_) hmap
    exact UInt8.toNat_inj.mp (toString_inj hxy)
  · intro hnil
    rw [List.map_eq_nil_iff.mp hnil] at ha
    cases ha
  · intro hnil
    rw [List.map_eq_nil_iff.mp hnil] at hb
    cases hb

theorem v6_text_inj {p q : List (UInt8 × UInt8)} (hp : p.length = 8) (hq : q.length = 8)
    (h : joinToString ':' (p.map segmentString) = joinToString ':' (q.map segmentString)) :
    p = q := by
  have hfields : ∀ l : List (UInt8 × UInt8), ∀ s ∈ l.map segmentString, ':' ∉ s.toList := by
    intro l s hs
    obtain ⟨x, _, rfl⟩ := List.mem_map.mp hs
    exact not_mem_toString16 (Or.inr (Or.inl rfl)) _
  have hmap := joinToString_inj (hfields p) (hfields q) ?_ ?_ h
  · exact List.map_injective_iff.mpr (fun _ _ hxy => segmentString_inj hxy) hmap
  · intro hnil
    rw [List.map_eq_nil_iff.mp hnil] at hp
    cases hp
  · intro hnil
    rw [List.map_eq_nil_iff.mp hnil] at hq
    cases hq

/-- Well-formed addresses have a text, and it is theirs alone. -/
theorem toPlainString_inj {ip ip' : Ip} (h : ip.WellFormed) (h' : ip'.WellFormed)
    (heq : toPlainString ip = toPlainString ip') : ip = ip' := by
  have hext : ∀ {i j : Ip}, i.value = j.value → i = j := by
    intro i j hij
    cases i
    cases j
    cases hij
    rfl
  obtain ⟨a, ha, hspec⟩ := toPlainString_eq h
  obtain ⟨b, hb, hspec'⟩ := toPlainString_eq h'
  apply hext
  rw [ha, hb]
  cases a with
  | v4 bytes =>
      cases b with
      | v4 bytes' =>
          rw [hspec.2, hspec'.2, Except.ok.injEq] at heq
          rw [v4_text_inj hspec.1 hspec'.1 heq]
      | v6 bytes' =>
          obtain ⟨pairs, _, _, htext⟩ := hspec'
          rw [hspec.2, htext, Except.ok.injEq] at heq
          exact absurd heq (v4_text_ne_v6_text hspec.1)
  | v6 bytes =>
      obtain ⟨pairs, hpairs, hlen, htext⟩ := hspec
      cases b with
      | v4 bytes' =>
          rw [htext, hspec'.2, Except.ok.injEq] at heq
          exact absurd heq.symm (v4_text_ne_v6_text hspec'.1)
      | v6 bytes' =>
          obtain ⟨pairs', hpairs', hlen', htext'⟩ := hspec'
          rw [htext, htext', Except.ok.injEq] at heq
          have hpq := v6_text_inj hlen hlen' heq
          rw [chunkedPairs_eq_ok hpairs, chunkedPairs_eq_ok hpairs', hpq]

/-- A well-formed address has a text, without a slash. -/
theorem toPlainString_total {ip : Ip} (h : ip.WellFormed) :
    ∃ text, toPlainString ip = .ok text ∧ '/' ∉ text.toList := by
  obtain ⟨a, _, hspec⟩ := toPlainString_eq h
  cases a with
  | v4 bytes => exact ⟨_, hspec.2, not_mem_v4 (Or.inr rfl) bytes⟩
  | v6 bytes =>
      obtain ⟨pairs, _, _, htext⟩ := hspec
      exact ⟨_, htext, not_mem_v6 (Or.inr rfl) pairs⟩

/-! ### Texts of prefixes -/

theorem toCidrString_eq {cidr : Cidr} (h : cidr.WellFormed) :
    ∃ plain, toPlainString cidr.getIp = .ok plain ∧ '/' ∉ plain.toList ∧
      toCidrString cidr = .ok (plain ++ "/" ++ toString cidr.prefixLen.toNat) := by
  obtain ⟨plain, hplain, hslash⟩ := toPlainString_total h.1
  refine ⟨plain, hplain, hslash, ?_⟩
  rw [toCidrString, hplain]
  rfl

/-- A well-formed prefix is determined by its text. -/
theorem toCidrString_inj {c d : Cidr} (hc : c.WellFormed) (hd : d.WellFormed)
    (h : toCidrString c = toCidrString d) : c = d := by
  obtain ⟨plain, hplain, hslash, htext⟩ := toCidrString_eq hc
  obtain ⟨plain', hplain', hslash', htext'⟩ := toCidrString_eq hd
  rw [htext, htext', Except.ok.injEq] at h
  have hchars := congrArg String.toList h
  rw [String.toList_append, String.toList_append, String.toList_append, String.toList_append,
    List.append_assoc, List.append_assoc] at hchars
  obtain ⟨hplains, hlens⟩ := append_separator_inj hslash hslash' hchars
  rw [String.toList_inj.mp hplains] at hplain
  have hip := toPlainString_inj hc.1 hd.1 (hplain.trans hplain'.symm)
  have hdigits : (toString c.prefixLen.toNat).toList = (toString d.prefixLen.toNat).toList := hlens
  have hlen : c.prefixLen = d.prefixLen :=
    UInt32.toNat_inj.mp (toString_inj (String.toList_inj.mp hdigits))
  exact hc.ext hd hip hlen

end Util
end WgKotlin
