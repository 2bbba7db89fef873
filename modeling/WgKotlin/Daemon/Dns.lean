import WgKotlin.Daemon.SessionStart
import WgKotlin.Library.Words

/-!
# DNS settings

What `validate_dns` lets through and what the systems are told of it.  A search
domain is trimmed twice, once to be checked and once to be used, and the two agree
because a host name has nothing to trim.  Windows gets both lists as lines of one
text, and reads them back because no entry is empty or has a line break.
-/

namespace WgKotlin
namespace Daemon

open Proto Library

/-! ### Texts of addresses -/

/-- `Display` of `Ipv4Addr` -/
def displayV4 (octets : Bytes) : List Char :=
  ['.'].intercalate (octets.map fun b => Nat.toDigits 10 b.toNat)

def segments : Bytes → List Nat
  | hi :: lo :: rest => (256 * hi.toNat + lo.toNat) :: segments rest
  | _ => []

structure Span where
  start : Nat := 0
  len : Nat := 0

/-- The first of the longest runs of zeros. -/
def zeroSpan : List Nat → Nat → Span → Span → Span
  | [], _, _, longest => longest
  | segment :: rest, i, current, longest =>
    if segment = 0 then
      let current : Span :=
        { start := if current.len = 0 then i else current.start, len := current.len + 1 }
      zeroSpan rest (i + 1) current (if longest.len < current.len then current else longest)
    else zeroSpan rest (i + 1) {} longest

def fmtSubslice (chunk : List Nat) : List Char :=
  [':'].intercalate (chunk.map fun segment => Nat.toDigits 16 segment)

/-- `Display` of `Ipv6Addr` -/
def displayV6 (octets : Bytes) : List Char :=
  if octets.take 12 = List.replicate 10 0 ++ [0xff, 0xff] then
    "::ffff:".toList ++ displayV4 (octets.drop 12)
  else
    let zeroes := zeroSpan (segments octets) 0 {} {}
    if 1 < zeroes.len then
      fmtSubslice ((segments octets).take zeroes.start) ++ "::".toList ++
        fmtSubslice ((segments octets).drop (zeroes.start + zeroes.len))
    else fmtSubslice (segments octets)

def displayIp (ip : IpAddr) : String :=
  String.ofList
    (match ip.family with
    | .v4 => displayV4 ip.octets
    | .v6 => displayV6 ip.octets)

example : String.ofList (displayV6 [0x20, 1, 0xd, 0xb8, 0, 0, 0, 0, 0, 0, 0, 1, 0, 0, 0, 1]) =
    "2001:db8::1:0:1" := by
  decide

theorem newline_ne_digitChar : ∀ k < 16, '\n' ≠ Nat.digitChar k := by
  decide

theorem newline_not_mem_toDigits {base : Nat} (hbase : 1 < base) (h16 : base ≤ 16) (n : Nat) :
    '\n' ∉ Nat.toDigits base n := by
  intro h
  obtain ⟨k, hk, he⟩ := mem_toDigits hbase n h
  exact newline_ne_digitChar k (by omega) he

theorem newline_not_mem_intercalate {c : Char} (hc : '\n' ≠ c) {fields : List (List Char)}
    (h : ∀ f ∈ fields, '\n' ∉ f) : '\n' ∉ [c].intercalate fields := by
  intro hmem
  rcases mem_intercalate hmem with he | ⟨f, hf, hin⟩
  · exact hc he
  · exact h f hf hin

theorem newline_not_mem_displayV4 (octets : Bytes) : '\n' ∉ displayV4 octets := by
  refine newline_not_mem_intercalate (by decide) fun f hf => ?_
  obtain ⟨b, _, rfl⟩ := List.mem_map.mp hf
  exact newline_not_mem_toDigits (by omega) (by omega) _

theorem newline_not_mem_fmtSubslice (chunk : List Nat) : '\n' ∉ fmtSubslice chunk := by
  refine newline_not_mem_intercalate (by decide) fun f hf => ?_
  obtain ⟨segment, _, rfl⟩ := List.mem_map.mp hf
  exact newline_not_mem_toDigits (by omega) (by omega) _

theorem newline_not_mem_displayIp (ip : IpAddr) : '\n' ∉ (displayIp ip).toList := by
  rw [displayIp, String.toList_ofList]
  cases ip.family with
  | v4 => exact newline_not_mem_displayV4 ip.octets
  | v6 =>
      simp only [displayV6]
      split
      · rw [List.mem_append, not_or]
        exact ⟨by decide, newline_not_mem_displayV4 _⟩
      · split
        · rw [List.mem_append, List.mem_append, not_or, not_or]
          exact ⟨⟨newline_not_mem_fmtSubslice _, by decide⟩, newline_not_mem_fmtSubslice _⟩
        · exact newline_not_mem_fmtSubslice _

theorem intercalate_toDigits_ne_nil (base : Nat) (separator : Char) {numbers : List Nat}
    (hne : numbers ≠ []) : [separator].intercalate (numbers.map (Nat.toDigits base)) ≠ [] := by
  refine intercalate_ne_nil (fun h => hne (List.map_eq_nil_iff.mp h)) fun field hfield => ?_
  obtain ⟨n, _, rfl⟩ := List.mem_map.mp hfield
  exact Nat.toDigits_ne_nil

theorem displayIp_ne_empty (ip : IpAddr) : displayIp ip ≠ "" := by
  have hsize := ip.size
  suffices h : (displayIp ip).toList ≠ [] by
    intro he
    rw [he] at h
    exact h rfl
  rw [displayIp, String.toList_ofList]
  cases hfamily : ip.family with
  | v4 =>
      rw [hfamily] at hsize
      have hne : ip.octets.map UInt8.toNat ≠ [] := by
        intro hnil
        rw [List.map_eq_nil_iff.mp hnil] at hsize
        cases hsize
      have htext := intercalate_toDigits_ne_nil 10 '.' hne
      rwa [List.map_map] at htext
  | v6 =>
      rw [hfamily] at hsize
      simp only [displayV6]
      split
      · exact fun h => absurd (List.append_eq_nil_iff.mp h).1 (by decide)
      · split
        · intro h
          exact absurd (List.append_eq_nil_iff.mp (List.append_eq_nil_iff.mp h).1).2 (by decide)
        · cases hoctets : ip.octets with
          | nil =>
              rw [hoctets] at hsize
              cases hsize
          | cons hi rest =>
              cases rest with
              | nil =>
                  rw [hoctets] at hsize
                  cases hsize
              | cons lo rest => exact intercalate_toDigits_ne_nil 16 ':' (List.cons_ne_nil _ _)

/-! ### Host names -/

/-- Letters, digits and inner hyphens, from one to 63 of them. -/
structure IsLabel (label : List Char) : Prop where
  nonempty : 1 ≤ label.length
  short : label.length ≤ 63
  chars : ∀ c ∈ label, c.isAlphanum = true ∨ c = '-'
  head : label.head? ≠ some '-'
  last : label.getLast? ≠ some '-'

/-- Labels between dots, at most 253 characters in all. -/
def IsHostname (text : List Char) : Prop :=
  text.length ≤ maxDomainLength ∧
    ∃ labels, labels ≠ [] ∧ text = ['.'].intercalate labels ∧ ∀ label ∈ labels, IsLabel label

theorem length_le_utf8Len (text : List Char) : text.length ≤ utf8Len text := by
  induction text with
  | nil => exact Nat.le_refl 0
  | cons c rest ih =>
      have hc : 1 ≤ c.utf8Size := Char.utf8Size_pos c
      rw [utf8Len, List.map_cons, List.sum_cons, List.length_cons, ← utf8Len]
      omega

theorem isLabel_of_isValidLabel {label : List Char} (h : isValidLabel label = true) :
    IsLabel label := by
  simp only [isValidLabel, Bool.and_eq_true, Bool.not_eq_true', Bool.or_eq_false_iff,
    decide_eq_false_iff_not, beq_eq_false_iff_ne, List.all_eq_true, Bool.or_eq_true,
    beq_iff_eq] at h
  obtain ⟨⟨⟨hempty, hlength⟩, hhead, hlast⟩, hchars⟩ := h
  have hshort := length_le_utf8Len label
  refine ⟨?_, by omega, hchars, hhead, hlast⟩
  cases label with
  | nil => cases hempty
  | cons c rest => exact Nat.succ_pos _

theorem isHostname_of_isValidHostname {text : List Char} (h : isValidHostname text = true) :
    IsHostname text := by
  unfold isValidHostname at h
  split at h
  · cases h
  next hlimit =>
    simp only [Bool.or_eq_true, decide_eq_true_eq, not_or, Nat.not_lt] at hlimit
    refine ⟨Nat.le_trans (length_le_utf8Len text) hlimit.2, text.splitOn '.',
      List.splitOn_ne_nil _ _, (List.intercalate_splitOn '.').symm, ?_⟩
    intro label hlabel
    exact isLabel_of_isValidLabel (List.all_eq_true.mp h label hlabel)

/-- A character of a host name. -/
def IsHostChar (c : Char) : Prop := c.isAlphanum = true ∨ c = '-' ∨ c = '.'

theorem IsHostname.chars {text : List Char} (h : IsHostname text) : ∀ c ∈ text, IsHostChar c := by
  obtain ⟨_, labels, _, rfl, hlabels⟩ := h
  intro c hc
  rcases mem_intercalate hc with rfl | ⟨label, hlabel, hmem⟩
  · exact Or.inr (Or.inr rfl)
  · rcases (hlabels label hlabel).chars c hmem with halnum | hhyphen
    · exact Or.inl halnum
    · exact Or.inr (Or.inl hhyphen)

theorem toNat_of_isAlphanum {c : Char} (h : c.isAlphanum = true) :
    48 ≤ c.toNat ∧ c.toNat ≤ 122 := by
  delta Char.isAlphanum Char.isAlpha Char.isUpper Char.isLower Char.isDigit at h
  simp only [Bool.or_eq_true, Bool.and_eq_true, decide_eq_true_eq, ge_iff_le,
    UInt32.le_iff_toNat_le] at h
  have hnat : c.val.toNat = c.toNat := rfl
  simp only [hnat] at h
  have hA : 'A'.val.toNat = 65 := rfl
  have hZ : 'Z'.val.toNat = 90 := rfl
  have ha : 'a'.val.toNat = 97 := rfl
  have hz : 'z'.val.toNat = 122 := rfl
  have h0 : '0'.val.toNat = 48 := rfl
  have h9 : '9'.val.toNat = 57 := rfl
  omega

theorem IsHostChar.not_whitespace {c : Char} (h : IsHostChar c) : isWhitespace c = false := by
  rcases h with halnum | rfl | rfl
  · obtain ⟨hlow, hhigh⟩ := toNat_of_isAlphanum halnum
    have hlist : [0x20, 0x85, 0xa0, 0x1680, 0x2028, 0x2029, 0x202f, 0x205f, 0x3000].contains
        c.toNat = false := by
      rw [List.contains_eq_mem, decide_eq_false_iff_not]
      intro hmem
      simp only [List.mem_cons, List.not_mem_nil, or_false] at hmem
      omega
    simp only [isWhitespace, hlist, Bool.or_false, Bool.or_eq_false_iff, Bool.and_eq_false_iff,
      decide_eq_false_iff_not]
    omega
  · decide
  · decide

theorem IsHostChar.ne_newline {c : Char} (h : IsHostChar c) : c ≠ '\n' := by
  rintro rfl
  exact absurd h.not_whitespace (by decide)

theorem dropWhile_eq_self {p : Char → Bool} {text : List Char}
    (h : ∀ c ∈ text.head?, p c = false) : text.dropWhile p = text := by
  cases text with
  | nil => rfl
  | cons c rest =>
      rw [List.dropWhile_cons, h c rfl]
      rfl

theorem trim_eq_self {text : List Char} (h : ∀ c ∈ text, isWhitespace c = false) :
    trim text = text := by
  have hfront : text.dropWhile isWhitespace = text :=
    dropWhile_eq_self fun c hc => h c (List.mem_of_mem_head? hc)
  have hback : text.reverse.dropWhile isWhitespace = text.reverse :=
    dropWhile_eq_self fun c hc => h c (List.mem_reverse.mp (List.mem_of_mem_head? hc))
  rw [trim, hfront, hback, List.reverse_reverse]

theorem IsHostname.head {text : List Char} (h : IsHostname text) : ∃ c ∈ text.head?, c ≠ '.' := by
  obtain ⟨_, labels, hne, rfl, hlabels⟩ := h
  cases labels with
  | nil => exact absurd rfl hne
  | cons label rest =>
      have hlabel := hlabels label List.mem_cons_self
      cases label with
      | nil => exact absurd hlabel.nonempty (by decide)
      | cons c tail =>
          have hc : c ≠ '.' := by
            rintro rfl
            rcases hlabel.chars '.' List.mem_cons_self with halnum | hhyphen
            · cases halnum
            · cases hhyphen
          refine ⟨c, ?_, hc⟩
          cases rest with
          | nil => rw [List.intercalate_singleton]; rfl
          | cons next rest => rw [List.intercalate_cons_cons]; rfl

/-- A host name has nothing to trim. -/
theorem IsHostname.strip {text : List Char} (h : IsHostname text) :
    trimStartMatches '.' (trim text) = text := by
  rw [trim_eq_self fun c hc => (h.chars c hc).not_whitespace, trimStartMatches]
  obtain ⟨first, hfirst, hne⟩ := h.head
  refine dropWhile_eq_self fun c hc => ?_
  rw [Option.mem_def.mp hfirst, Option.mem_some] at hc
  rw [← hc, beq_eq_false_iff_ne]
  exact hne

theorem IsHostname.ne_nil {text : List Char} (h : IsHostname text) : text ≠ [] := by
  obtain ⟨c, hc, _⟩ := h.head
  rintro rfl
  cases hc

/-! ### The lists of a session -/

/-- `value.trim().trim_start_matches('.')` -/
def stripDomain (value : String) : String :=
  String.ofList (trimStartMatches '.' (trim value.toList))

/-- The loop of `normalize_domains`. -/
def normalizeDomainsFrom (normalized seen : List String) : List String → List String
  | [] => normalized
  | value :: rest =>
    -- `seen.insert` is only called, and its answer only used, for a domain with text.
    if !(stripDomain value).isEmpty && !seen.contains (stripDomain value) then
      normalizeDomainsFrom (normalized ++ [stripDomain value]) (stripDomain value :: seen) rest
    else normalizeDomainsFrom normalized seen rest

theorem normalizeDomainsFrom_eq {normalized seen : List String}
    (hseen : ∀ domain, seen.contains domain = normalized.contains domain) (values : List String) :
    normalizeDomainsFrom normalized seen values =
      ((values.map stripDomain).filter fun domain => !domain.isEmpty).foldl pushNew normalized := by
  induction values generalizing normalized seen with
  | nil => rfl
  | cons value rest ih =>
      rw [normalizeDomainsFrom, List.map_cons, List.filter_cons]
      by_cases hempty : (stripDomain value).isEmpty = true
      · simp only [hempty, Bool.not_true, Bool.false_and, Bool.false_eq_true, if_false]
        exact ih hseen
      · simp only [hempty, Bool.not_false, Bool.true_and, if_true, List.foldl_cons, pushNew, hseen]
        cases hold : normalized.contains (stripDomain value) with
        | true => exact ih hseen
        | false =>
            refine ih fun domain => ?_
            have hboth := hseen domain
            simp only [List.contains_eq_mem, List.mem_cons, List.mem_append,
              List.not_mem_nil, or_false, decide_eq_decide] at hboth ⊢
            rw [hboth]
            exact or_comm

/-- The loop computes the list of first occurrences. -/
theorem normalizeDomainsFrom_nil (values : List String) :
    normalizeDomainsFrom [] [] values = normalizeDomains values := by
  rw [normalizeDomainsFrom_eq (fun _ => rfl), foldl_pushNew_eq, ← eraseDups_eq]
  rfl

section Accepted

variable {dns : DnsConfig}

theorem validateDomain_hostname {idx : Nat} {domain : String}
    (h : validateDomain idx domain = .ok ()) : IsHostname (stripDomain domain).toList := by
  obtain ⟨_, _, h⟩ := bind_eq_ok.mp h
  simp only at h
  split at h
  · cases h
  next hvalid =>
    rw [Bool.or_eq_true, not_or, Bool.not_eq_true', Bool.not_eq_false] at hvalid
    rw [stripDomain, String.toList_ofList]
    exact isHostname_of_isValidHostname hvalid.2

/-- The two lists are given together, and every entry was checked. -/
theorem validateDns_entries (h : validateDns dns = .ok ()) :
    (dns.searchDomains = [] ↔ dns.servers = []) ∧
      (∀ domain ∈ dns.searchDomains, IsHostname (stripDomain domain).toList) ∧
      ∀ server ∈ dns.servers, server.WellFormed := by
  have hservers := validateDns_servers h
  obtain ⟨_, _, h⟩ := bind_eq_ok.mp h
  obtain ⟨_, _, h⟩ := bind_eq_ok.mp h
  split at h
  · cases h
  next hboth =>
    obtain ⟨_, hdomains, _⟩ := bind_eq_ok.mp h
    refine ⟨?_, ?_, hservers⟩
    · simp only [Bool.or_eq_true, Bool.and_eq_true, Bool.not_eq_true', List.isEmpty_iff,
        List.isEmpty_eq_false_iff, not_or, not_and, not_not] at hboth
      exact ⟨hboth.1, fun hnone => by_contra fun hsome => hboth.2 hsome hnone⟩
    · have hindexed : ∀ (l : List String) (index : Nat), eachFrom validateDomain index l = .ok () →
          ∀ domain ∈ l, IsHostname (stripDomain domain).toList := by
        intro l
        induction l with
        | nil => exact fun _ _ _ hmem => (by cases hmem)
        | cons domain rest ih =>
            intro index heach
            obtain ⟨_, hfirst, hrest⟩ := bind_eq_ok.mp heach
            exact List.forall_mem_cons.mpr ⟨validateDomain_hostname hfirst, ih _ hrest⟩
      exact hindexed dns.searchDomains 0 hdomains

theorem isEmpty_eq_false {text : String} (h : IsHostname text.toList) : text.isEmpty = false := by
  rw [String.isEmpty_eq_false_iff]
  rintro rfl
  exact h.ne_nil rfl

theorem stripDomain_eq_self {text : String} (h : IsHostname text.toList) :
    stripDomain text = text := by
  rw [stripDomain, h.strip, String.ofList_toList]

theorem normalizeDomains_eq (h : ∀ domain ∈ dns.searchDomains,
    IsHostname (stripDomain domain).toList) :
    normalizeDomains dns.searchDomains = firstOccurrences (dns.searchDomains.map stripDomain) := by
  have hall : (dns.searchDomains.map stripDomain).filter (fun domain => !domain.isEmpty) =
      dns.searchDomains.map stripDomain := by
    refine List.filter_eq_self.mpr fun domain hmem => ?_
    obtain ⟨value, hvalue, rfl⟩ := List.mem_map.mp hmem
    rw [isEmpty_eq_false (h value hvalue)]
    rfl
  rw [← eraseDups_eq, ← hall]
  rfl

theorem mem_normalizeDomains {values : List String} {domain : String}
    (h : domain ∈ normalizeDomains values) : ∃ value ∈ values, stripDomain value = domain := by
  rw [normalizeDomains, List.mem_eraseDups, List.mem_filter] at h
  exact List.mem_map.mp h.1

/-- Host names without duplicates stay as they are. -/
theorem normalizeDomains_fixed {domains : List String} (hnodup : domains.Nodup)
    (h : ∀ domain ∈ domains, IsHostname domain.toList) : normalizeDomains domains = domains := by
  have hmap : (domains.map fun value => String.ofList (trimStartMatches '.' (trim value.toList))) =
      domains :=
    (List.map_congr_left fun domain hmem => stripDomain_eq_self (h domain hmem)).trans
      (List.map_id _)
  have hfilter : domains.filter (fun domain => !domain.isEmpty) = domains := by
    refine List.filter_eq_self.mpr fun domain hmem => ?_
    rw [isEmpty_eq_false (h domain hmem)]
    rfl
  rw [normalizeDomains, hmap, hfilter, eraseDups_of_nodup hnodup]

end Accepted

theorem eraseDups_eq_nil_iff {l : List String} : l.eraseDups = [] ↔ l = [] := by
  cases l with
  | nil => exact ⟨fun _ => rfl, fun _ => rfl⟩
  | cons a rest =>
      rw [List.eraseDups_cons]
      exact ⟨fun h => (by cases h), fun h => (by cases h)⟩

theorem ipsToArgs_eq_nil_iff {display : IpAddr → String} {values : List Ip}
    (h : ∀ value ∈ values, value.WellFormed) : ipsToArgs display values = [] ↔ values = [] := by
  rw [ipsToArgs, eraseDups_eq_nil_iff, List.map_eq_nil_iff, List.filterMap_eq_nil_iff]
  constructor
  · intro hnone
    cases values with
    | nil => rfl
    | cons value rest =>
        obtain ⟨ip, hip⟩ := exists_parseProtoIp_iff.mpr (h value List.mem_cons_self)
        rw [hnone value List.mem_cons_self] at hip
        cases hip
  · rintro rfl
    exact fun _ hmem => (by cases hmem)

/-! ### Lines -/

/-- What the script makes of a value: `-split "\n"` without the empty parts. -/
def splitLines (text : String) : List String :=
  ((text.toList.splitOn '\n').filter fun line => !line.isEmpty).map String.ofList

/-- Lines that are joined are read back. -/
theorem splitLines_intercalate {lines : List String}
    (h : ∀ line ∈ lines, line ≠ "" ∧ '\n' ∉ line.toList) :
    splitLines ("\n".intercalate lines) = lines := by
  cases lines with
  | nil => decide
  | cons line rest =>
      have hfields : ∀ f ∈ (line :: rest).map String.toList, '\n' ∉ f := by
        intro f hf
        obtain ⟨text, hmem, rfl⟩ := List.mem_map.mp hf
        exact (h text hmem).2
      have hkeep : ((line :: rest).map String.toList).filter (fun f => !f.isEmpty) =
          (line :: rest).map String.toList := by
        refine List.filter_eq_self.mpr fun f hf => ?_
        obtain ⟨text, hmem, rfl⟩ := List.mem_map.mp hf
        rw [Bool.not_eq_true', List.isEmpty_eq_false_iff]
        exact fun hnil => (h text hmem).1 (String.toList_inj.mp hnil)
      have hsep : "\n".toList = ['\n'] := rfl
      rw [splitLines, String.toList_intercalate, hsep,
        List.splitOn_intercalate '\n' hfields (by simp), hkeep, List.map_map]
      exact (List.map_congr_left fun text _ => String.ofList_toList).trans (List.map_id _)

/-! ### What the systems are told -/

/-- The servers and domains for `set_dns_entries` on macOS. -/
def Macos.dnsEntries (display : IpAddr → String) (config : TunSessionConfig) :
    Option (List String × List String) :=
  let servers := dnsServers display config
  let domains := dnsDomains "" config
  if !servers.isEmpty && !domains.isEmpty then some (servers, domains) else none

/-- The systems are told the same lists, exactly when there are any. -/
structure ToldAll (servers domains : List String) (asked : Prop) [Decidable asked]
    (config : TunSessionConfig) : Prop where
  linux : ∀ interfaceName, Linux.dnsSetup displayIp config interfaceName =
    Linux.revertDns interfaceName ::
      if asked then
        [.resolvectl "set-dns" (["dns", interfaceName] ++ servers),
          .resolvectl "set-domains" (["domain", interfaceName] ++ domains.map ("~" ++ ·))]
      else []
  windows : ∀ owner interfaceName, Windows.dnsSetup displayIp owner config interfaceName =
    Windows.clearNrptRules owner interfaceName ++
      if asked then
        [.processTimes,
          .powershell "set-nrpt-rules" .setRules
            [("WG_KOTLIN_DNS_NAMESPACES", "\n".intercalate (domains.map ("." ++ ·))),
              ("WG_KOTLIN_DNS_SERVERS", "\n".intercalate servers),
              ("WG_KOTLIN_NRPT_COMMENT", Windows.ruleComment owner interfaceName)]]
      else []
  macos : Macos.dnsEntries displayIp config = if asked then some (servers, domains) else none

theorem toldAll {config : TunSessionConfig} {servers domains : List String} {asked : Prop}
    [Decidable asked] (hservers : dnsServers displayIp config = servers)
    (hdomains : ∀ mark, dnsDomains mark config = domains.map (mark ++ ·))
    (hsome : servers = [] ↔ ¬ asked) (hboth : domains = [] ↔ ¬ asked) :
    ToldAll servers domains asked config := by
  have hmap : ∀ mark : String, (domains.map (mark ++ ·)).isEmpty = domains.isEmpty := by
    intro mark
    cases domains <;> rfl
  have hplain : domains.map ("" ++ ·) = domains :=
    (List.map_congr_left fun d _ => String.empty_append).trans (List.map_id _)
  by_cases h : asked
  · have hs : servers.isEmpty = false :=
      List.isEmpty_eq_false_iff.mpr fun hnil => hsome.mp hnil h
    have hd : domains.isEmpty = false :=
      List.isEmpty_eq_false_iff.mpr fun hnil => hboth.mp hnil h
    constructor
    · intro interfaceName
      simp only [Linux.dnsSetup, hservers, hdomains, hmap, hs, hd, h, Bool.not_false, Bool.and_self,
        if_true]
    · intro owner interfaceName
      simp only [Windows.dnsSetup, hservers, hdomains, hmap, hs, hd, h, Bool.not_false,
        Bool.and_self, if_true]
    · simp only [Macos.dnsEntries, hservers, hdomains, hplain, hs, hd, h, Bool.not_false,
        Bool.and_self, if_true]
  · have hs : servers = [] := hsome.mpr h
    have hd : domains = [] := hboth.mpr h
    subst hs
    subst hd
    constructor
    · intro interfaceName
      simp only [Linux.dnsSetup, hservers, h, List.isEmpty_nil, Bool.not_true, Bool.false_and,
        Bool.false_eq_true, if_false]
    · intro owner interfaceName
      simp only [Windows.dnsSetup, hservers, h, List.isEmpty_nil, Bool.not_true, Bool.and_false,
        Bool.false_eq_true, if_false]
    · simp only [Macos.dnsEntries, hservers, h, List.isEmpty_nil, Bool.not_true, Bool.false_and,
        Bool.false_eq_true, if_false]

/-- A session without DNS settings is one with empty lists. -/
theorem getD_dns_map (config : TunSessionConfig) {α : Type} {field : DnsConfig → List α}
    (hdefault : field {} = []) :
    (config.dns.map field).getD [] = field (config.dns.getD {}) := by
  cases config.dns with
  | none => exact hdefault.symm
  | some dns => rfl

section Accepted

variable {dns : DnsConfig} (h : validateDns dns = .ok ())

include h

theorem isHostname_of_mem_normalizeDomains {d : String}
    (hd : d ∈ normalizeDomains dns.searchDomains) : IsHostname d.toList := by
  obtain ⟨value, hvalue, rfl⟩ := mem_normalizeDomains hd
  exact (validateDns_entries h).2.1 value hvalue

theorem normalizeDomains_eq_nil_iff :
    normalizeDomains dns.searchDomains = [] ↔ dns.searchDomains = [] := by
  rw [normalizeDomains_eq (validateDns_entries h).2.1, ← eraseDups_eq, eraseDups_eq_nil_iff,
    List.map_eq_nil_iff]

theorem toldAll_of_validateDns {config : TunSessionConfig} (hconfig : config.dns.getD {} = dns) :
    ToldAll (ipsToArgs displayIp dns.servers) (normalizeDomains dns.searchDomains)
      (dns.servers ≠ []) config := by
  obtain ⟨htogether, _, hservers⟩ := validateDns_entries h
  refine toldAll ?_ ?_ ?_ ?_
  · rw [dnsServers, getD_dns_map config rfl, hconfig]
  · intro mark
    rw [dnsDomains, getD_dns_map config rfl, hconfig]
  · rw [ipsToArgs_eq_nil_iff hservers, not_not]
  · rw [normalizeDomains_eq_nil_iff h, htogether, not_not]

/-- A host name is one line, and the dot before it keeps the line from being empty. -/
theorem splitLines_namespaces :
    splitLines ("\n".intercalate ((normalizeDomains dns.searchDomains).map ("." ++ ·))) =
      (normalizeDomains dns.searchDomains).map ("." ++ ·) := by
  refine splitLines_intercalate fun line hline => ?_
  obtain ⟨d, hd, rfl⟩ := List.mem_map.mp hline
  constructor
  · intro hempty
    have hlist := congrArg String.toList hempty
    rw [String.toList_append] at hlist
    cases hlist
  · rw [String.toList_append, List.mem_append, not_or]
    have hname := isHostname_of_mem_normalizeDomains h hd
    exact ⟨by decide, fun hmem => (hname.chars _ hmem).ne_newline rfl⟩

end Accepted

theorem splitLines_servers (values : List Ip) :
    splitLines ("\n".intercalate (ipsToArgs displayIp values)) = ipsToArgs displayIp values := by
  refine splitLines_intercalate fun line hline => ?_
  rw [ipsToArgs, List.mem_eraseDups] at hline
  obtain ⟨ip, _, rfl⟩ := List.mem_map.mp hline
  exact ⟨displayIp_ne_empty ip, newline_not_mem_displayIp ip⟩

/-- Accepted DNS settings are applied in full.  The domains are the first
occurrences of the stripped entries, host names that a second pass leaves alone;
neither list is empty unless the client gave none, so the systems are told exactly
what was asked for; and Windows reads back the lists that were joined. -/
theorem accepted_dns_applied (dns : DnsConfig) (h : validateDns dns = .ok ()) :
    let domains := normalizeDomainsFrom [] [] dns.searchDomains
    domains = firstOccurrences (dns.searchDomains.map stripDomain) ∧ domains.Nodup ∧
    normalizeDomainsFrom [] [] domains = domains ∧ (∀ d ∈ domains, IsHostname d.toList) ∧
    ∃ servers, ipsToArgsFrom displayIp [] dns.servers = .ok servers ∧
      (domains = [] ↔ dns.searchDomains = []) ∧ (servers = [] ↔ dns.servers = []) ∧
      (∀ config : TunSessionConfig, config.dns.getD {} = dns →
        ToldAll servers domains (dns.servers ≠ []) config) ∧
      splitLines ("\n".intercalate (domains.map ("." ++ ·))) = domains.map ("." ++ ·) ∧
      splitLines ("\n".intercalate servers) = servers := by
  obtain ⟨_, hhosts, hservers⟩ := validateDns_entries h
  have hnodup : (normalizeDomains dns.searchDomains).Nodup := nodup_eraseDups _
  have hnames : ∀ d ∈ normalizeDomains dns.searchDomains, IsHostname d.toList :=
    fun _ => isHostname_of_mem_normalizeDomains h
  simp only [normalizeDomainsFrom_nil]
  exact ⟨normalizeDomains_eq hhosts, hnodup, normalizeDomains_fixed hnodup hnames, hnames,
    ipsToArgs displayIp dns.servers, ipsToArgsFrom_nil hservers, normalizeDomains_eq_nil_iff h,
    ipsToArgs_eq_nil_iff hservers, fun _ => toldAll_of_validateDns h, splitLines_namespaces h,
    splitLines_servers dns.servers⟩

/-- Two spellings of one domain. -/
def exampleDns : DnsConfig where
  searchDomains := [" .corp.example", "corp.example "]
  servers := [{ value := some (.v4 [10, 0, 0, 53]) }]

theorem exampleDns_applied : validateDns exampleDns = .ok () ∧
    normalizeDomainsFrom [] [] exampleDns.searchDomains = ["corp.example"] := by
  have h : validateDns exampleDns = .ok () := by decide +kernel
  exact ⟨h, (accepted_dns_applied exampleDns h).1.trans (by decide +kernel)⟩

end Daemon
end WgKotlin
