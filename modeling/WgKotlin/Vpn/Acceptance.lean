import WgKotlin.Translate
import WgKotlin.Daemon.InterfaceName
import WgKotlin.Vpn.Rejection

/-!
# What the daemon accepts

A configuration is checked twice, by `requireValidConfiguration` and the parser of the client
and by `validate_config` of the daemon.  `Acceptable` says, in the terms of the client, what
the daemon asks for beyond the checks of the client.
-/

namespace WgKotlin
namespace Vpn

open Proto Util Kotlin Library
open Daemon (validateConfig validateInterfaceName validateNonEmpty validateCidrList
  validateMaxCount validateMtuForAddresses validateDns isIpv6 deviceIndex utf8Len decimalValue)

/-- The limits of the daemon.  There may be no DNS servers, since the search domains that have
to come with them are not sent. -/
structure Acceptable (macos : Bool) (config : VpnConfiguration) (parsed : ParsedVpnConfiguration) :
    Prop where
  name : config.interfaceName.length ≤ 15
  index : macos = true → deviceIndex config.interfaceName + 1 < 2 ^ 32
  addresses : config.addresses ≠ [] ∧ config.addresses.length ≤ 64
  routes : (parsed.peers.flatMap ParsedVpnPeer.allowedIps).eraseDups.length ≤ 256
  mtu : ∀ mtu, config.mtu = some mtu → mtu ≠ 0 → 576 ≤ mtu.toInt ∧ mtu.toInt ≤ 65535 ∧
    ((∃ c ∈ parsed.addresses, isIpv6 c = true) → 1280 ≤ mtu.toInt)
  servers : config.dns.servers = []

/-! ### The single checks -/

theorem utf8Len_digits {digits : List Char} (h : ∀ c ∈ digits, c.isDigit = true) :
    utf8Len digits = digits.length := by
  induction digits with
  | nil => rfl
  | cons c rest ih =>
      obtain ⟨hc, hrest⟩ := List.forall_mem_cons.mp h
      have hsize : c.utf8Size = 1 := by
        rw [Char.isDigit, Bool.and_eq_true, decide_eq_true_eq, decide_eq_true_eq] at hc
        rw [Char.utf8Size_eq_one_iff]
        exact UInt32.le_trans hc.2 (by decide)
      show c.utf8Size + utf8Len rest = _
      rw [hsize, ih hrest, List.length_cons, Nat.add_comm]

/-- A name that the client lets through is checked for its length and, on macOS, its number. -/
theorem validateInterfaceName_iff {macos : Bool} {name : String}
    (h : matchesInterfaceName name = true) :
    validateInterfaceName macos name = .ok () ↔
      name.length ≤ 15 ∧ (macos = true → deviceIndex name + 1 < 2 ^ 32) := by
  simp only [matchesInterfaceName, Bool.and_eq_true, beq_iff_eq, Bool.not_eq_true',
    List.isEmpty_eq_false_iff, List.all_eq_true] at h
  obtain ⟨⟨hstart, hne⟩, hdigits⟩ := h
  have hname : name.toList = "utun".toList ++ name.toList.drop 4 := by
    rw [← hstart, List.take_append_drop]
  have hlength : 4 + (name.toList.drop 4).length = name.length := by
    rw [← String.length_toList, hname, List.length_append, Daemon.drop_utun]
    rfl
  rw [Daemon.validateInterfaceName_eq_ok]
  constructor
  · rintro ⟨suffix, hsuffix, hlen, _, hall, hindex⟩
    have hdrop : name.toList.drop 4 = suffix := by rw [hsuffix, Daemon.drop_utun]
    rw [utf8Len_digits hall, ← hdrop, hlength] at hlen
    refine ⟨hlen, fun hmacos => ?_⟩
    rw [deviceIndex, hdrop]
    exact hindex hmacos
  · rintro ⟨hlen, hindex⟩
    refine ⟨name.toList.drop 4, hname, ?_, hne, hdigits, hindex⟩
    rw [utf8Len_digits hdigits, hlength]
    exact hlen

theorem validateNonEmpty_iff {fieldName : String} {values : List Cidr} :
    validateNonEmpty fieldName values = .ok () ↔ values ≠ [] := by
  unfold validateNonEmpty
  cases values with
  | nil => simp
  | cons c rest => simp

theorem validateMaxCount_iff {fieldName : String} {count max : Nat} :
    validateMaxCount fieldName count max = .ok () ↔ count ≤ max := by
  unfold validateMaxCount
  by_cases h : max < count
  · simp [h]
  · simp [h, Nat.not_lt.mp h]

theorem validateMtuForAddresses_iff {mtu : Int32} {addresses : List Cidr} :
    validateMtuForAddresses mtu addresses = .ok () ↔
      576 ≤ mtu.toInt ∧ mtu.toInt ≤ 65535 ∧
        ((∃ c ∈ addresses, isIpv6 c = true) → 1280 ≤ mtu.toInt) := by
  unfold validateMtuForAddresses
  by_cases hrange : Daemon.minMtu ≤ mtu.toInt ∧ mtu.toInt ≤ Daemon.maxMtu
  · rw [if_neg (not_not.mpr hrange)]
    by_cases hsix : addresses.any isIpv6 = true
    · obtain ⟨c, hc, hcsix⟩ := List.any_eq_true.mp hsix
      by_cases hsmall : mtu.toInt < Daemon.minIpv6Mtu
      · rw [hsix, decide_eq_true hsmall, Bool.and_self, if_pos rfl]
        constructor
        · intro h
          cases h
        · intro h
          exact absurd (h.2.2 ⟨c, hc, hcsix⟩) (Int.not_le.mpr hsmall)
      · rw [hsix, decide_eq_false hsmall, Bool.true_and, if_neg Bool.false_ne_true]
        exact ⟨fun _ => ⟨hrange.1, hrange.2, fun _ => Int.not_lt.mp hsmall⟩, fun _ => rfl⟩
    · rw [Bool.not_eq_true] at hsix
      rw [hsix, Bool.false_and, if_neg Bool.false_ne_true]
      refine ⟨fun _ => ⟨hrange.1, hrange.2, ?_⟩, fun _ => rfl⟩
      rintro ⟨c, hc, hcsix⟩
      rw [List.any_eq_true.mpr ⟨c, hc, hcsix⟩] at hsix
      cases hsix
  · rw [if_pos hrange]
    constructor
    · intro h
      cases h
    · intro h
      exact absurd ⟨h.1, h.2.1⟩ hrange

/-- Without search domains no server is accepted. -/
theorem validateDns_without_domains {servers : List Ip} :
    validateDns { servers := servers } = .ok () ↔ servers = [] := by
  cases servers with
  | nil => exact ⟨fun _ => rfl, fun _ => rfl⟩
  | cons server rest =>
      constructor
      · intro h
        obtain ⟨_, _, h⟩ := bind_eq_ok.mp h
        obtain ⟨_, _, h⟩ := bind_eq_ok.mp h
        cases h
      · intro h
        cases h

theorem check_bind_eq_ok {ε α : Type} {check : Except ε Unit} {next : Except ε α} {a : α} :
    (check >>= fun _ => next) = .ok a ↔ check = .ok () ∧ next = .ok a := by
  rw [bind_eq_ok]
  exact ⟨fun ⟨_, hcheck, hnext⟩ => ⟨hcheck, hnext⟩, fun ⟨hcheck, hnext⟩ => ⟨(), hcheck, hnext⟩⟩

theorem ite_check_eq_ok {ε : Type} {p : Prop} [Decidable p] {check : Except ε Unit} :
    (if p then check else .ok ()) = .ok () ↔ (p → check = .ok ()) := by
  by_cases h : p
  · simp [h]
  · simp [h]

/-- `validate_config` as one condition. -/
theorem validateConfig_iff {macos : Bool} {tun : TunSessionConfig} :
    validateConfig macos tun = .ok () ↔
      validateInterfaceName macos tun.interfaceName = .ok () ∧ tun.addresses ≠ [] ∧
        (∀ c ∈ tun.addresses, c.WellFormed) ∧ tun.addresses.length ≤ Daemon.maxAddresses ∧
        (∀ c ∈ tun.peerAllowedIps, c.WellFormed) ∧
        tun.peerAllowedIps.length ≤ Daemon.maxRoutes ∧
        (tun.mtu ≠ 0 → validateMtuForAddresses tun.mtu tun.addresses = .ok ()) ∧
        validateDns (tun.dns.getD {}) = .ok () := by
  have hsequence : validateConfig macos tun = .ok () ↔
      (validateInterfaceName macos tun.interfaceName >>= fun _ =>
        validateNonEmpty "addresses" tun.addresses >>= fun _ =>
        validateCidrList "addresses" tun.addresses >>= fun _ =>
        validateMaxCount "addresses" tun.addresses.length Daemon.maxAddresses >>= fun _ =>
        validateCidrList "peer_allowed_ips" tun.peerAllowedIps >>= fun _ =>
        validateMaxCount "peer_allowed_ips" tun.peerAllowedIps.length Daemon.maxRoutes >>= fun _ =>
        (if tun.mtu ≠ 0 then validateMtuForAddresses tun.mtu tun.addresses else .ok ()) >>=
          fun _ => validateDns (tun.dns.getD {})) = .ok () := by
    unfold validateConfig
    by_cases hmtu : tun.mtu ≠ 0
    · simp only [if_pos hmtu]
    · simp only [if_neg hmtu]
  rw [hsequence]
  simp only [check_bind_eq_ok, validateNonEmpty_iff, Daemon.validateCidrList_eq_ok,
    validateMaxCount_iff, ite_check_eq_ok]

/-! ### Both checks -/

/-- Of the configurations that the client accepts the daemon accepts those within its limits,
and they set no DNS server and no search domain. -/
theorem daemon_accepts_iff {getByName : String → Except Throwable Bytes} {macos : Bool}
    {config : VpnConfiguration} {parsed : ParsedVpnConfiguration} {tun : TunSessionConfig}
    (hvalid : requireValidConfiguration config = .ok ())
    (hparsed : toParsedVpnConfiguration getByName config = .ok parsed)
    (htun : toTunSessionConfig parsed = .ok tun) :
    (validateConfig macos tun = .ok () ↔ Acceptable macos config parsed) ∧
      (validateConfig macos tun = .ok () → tun.dns = some {}) := by
  have hfrom := parsedFrom_of_ok hparsed
  have hname := (requireValidConfiguration_eq_ok.mp hvalid).2.1
  have hroutes := (routesOf_perm (parsed.peers.flatMap ParsedVpnPeer.allowedIps)).length_eq
  have haddresses : parsed.addresses.length = config.addresses.length :=
    (mapAll_eq_ok.mp hfrom.addresses).length_eq.symm
  have hservers : parsed.dns.servers.length = config.dns.servers.length :=
    (mapAll_eq_ok.mp hfrom.servers).length_eq.symm
  have haddressesWf : ∀ c ∈ parsed.addresses, c.WellFormed := by
    intro c hc
    obtain ⟨text, _, htext⟩ := (mem_mapAll hfrom.addresses).mp hc
    exact toCidr_wellFormed htext
  rw [toTunSessionConfig_eq hfrom, Except.ok.injEq] at htun
  subst htun
  rw [validateConfig_iff]
  simp only [Option.getD_some, validateDns_without_domains]
  refine ⟨?_, fun h => by rw [h.2.2.2.2.2.2.2]⟩
  have hmtu : (config.mtu.getD 0 ≠ 0 →
      validateMtuForAddresses (config.mtu.getD 0) parsed.addresses = .ok ()) ↔
      ∀ mtu, config.mtu = some mtu → mtu ≠ 0 → 576 ≤ mtu.toInt ∧ mtu.toInt ≤ 65535 ∧
        ((∃ c ∈ parsed.addresses, isIpv6 c = true) → 1280 ≤ mtu.toInt) := by
    rw [validateMtuForAddresses_iff]
    cases config.mtu with
    | none => exact ⟨fun _ _ h => (by cases h), fun _ h => absurd rfl h⟩
    | some mtu =>
        refine ⟨fun h other hother hne => ?_, fun h hne => h mtu rfl hne⟩
        cases hother
        exact h hne
  constructor
  · rintro ⟨hiface, hne, _, hcount, _, hroute, hmtus, hdns⟩
    obtain ⟨hlength, hindex⟩ := (validateInterfaceName_iff hname).mp hiface
    refine ⟨hlength, hindex, ⟨?_, haddresses ▸ hcount⟩, hroutes ▸ hroute, hmtu.mp hmtus, ?_⟩
    · rw [← List.length_pos_iff, ← haddresses]
      exact List.length_pos_iff.mpr hne
    · rw [← List.length_eq_zero_iff, ← hservers, hdns]
      rfl
  · intro h
    refine ⟨(validateInterfaceName_iff hname).mpr ⟨h.name, h.index⟩, ?_, haddressesWf,
      haddresses ▸ h.addresses.2, ?_, hroutes ▸ h.routes, hmtu.mpr h.mtu, ?_⟩
    · rw [← List.length_pos_iff, haddresses]
      exact List.length_pos_iff.mpr h.addresses.1
    · intro c hc
      exact hfrom.wellFormed (List.mem_eraseDups.mp ((routesOf_perm _).mem_iff.mp hc))
    · rw [← List.length_eq_zero_iff, hservers, h.servers]
      rfl

/-- One address, one peer and an MTU that is too small for the daemon. -/
def smallMtu : VpnConfiguration where
  interfaceName := "utun0"
  mtu := some 500
  addresses := ["10.0.0.0/24"]
  privateKey := "k"
  peers := [{ publicKey := "b", allowedIps := ["10.0.0.0/8"] }]

theorem daemon_accepts_iff_smallMtu : ∃ parsed tun,
    requireValidConfiguration smallMtu = .ok () ∧
      toParsedVpnConfiguration exampleGetByName smallMtu = .ok parsed ∧
      toTunSessionConfig parsed = .ok tun ∧ validateConfig false tun ≠ .ok () := by
  have hvalid : requireValidConfiguration smallMtu = .ok () := by decide
  obtain ⟨parsed, hparsed⟩ : ∃ parsed,
      toParsedVpnConfiguration exampleGetByName smallMtu = .ok parsed := ⟨_, rfl⟩
  have htun := toTunSessionConfig_eq (parsedFrom_of_ok hparsed)
  refine ⟨parsed, _, hvalid, hparsed, htun, fun haccepted => ?_⟩
  have hacceptable := (daemon_accepts_iff hvalid hparsed htun).1.mp haccepted
  exact absurd (hacceptable.mtu 500 rfl (by decide)).1 (by decide)

end Vpn
end WgKotlin
