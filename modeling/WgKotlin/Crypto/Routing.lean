import WgKotlin.Crypto.PeerSession
import WgKotlin.Validation
import WgKotlin.Library.LongestMatch

/-!
# Cryptokey routing of outgoing packets

`selectSessionForPacket` takes for every peer its longest matching prefix and
then the longest of these.  The table it searches is `ownedRoutes`, all allowed
IPs of all peers with their entries, and the result is the owner of a longest
match of that table.  The validators make the owner unique, so the search does
not depend on the order of peers or prefixes.
-/

namespace WgKotlin
namespace Crypto

open Proto Util Kotlin Library

/-- The longest prefix of one entry that matches the destination. -/
def matchingRoute (destination : Ip) (entry : PeerSessionEntry) :
    Except Throwable (Option (PeerSessionEntry × Cidr)) := do
  let matching ← filterAll (fun allowedIp => cidrMatches allowedIp destination)
    entry.peer.allowedIps
  .ok ((matching.maxOn? fun route => route.prefixLen.toNat).map fun route => (entry, route))

def selectSessionForPacket (packet : Bytes) (sessionEntries : List PeerSessionEntry) :
    Except Throwable (Option PeerSessionEntry) :=
  match parsePacketDestination packet with
  | .error _ => .ok none
  | .ok destination => do
    let routes ← mapAll (matchingRoute destination) sessionEntries
    .ok (((routes.filterMap id).maxOn? fun pair => pair.2.prefixLen.toNat).map Prod.fst)

theorem selectSessionForPacket_mem {packet : Bytes} {entries : List PeerSessionEntry}
    {selected : PeerSessionEntry}
    (h : selectSessionForPacket packet entries = .ok (some selected)) : selected ∈ entries := by
  unfold selectSessionForPacket at h
  split at h
  · cases h
  · obtain ⟨routes, hroutes, h⟩ := bind_eq_ok.mp h
    rw [Except.ok.injEq, Option.map_eq_some_iff] at h
    obtain ⟨route, hmax, rfl⟩ := h
    obtain ⟨found, hfound, rfl⟩ := List.mem_filterMap.mp (List.maxOn?_mem hmax)
    obtain ⟨entry, hentry, hmatch⟩ :=
      exists_left_of_forall₂ (mapAll_eq_ok.mp hroutes) hfound
    obtain ⟨matching, _, hmatch⟩ := bind_eq_ok.mp hmatch
    rw [Except.ok.injEq] at hmatch
    obtain ⟨c, _, rfl⟩ := Option.map_eq_some_iff.mp hmatch
    exact hentry

/-! ### The table that is searched -/

/-- All allowed IPs of all entries, each with its owner. -/
def ownedRoutes (entries : List PeerSessionEntry) : List (PeerSessionEntry × Cidr) :=
  entries.flatMap fun entry => entry.peer.allowedIps.map fun allowedIp => (entry, allowedIp)

theorem mem_ownedRoutes {entries : List PeerSessionEntry} {e : PeerSessionEntry} {c : Cidr} :
    (e, c) ∈ ownedRoutes entries ↔ e ∈ entries ∧ c ∈ e.peer.allowedIps := by
  rw [ownedRoutes, List.mem_flatMap]
  constructor
  · intro h
    obtain ⟨e', he', hc⟩ := h
    obtain ⟨c', hc', heq⟩ := List.mem_map.mp hc
    cases heq
    exact ⟨he', hc'⟩
  · intro h
    exact ⟨e, h.1, List.mem_map.mpr ⟨c, h.2, rfl⟩⟩

/-- The route of a destination: a longest match among all owned routes. -/
def IsRoute (entries : List PeerSessionEntry) (destination : Ip)
    (route : PeerSessionEntry × Cidr) : Prop :=
  IsLongestMatch (fun r : PeerSessionEntry × Cidr => r.2.Contains destination)
    (fun r => r.2.prefixLen.toNat) (ownedRoutes entries) route

def AllowedIpsWellFormed (entries : List PeerSessionEntry) : Prop :=
  ∀ e ∈ entries, ∀ c ∈ e.peer.allowedIps, c.WellFormed

section Select

variable {entries : List PeerSessionEntry} {destination : Ip}

/-- The allowed IPs of an entry that contain the destination. -/
def containing (destination : Ip) (entry : PeerSessionEntry) : List Cidr :=
  entry.peer.allowedIps.filter fun c => decide (c.Contains destination)

def candidate (destination : Ip) (entry : PeerSessionEntry) :
    Option (PeerSessionEntry × Cidr) :=
  ((containing destination entry).maxOn? fun c => c.prefixLen.toNat).map fun c => (entry, c)

theorem matchingRoute_eq (hwf : AllowedIpsWellFormed entries) (hd : destination.WellFormed)
    {e : PeerSessionEntry} (he : e ∈ entries) :
    matchingRoute destination e = .ok (candidate destination e) := by
  have hfilter := filterAll_of_ok (l := e.peer.allowedIps)
    (p := fun c => cidrMatches c destination) (q := fun c => decide (c.Contains destination))
    (fun c hc => cidrMatches_eq (hwf e he c hc) hd)
  rw [matchingRoute, hfilter]
  rfl

/-- The candidates of the second maximum, one for each entry with a match. -/
def candidates (destination : Ip) (entries : List PeerSessionEntry) :
    List (PeerSessionEntry × Cidr) :=
  entries.filterMap (candidate destination)

theorem mem_candidates {r : PeerSessionEntry × Cidr} (h : r ∈ candidates destination entries) :
    r ∈ ownedRoutes entries ∧ r.2.Contains destination := by
  obtain ⟨e, he, hr⟩ := List.mem_filterMap.mp h
  obtain ⟨c, hc, rfl⟩ := Option.map_eq_some_iff.mp hr
  have hmem := List.mem_filter.mp (List.maxOn?_mem hc)
  exact ⟨mem_ownedRoutes.mpr ⟨he, hmem.1⟩, of_decide_eq_true hmem.2⟩

/-- Every matching allowed IP is dominated by the candidate of its entry. -/
theorem candidate_dominates {r : PeerSessionEntry × Cidr} (hr : r ∈ ownedRoutes entries)
    (hc : r.2.Contains destination) :
    ∃ s ∈ candidates destination entries, r.2.prefixLen.toNat ≤ s.2.prefixLen.toNat := by
  obtain ⟨e, c⟩ := r
  obtain ⟨he, hmem⟩ := mem_ownedRoutes.mp hr
  have hin : c ∈ containing destination e := List.mem_filter.mpr ⟨hmem, decide_eq_true hc⟩
  cases hmax : (containing destination e).maxOn? fun c => c.prefixLen.toNat with
  | none =>
      rw [maxOn?_eq_none_iff.mp hmax] at hin
      cases hin
  | some best =>
      have hle := le_of_maxOn?_eq_some hmax hin
      refine ⟨(e, best), List.mem_filterMap.mpr ⟨e, he, ?_⟩, hle⟩
      rw [candidate, hmax]
      rfl

theorem selectSessionForPacket_eq (hwf : AllowedIpsWellFormed entries) {packet : Bytes}
    (hparse : parsePacketDestination packet = .ok destination) :
    selectSessionForPacket packet entries =
      .ok (((candidates destination entries).maxOn? fun pair => pair.2.prefixLen.toNat).map
        Prod.fst) := by
  have hd := parsePacketDestination_wellFormed hparse
  rw [selectSessionForPacket, hparse]
  simp only
  rw [mapAll_of_ok (g := candidate destination) fun e he => matchingRoute_eq hwf hd he]
  show Except.ok _ = _
  rw [List.filterMap_map]
  rfl

/-- The selected entry owns a longest match. -/
theorem select_isRoute (hwf : AllowedIpsWellFormed entries) {packet : Bytes}
    (hparse : parsePacketDestination packet = .ok destination) {e : PeerSessionEntry}
    (h : selectSessionForPacket packet entries = .ok (some e)) :
    ∃ c, IsRoute entries destination (e, c) := by
  rw [selectSessionForPacket_eq hwf hparse, Except.ok.injEq, Option.map_eq_some_iff] at h
  obtain ⟨⟨e', c⟩, hmax, rfl⟩ := h
  exact ⟨c, isLongestMatch_of_candidates (fun r hr => mem_candidates hr)
    (fun r hr hc => candidate_dominates hr hc) hmax⟩

theorem select_eq_none_iff (hwf : AllowedIpsWellFormed entries) {packet : Bytes}
    (hparse : parsePacketDestination packet = .ok destination) :
    selectSessionForPacket packet entries = .ok none ↔
      ∀ e ∈ entries, ∀ c ∈ e.peer.allowedIps, ¬ c.Contains destination := by
  rw [selectSessionForPacket_eq hwf hparse, Except.ok.injEq, Option.map_eq_none_iff,
    maxOn?_eq_none_iff]
  constructor
  · intro h e he c hc hcont
    obtain ⟨s, hs, _⟩ := candidate_dominates (mem_ownedRoutes.mpr ⟨he, hc⟩) hcont
    rw [h] at hs
    cases hs
  · intro h
    refine List.eq_nil_iff_forall_not_mem.mpr fun r hr => ?_
    obtain ⟨e, c⟩ := r
    obtain ⟨hown, hcont⟩ := mem_candidates hr
    obtain ⟨he, hc⟩ := mem_ownedRoutes.mp hown
    exact h e he c hc hcont

end Select

/-! ### Unique owners -/

/-- Peers that pass both validators do not tie for the longest match. -/
theorem route_owner_unique {entries : List PeerSessionEntry}
    (hwf : AllowedIpsWellFormed entries)
    (hkeys : requireUniqueParsedPeerPublicKeys (entries.map PeerSessionEntry.peer) = .ok ())
    (hown : requireDistinctAllowedIpOwnership (entries.map PeerSessionEntry.peer) = .ok ())
    {destination : Ip} {e e' : PeerSessionEntry} {c c' : Cidr}
    (h : IsRoute entries destination (e, c)) (h' : IsRoute entries destination (e', c')) :
    e = e' := by
  obtain ⟨he, hc⟩ := mem_ownedRoutes.mp h.mem
  obtain ⟨he', hc'⟩ := mem_ownedRoutes.mp h'.mem
  have hlen : c.prefixLen = c'.prefixLen := UInt32.toNat_inj.mp (h.length_eq h')
  have hsame : c.SameNetwork c' := Cidr.SameNetwork.of_contains hlen h.covered h'.covered
  have hkey : e.peer.publicKey = e'.peer.publicKey :=
    owner_unique hown (List.mem_map_of_mem he) (List.mem_map_of_mem he') hc hc'
      ((normalizedKey_eq_iff (hwf e he c hc) (hwf e' he' c' hc')).mpr hsame)
  have hnodup : (entries.map fun entry => entry.peer.publicKey).Nodup := by
    have hn := requireUniqueKeys_eq_ok.mp hkeys
    rwa [List.map_map] at hn
  exact List.inj_on_of_nodup_map hnodup he he' hkey

/-! ### Reordering -/

/-- The same peer and session with the allowed IPs in another order. -/
structure SameUpToOrder (e e' : PeerSessionEntry) : Prop where
  session : e'.session = e.session
  peer : e'.peer = { e.peer with allowedIps := e'.peer.allowedIps }
  allowedIps : e.peer.allowedIps.Perm e'.peer.allowedIps

/-- The peers in another order, and the allowed IPs of each peer too. -/
def Reordered (entries entries' : List PeerSessionEntry) : Prop :=
  ∃ permuted, entries.Perm permuted ∧ List.Forall₂ SameUpToOrder permuted entries'

namespace Reordered

variable {entries entries' : List PeerSessionEntry}

theorem exists_left (h : Reordered entries entries') {e' : PeerSessionEntry}
    (he' : e' ∈ entries') : ∃ e ∈ entries, SameUpToOrder e e' := by
  obtain ⟨permuted, hperm, hall⟩ := h
  obtain ⟨e, he, hsame⟩ := exists_left_of_forall₂ hall he'
  exact ⟨e, hperm.mem_iff.mpr he, hsame⟩

theorem exists_right (h : Reordered entries entries') {e : PeerSessionEntry}
    (he : e ∈ entries) : ∃ e' ∈ entries', SameUpToOrder e e' := by
  obtain ⟨permuted, hperm, hall⟩ := h
  obtain ⟨e', he', hsame⟩ := exists_left_of_forall₂ hall.flip (hperm.mem_iff.mp he)
  exact ⟨e', he', hsame⟩

theorem wellFormed (h : Reordered entries entries') (hwf : AllowedIpsWellFormed entries) :
    AllowedIpsWellFormed entries' := by
  intro e' he' c hc
  obtain ⟨e, he, hsame⟩ := h.exists_left he'
  exact hwf e he c (hsame.allowedIps.mem_iff.mpr hc)

/-- A route of the reordered entries is a route of the original ones. -/
theorem isRoute (h : Reordered entries entries') {destination : Ip} {e' : PeerSessionEntry}
    {c : Cidr} (hr : IsRoute entries' destination (e', c)) :
    ∃ e ∈ entries, SameUpToOrder e e' ∧ IsRoute entries destination (e, c) := by
  obtain ⟨he', hc⟩ := mem_ownedRoutes.mp hr.mem
  obtain ⟨e, he, hsame⟩ := h.exists_left he'
  refine ⟨e, he, hsame, ?_⟩
  refine ⟨mem_ownedRoutes.mpr ⟨he, hsame.allowedIps.mem_iff.mpr hc⟩, hr.covered, ?_⟩
  intro r hown hcont
  obtain ⟨f, d⟩ := r
  obtain ⟨hf, hd⟩ := mem_ownedRoutes.mp hown
  obtain ⟨f', hf', hsame'⟩ := h.exists_right hf
  exact hr.longest (f', d) (mem_ownedRoutes.mpr ⟨hf', hsame'.allowedIps.mem_iff.mp hd⟩) hcont

end Reordered

theorem select_reordered {entries entries' : List PeerSessionEntry}
    (hwf : AllowedIpsWellFormed entries)
    (hkeys : requireUniqueParsedPeerPublicKeys (entries.map PeerSessionEntry.peer) = .ok ())
    (hown : requireDistinctAllowedIpOwnership (entries.map PeerSessionEntry.peer) = .ok ())
    (hre : Reordered entries entries') {packet : Bytes} {destination : Ip}
    (hparse : parsePacketDestination packet = .ok destination)
    {selected selected' : Option PeerSessionEntry}
    (h : selectSessionForPacket packet entries = .ok selected)
    (h' : selectSessionForPacket packet entries' = .ok selected') :
    Option.Rel SameUpToOrder selected selected' := by
  have hwf' := hre.wellFormed hwf
  cases selected' with
  | none =>
      cases selected with
      | none => exact Option.Rel.none
      | some e =>
          obtain ⟨c, hroute⟩ := select_isRoute hwf hparse h
          obtain ⟨he, hc⟩ := mem_ownedRoutes.mp hroute.mem
          obtain ⟨e', he', hsame⟩ := hre.exists_right he
          exact absurd hroute.covered ((select_eq_none_iff hwf' hparse).mp h' e' he' c
            (hsame.allowedIps.mem_iff.mp hc))
  | some e' =>
      obtain ⟨c', hroute'⟩ := select_isRoute hwf' hparse h'
      obtain ⟨e₀, he₀, hsame, hroute₀⟩ := hre.isRoute hroute'
      cases selected with
      | none =>
          obtain ⟨_, hc⟩ := mem_ownedRoutes.mp hroute₀.mem
          exact absurd hroute₀.covered ((select_eq_none_iff hwf hparse).mp h e₀ he₀ c' hc)
      | some e =>
          obtain ⟨c, hroute⟩ := select_isRoute hwf hparse h
          rw [route_owner_unique hwf hkeys hown hroute hroute₀]
          exact Option.Rel.some hsame

/-! ### The selection -/

/-- Outgoing packets go to the owner of the longest allowed IP that contains
their destination.  A packet without a destination, or with one that no allowed
IP contains, goes nowhere.  The owner is unique, and the order of peers and of
their allowed IPs plays no part. -/
theorem selectSessionForPacket_longest_match {entries : List PeerSessionEntry}
    (hwf : AllowedIpsWellFormed entries)
    (hkeys : requireUniqueParsedPeerPublicKeys (entries.map PeerSessionEntry.peer) = .ok ())
    (hown : requireDistinctAllowedIpOwnership (entries.map PeerSessionEntry.peer) = .ok ())
    (packet : Bytes) :
    ∃ selected, selectSessionForPacket packet entries = .ok selected ∧
      (selected = none ↔
        (∃ throwable, parsePacketDestination packet = .error throwable) ∨
          ∃ destination, parsePacketDestination packet = .ok destination ∧
            ∀ e ∈ entries, ∀ c ∈ e.peer.allowedIps, ¬ c.Contains destination) ∧
      (∀ e, selected = some e →
        ∃ destination, parsePacketDestination packet = .ok destination ∧
          ∃ c, IsRoute entries destination (e, c)) ∧
      (∀ destination e c e' c', IsRoute entries destination (e, c) →
        IsRoute entries destination (e', c') → e = e') ∧
      (∀ entries', Reordered entries entries' →
        ∃ selected', selectSessionForPacket packet entries' = .ok selected' ∧
          Option.Rel SameUpToOrder selected selected') := by
  have hunique : ∀ destination e c e' c', IsRoute entries destination (e, c) →
      IsRoute entries destination (e', c') → e = e' :=
    fun _ _ _ _ _ h h' => route_owner_unique hwf hkeys hown h h'
  cases hparse : parsePacketDestination packet with
  | error throwable =>
      have hnone : ∀ l, selectSessionForPacket packet l = .ok none := by
        intro l
        rw [selectSessionForPacket, hparse]
      refine ⟨none, hnone entries, ⟨fun _ => Or.inl ⟨throwable, rfl⟩, fun _ => rfl⟩, ?_, hunique,
        fun entries' _ => ⟨none, hnone entries', Option.Rel.none⟩⟩
      intro e he
      cases he
  | ok destination =>
      have hselect := selectSessionForPacket_eq hwf hparse
      refine ⟨_, hselect, ?_, ?_, hunique, ?_⟩
      · have hiff := select_eq_none_iff hwf hparse
        rw [hselect, Except.ok.injEq] at hiff
        rw [hiff]
        constructor
        · intro h
          exact Or.inr ⟨destination, rfl, h⟩
        · intro h
          rcases h with ⟨throwable, h⟩ | ⟨d, hd, h⟩
          · cases h
          · cases hd
            exact h
      · intro e he
        rw [he] at hselect
        exact ⟨destination, rfl, select_isRoute hwf hparse hselect⟩
      · intro entries' hre
        have hselect' := selectSessionForPacket_eq (hre.wellFormed hwf) hparse
        exact ⟨_, hselect', select_reordered hwf hkeys hown hre hparse hselect hselect'⟩

def exampleCidr (a b : UInt8) (p : UInt32) : Cidr :=
  { ip := some { value := some (.v4 [a, b, 0, 0]) }, prefixLen := p }

def exampleEntry (id : Nat) (key : String) (allowedIps : List Cidr) : PeerSessionEntry :=
  let peer : ParsedVpnPeer := { publicKey := key, allowedIps := allowedIps }
  { peer := peer,
    session :=
      { id := id, peerPublicKey := key, peerIndex := id,
        createdBy :=
          { config := { interfaceName := "utun0", privateKey := "k" }, peer := peer,
            peerIndex := id } } }

/-- Two peers with nested prefixes and a packet to 10.1.2.3. -/
def exampleEntries : List PeerSessionEntry :=
  [exampleEntry 1 "a" [exampleCidr 10 0 8, exampleCidr 10 2 16],
    exampleEntry 2 "b" [exampleCidr 10 1 16]]

def examplePacket : Bytes :=
  [0x45, 0, 0, 20, 0, 0, 0, 0, 64, 17, 0, 0, 10, 9, 9, 9, 10, 1, 2, 3]

theorem selectSessionForPacket_nested_prefixes :
    selectSessionForPacket examplePacket exampleEntries =
        .ok (some (exampleEntry 2 "b" [exampleCidr 10 1 16])) ∧
      ∃ selected, selectSessionForPacket examplePacket exampleEntries = .ok selected ∧
        ∀ e, selected = some e →
          ∃ destination, parsePacketDestination examplePacket = .ok destination ∧
            ∃ c, IsRoute exampleEntries destination (e, c) := by
  have hwf : AllowedIpsWellFormed exampleEntries := by
    unfold AllowedIpsWellFormed
    decide
  obtain ⟨selected, hselected, _, hroute, _⟩ :=
    selectSessionForPacket_longest_match hwf (by decide) (by decide) examplePacket
  exact ⟨by decide, selected, hselected, hroute⟩

end Crypto
end WgKotlin
