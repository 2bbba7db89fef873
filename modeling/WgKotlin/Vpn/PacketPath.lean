import WgKotlin.Translate
import WgKotlin.Crypto.AddressText
import WgKotlin.Crypto.PathIndependence
import WgKotlin.Daemon.SplitRouting

/-!
# The path of a packet

One configuration is routed twice.  The daemon installs routes for the allowed IPs of all
peers and host routes for their endpoints, and the client chooses a peer for what comes out
of the TUN.  The two agree: the routes send into the TUN what the client has a peer for, the
route that is taken belongs to the peer that is chosen, and what the client sends for it
leaves by the host route of an endpoint, so that it does not come back.
-/

namespace WgKotlin
namespace Vpn

open Proto Util Kotlin Library Crypto
open Daemon (IpAddr EndpointLookup SessionRoute IsRouteTo Stands endpointIps filteredRoutes
  sessionRoutes parseProtoIp parseProtoCidr)

/-! ### The peers of the client -/

section Peers

variable {allowed : Option ParsedVpnConfiguration → ParsedVpnConfiguration → World → Prop}
  {config : ParsedVpnConfiguration} {w : World}

/-- The sessions are those of the last call, and that call has validated its peers. -/
structure Serves (config : ParsedVpnConfiguration) (w : World) : Prop where
  applied : Applied config w.sessionEntriesByPeer
  planned : ∃ p, plan config = .ok p

theorem serves_of_successfulCalls (h : SuccessfulCalls allowed (some config) w) :
    Serves config w := by
  have hall : ∀ {last : Option ParsedVpnConfiguration} {w : World},
      SuccessfulCalls allowed last w →
        Inv w ∧ w.call = none ∧ ∀ config, last = some config → Serves config w := by
    intro last w h
    induction h with
    | init => exact ⟨inv_init, rfl, fun _ h => (by cases h)⟩
    | idle _ hlabel hstep ih =>
        obtain ⟨hinv, hidle, hserves⟩ := ih
        have hinv' := inv_step hinv hstep
        rcases step_cases hstep with ⟨other, hl, _⟩ | ⟨_, call, _, hcall, _⟩ | ⟨_, _, rfl⟩ |
          ⟨_, _, rfl⟩
        · exact absurd hl (hlabel other)
        · rw [hidle] at hcall
          cases hcall
        · exact ⟨hinv', hidle, fun config hlast => ⟨(hserves config hlast).applied,
            (hserves config hlast).planned⟩⟩
        · exact ⟨hinv', hidle, fun config hlast => ⟨(hserves config hlast).applied,
            (hserves config hlast).planned⟩⟩
    | call _ _ hcall ih =>
        have hwithin := hcall.within ih.1
        refine ⟨hwithin.inv, hcall.ended, fun config hlast => ?_⟩
        cases hlast
        exact ⟨hwithin.applied hcall.ended hcall.outcome, hcall.planned⟩
  exact (hall h).2.2 config rfl

namespace Serves

theorem mem_peers (h : Serves config w) {e : PeerSessionEntry}
    (he : e ∈ w.sessionEntriesByPeer.values) :
    e.peer ∈ config.peers ∧ w.sessionEntriesByPeer.get e.peer.publicKey = some e := by
  obtain ⟨key, hkey⟩ := LinkedMap.mem_values_iff.mp he
  obtain ⟨hpeer, hpublic, _⟩ := h.applied.entry hkey
  exact ⟨hpeer, by rw [hpublic]; exact hkey⟩

theorem exists_entry (h : Serves config w) {peer : ParsedVpnPeer} (hpeer : peer ∈ config.peers) :
    ∃ e ∈ w.sessionEntriesByPeer.values, e.peer = peer := by
  obtain ⟨e, he, hpeer⟩ := h.applied.peers peer hpeer
  exact ⟨e, LinkedMap.mem_values_iff.mpr ⟨_, he⟩, hpeer⟩

/-- A network has one owner among the sessions. -/
theorem owner_eq (h : Serves config w)
    (hwf : ∀ peer ∈ config.peers, ∀ c ∈ peer.allowedIps, c.WellFormed) {e e' : PeerSessionEntry}
    (he : e ∈ w.sessionEntriesByPeer.values) (he' : e' ∈ w.sessionEntriesByPeer.values)
    {c c' : Cidr} (hc : c ∈ e.peer.allowedIps) (hc' : c' ∈ e'.peer.allowedIps)
    (hsame : c.SameNetwork c') : e = e' := by
  obtain ⟨hpeer, hget⟩ := h.mem_peers he
  obtain ⟨hpeer', hget'⟩ := h.mem_peers he'
  obtain ⟨p, hplan⟩ := h.planned
  obtain ⟨_, _, hplan⟩ := bind_eq_ok.mp hplan
  obtain ⟨_, _, hplan⟩ := bind_eq_ok.mp hplan
  obtain ⟨_, hown, _⟩ := bind_eq_ok.mp hplan
  have hkey := owner_unique hown hpeer hpeer' hc hc'
    ((normalizedKey_eq_iff (hwf _ hpeer c hc) (hwf _ hpeer' c' hc')).mpr hsame)
  rw [hkey, hget'] at hget
  exact (Option.some.inj hget).symm

end Serves

end Peers

/-! ### What the client sends -/

/-- Every datagram is for the endpoint of one of the peers. -/
def Addressed (entries : List PeerSessionEntry) (it : Iteration) : Prop :=
  ∀ d ∈ it.pendingNetwork, ∃ e ∈ entries, peerEndpoint e = .ok d.remoteEndpoint

section Sends

variable {entries : List PeerSessionEntry} {it : Iteration}

theorem handleAction_addressed {entry : PeerSessionEntry} (hentry : entry ∈ entries)
    (h : Addressed entries it) (operation : String) (forwardsToTun : Bool)
    (action : PacketAction) :
    Addressed entries (handleAction operation forwardsToTun entry action it).1 := by
  cases action with
  | writeToNetwork packet =>
      unfold handleAction
      cases hendpoint : peerEndpoint entry with
      | error throwable => exact h
      | ok endpoint =>
          intro d hd
          rcases List.mem_append.mp hd with hd | hd
          · exact h d hd
          · rw [List.mem_singleton.mp hd]
            exact ⟨entry, hentry, hendpoint⟩
  | writeToTunIpv4 packet => cases forwardsToTun <;> exact h
  | writeToTunIpv6 packet => cases forwardsToTun <;> exact h
  | done => exact h
  | error code => exact h
  | notSupported operation => exact h

theorem flush_addressed {selected : PeerSessionEntry} (hselected : selected ∈ entries)
    {replies : Nat → Reply} {left handled : Nat} {action : PacketAction}
    (h : Addressed entries it) :
    Addressed entries (flush selected replies left handled action it).1 := by
  fun_induction flush selected replies left handled action it with
  | case1 => exact h
  | case2 => exact h
  | case3 left handled action it hne mid throwable hhandle =>
      have hmid := handleAction_addressed hselected h "decryptToRawPacket" true action
      rw [hhandle] at hmid
      exact hmid
  | case4 handled action it hne mid hhandle =>
      have hmid := handleAction_addressed hselected h "decryptToRawPacket" true action
      rw [hhandle] at hmid
      exact hmid
  | case5 left handled action it hne mid hhandle hmore throwable hreply =>
      have hmid := handleAction_addressed hselected h "decryptToRawPacket" true action
      rw [hhandle] at hmid
      exact hmid
  | case6 left handled action it hne mid hhandle hmore again next hreply ih =>
      have hmid := handleAction_addressed hselected h "decryptToRawPacket" true action
      rw [hhandle] at hmid
      exact ih hmid

theorem periodicEntries_addressed {replies : Nat → Reply} {i : Nat} {rest : List PeerSessionEntry}
    (hrest : ∀ e ∈ rest, e ∈ entries) (h : Addressed entries it) :
    Addressed entries (periodicEntries replies i rest it).1 := by
  fun_induction periodicEntries replies i rest it with
  | case1 => exact h
  | case2 => exact h
  | case3 i entry rest it it' action hreply mid throwable hhandle =>
      have hmid := handleAction_addressed (hrest entry List.mem_cons_self)
        (show Addressed entries it' from h) "runPeriodicTask" false action
      rw [hhandle] at hmid
      exact hmid
  | case4 i entry rest it it' action hreply mid hhandle ih =>
      have hmid := handleAction_addressed (hrest entry List.mem_cons_self)
        (show Addressed entries it' from h) "runPeriodicTask" false action
      rw [hhandle] at hmid
      exact ih (fun e he => hrest e (List.mem_cons_of_mem entry he)) hmid

theorem iteration_addressed (label : LoopLabel) (guarded : Guarded) :
    Addressed guarded.sessionEntriesByPeer.values (label.iteration guarded).1 := by
  have hstart : Addressed guarded.sessionEntriesByPeer.values (Iteration.start guarded) :=
    fun _ hd => absurd hd List.not_mem_nil
  cases label with
  | cleartext packet reply =>
      simp only [LoopLabel.iteration, cleartextIteration]
      split
      · exact hstart
      · exact hstart
      next selected hselected =>
        split
        · exact hstart
        · have hcall : Addressed guarded.sessionEntriesByPeer.values
              ((Iteration.start guarded).call selected.session) := hstart
          exact handleAction_addressed (selectSessionForPacket_mem hselected) hcall _ _ _
  | encrypted datagram replies =>
      simp only [LoopLabel.iteration, encryptedIteration]
      split
      · exact hstart
      · exact hstart
      next selected hselected =>
        split
        · exact hstart
        · exact flush_addressed (firstMatch_eq_some hselected).1 hstart
  | periodic replies => exact periodicEntries_addressed (fun _ he => he) hstart

theorem peerEndpoint_eq_ok {e : PeerSessionEntry} {endpoint : UdpEndpoint}
    (h : peerEndpoint e = .ok endpoint) :
    ∃ ip, e.peer.endpointAddress = some ip ∧ toPlainString ip = .ok endpoint.address ∧
      e.peer.endpointPort = some endpoint.port := by
  unfold peerEndpoint at h
  simp only at h
  cases haddress : e.peer.endpointAddress with
  | none =>
      rw [haddress] at h
      cases h
  | some ip =>
      rw [haddress] at h
      obtain ⟨address, htext, h⟩ := bind_eq_ok.mp h
      cases hport : e.peer.endpointPort with
      | none =>
          rw [hport] at h
          cases h
      | some port =>
          rw [hport] at h
          cases h
          exact ⟨ip, rfl, htext, rfl⟩

end Sends

/-! ### One configuration on both sides -/

section Sides

variable {getByName : String → Except Throwable Bytes} {config : VpnConfiguration}
  {parsed : ParsedVpnConfiguration} {tun : TunSessionConfig}

theorem mem_peerAllowedIps (h : ParsedFrom getByName config parsed)
    (htun : toTunSessionConfig parsed = .ok tun) {c : Cidr} :
    c ∈ tun.peerAllowedIps ↔ ∃ peer ∈ parsed.peers, c ∈ peer.allowedIps := by
  rw [toTunSessionConfig_eq h, Except.ok.injEq] at htun
  subst htun
  rw [(routesOf_perm _).mem_iff, List.mem_eraseDups, List.mem_flatMap]

theorem mem_peerEndpoints (h : ParsedFrom getByName config parsed)
    (htun : toTunSessionConfig parsed = .ok tun) {ip : Ip} :
    ip ∈ tun.peerEndpoints ↔ ∃ peer ∈ parsed.peers, peer.endpointAddress = some ip := by
  rw [toTunSessionConfig_eq h, Except.ok.injEq] at htun
  subst htun
  rw [List.mem_eraseDups, List.mem_filterMap]

theorem allowedIps_wellFormed (h : ParsedFrom getByName config parsed) :
    ∀ peer ∈ parsed.peers, ∀ c ∈ peer.allowedIps, c.WellFormed :=
  fun peer hpeer _ hc => h.wellFormed (List.mem_flatMap.mpr ⟨peer, hpeer, hc⟩)

theorem endpoint_wellFormed (h : ParsedFrom getByName config parsed) {peer : ParsedVpnPeer}
    (hpeer : peer ∈ parsed.peers) {ip : Ip} (hip : peer.endpointAddress = some ip) :
    ip.WellFormed := by
  obtain ⟨_, _, host, _, hhost⟩ :=
    h.mem_endpoints.mp (List.mem_filterMap.mpr ⟨peer, hpeer, hip⟩)
  exact resolveToIp_wellFormed hhost

theorem exists_protoIp {ip : Ip} (h : ip.WellFormed) : ∃ d : IpAddr, d.protoIp = ip := by
  obtain ⟨d, hd⟩ := Daemon.exists_parseProtoIp_iff.mpr h
  refine ⟨d, ?_⟩
  obtain ⟨a, ha, hfamily, hbytes⟩ := Daemon.parseProtoIp_eq_some_iff.mp hd
  obtain ⟨value⟩ := ip
  cases ha
  unfold IpAddr.protoIp
  rw [← hfamily, ← hbytes]
  cases a <;> rfl

end Sides

/-! ### Two routers -/

section Routers

variable {getByName : String → Except Throwable Bytes} {config : VpnConfiguration}
  {parsed : ParsedVpnConfiguration} {tun : TunSessionConfig} {w : World}
  {platform : EndpointLookup} {endpointRoutes : List platform.EndpointRoute}
  {interfaceName : String} {d : IpAddr} {packet : Bytes}

variable (hfrom : ParsedFrom getByName config parsed) (htun : toTunSessionConfig parsed = .ok tun)
  (hserves : Serves parsed w)
  (hend : endpointRoutes.map platform.destination = endpointIps tun)

include hfrom htun

theorem tun_wellFormed : ∀ c ∈ tun.peerAllowedIps, c.WellFormed := by
  intro c hc
  obtain ⟨peer, hpeer, hc⟩ := (mem_peerAllowedIps hfrom htun).mp hc
  exact allowedIps_wellFormed hfrom peer hpeer c hc

include hend in
theorem session_splits (interfaceName : String) : Daemon.Splits tun interfaceName
    (sessionRoutes endpointRoutes (filteredRoutes tun interfaceName)) :=
  Daemon.sessionRoutes_splits (tun_wellFormed hfrom htun) hend

include hserves

/-- The two tables have the same allowed IPs. -/
theorem mem_allowedIps_iff {c : Cidr} : c ∈ tun.peerAllowedIps ↔
    ∃ e ∈ w.sessionEntriesByPeer.values, c ∈ e.peer.allowedIps := by
  rw [mem_peerAllowedIps hfrom htun]
  constructor
  · intro h
    obtain ⟨peer, hpeer, hc⟩ := h
    obtain ⟨e, he, rfl⟩ := hserves.exists_entry hpeer
    exact ⟨e, he, hc⟩
  · intro h
    obtain ⟨e, he, hc⟩ := h
    exact ⟨e.peer, (hserves.mem_peers he).1, hc⟩

omit htun in
theorem entries_wellFormed : AllowedIpsWellFormed w.sessionEntriesByPeer.values :=
  fun e he c hc => allowedIps_wellFormed hfrom e.peer (hserves.mem_peers he).1 c hc

theorem select_isSome_iff (hpacket : parsePacketDestination packet = .ok d.protoIp) :
    (∃ e, selectSessionForPacket packet w.sessionEntriesByPeer.values = .ok (some e)) ↔
      ∃ c ∈ tun.peerAllowedIps, c.Contains d.protoIp := by
  have hwf := entries_wellFormed hfrom hserves
  have hnone := select_eq_none_iff hwf hpacket
  rw [selectSessionForPacket_eq hwf hpacket] at hnone ⊢
  constructor
  · rintro ⟨e, he⟩
    by_contra hno
    have hall := hnone.mpr fun e he c hc hcontains =>
      hno ⟨c, (mem_allowedIps_iff hfrom htun hserves).mpr ⟨e, he, hc⟩, hcontains⟩
    rw [hall] at he
    cases he
  · rintro ⟨c, hc, hcontains⟩
    obtain ⟨e, he, hc⟩ := (mem_allowedIps_iff hfrom htun hserves).mp hc
    cases hselected : ((candidates d.protoIp w.sessionEntriesByPeer.values).maxOn? fun pair =>
        pair.2.prefixLen.toNat).map Prod.fst with
    | none => exact absurd hcontains (hnone.mp (by rw [hselected]) e he c hc)
    | some selected => exact ⟨selected, rfl⟩

include hend

/-- Off the endpoints the routes take into the TUN what the client has a peer for. -/
theorem tun_route_iff (hpacket : parsePacketDestination packet = .ok d.protoIp)
    (hd : d ∉ endpointIps tun) :
    (∃ t, IsRouteTo (sessionRoutes endpointRoutes (filteredRoutes tun interfaceName)) d
        (.tun t)) ↔
      ∃ e, selectSessionForPacket packet w.sessionEntriesByPeer.values = .ok (some e) := by
  have hsplits := session_splits hfrom htun hend interfaceName
  rw [select_isSome_iff hfrom htun hserves hpacket]
  constructor
  · rintro ⟨t, ht⟩
    by_contra hno
    exact hsplits.nothing d hd hno ⟨_, ht⟩
  · intro hallowed
    obtain ⟨⟨r, hr⟩, htun⟩ := hsplits.tun d hd hallowed
    obtain ⟨t, rfl, _⟩ := htun r hr
    exact ⟨t, hr⟩

/-- The route into the TUN is that of an allowed IP of the peer that the client chooses. -/
theorem tun_route_owner (hpacket : parsePacketDestination packet = .ok d.protoIp) {t : Daemon.Route}
    (ht : IsRouteTo (sessionRoutes endpointRoutes (filteredRoutes tun interfaceName)) d (.tun t))
    {e : PeerSessionEntry}
    (he : selectSessionForPacket packet w.sessionEntriesByPeer.values = .ok (some e)) :
    ∃ c ∈ e.peer.allowedIps, Stands interfaceName c t := by
  have hwf := tun_wellFormed hfrom htun
  have hsplits := session_splits hfrom htun hend interfaceName
  have hd : d ∉ endpointIps tun := by
    intro hd
    obtain ⟨_, h, _⟩ := (hsplits.endpoint d hd).2 _ ht
    cases h
  obtain ⟨c, hroute⟩ := select_isRoute (entries_wellFormed hfrom hserves) hpacket he
  obtain ⟨hemem, hc⟩ := mem_ownedRoutes.mp hroute.mem
  have hctun := (mem_allowedIps_iff hfrom htun hserves).mpr ⟨e, hemem, hc⟩
  -- the route stands for an allowed IP of some peer
  obtain ⟨t', ht', hsame⟩ : ∃ t' ∈ filteredRoutes tun interfaceName,
      (SessionRoute.tun t : SessionRoute platform) = .tun t' := by
    rcases Daemon.mem_sessionRoutes.mp ht.mem with ⟨_, _, h⟩ | h
    · cases h
    · exact h
  cases hsame
  obtain ⟨⟨c', hc'tun, hstands'⟩, _⟩ := (Daemon.mem_filteredRoutes hwf).mp ht'
  obtain ⟨e', he'mem, hc'⟩ := (mem_allowedIps_iff hfrom htun hserves).mp hc'tun
  have hcovers : IpAddr.SharesPrefix t.prefixLen.toNat t.destination d := ht.covered
  have hcontains' : c'.Contains d.protoIp := by
    rw [Daemon.contains_protoIp_iff hstands'.1, ← hstands'.2.1]
    exact hcovers
  -- and there is a route for the longest allowed IP of the client
  obtain ⟨s, hstands⟩ : ∃ s, Stands interfaceName c s := Daemon.exists_stands (hwf c hctun)
  have hscovers : IpAddr.SharesPrefix s.prefixLen.toNat s.destination d := by
    rw [hstands.2.1]
    exact (Daemon.contains_protoIp_iff hstands.1).mp hroute.covered
  have hkept : s ∈ filteredRoutes tun interfaceName := by
    refine (Daemon.mem_filteredRoutes hwf).mpr
      ⟨⟨c, hctun, hstands⟩, Daemon.keepsRoute_iff.mpr fun heq hmem => ?_⟩
    rw [heq] at hscovers
    exact hd (IpAddr.sharesPrefix_maxPrefix.mp hscovers ▸ hmem)
  have hlonger := ht.longest (.tun s) (Daemon.mem_sessionRoutes.mpr (Or.inr ⟨s, hkept, rfl⟩))
    hscovers
  have hlonger' := hroute.longest (e', c') (mem_ownedRoutes.mpr ⟨he'mem, hc'⟩) hcontains'
  have hlen : c.prefixLen = c'.prefixLen := by
    have hs : s.prefixLen.toNat ≤ t.prefixLen.toNat := hlonger
    have hc : c'.prefixLen.toNat ≤ c.prefixLen.toNat := hlonger'
    rw [hstands.2.1, hstands'.2.1] at hs
    exact UInt32.toNat_inj.mp (Nat.le_antisymm hs hc)
  obtain rfl := hserves.owner_eq (allowedIps_wellFormed hfrom) hemem he'mem hc hc'
    (Cidr.SameNetwork.of_contains hlen hroute.covered hcontains')
  exact ⟨c', hc', hstands'⟩

omit hend in
/-- A datagram goes to an address that one of the endpoints has. -/
theorem sent_to_endpoint {parseIp : String → Option IpAddr}
    (readers : AddressReaders getByName parseIp)
    (hunmapped : ∀ ip ∈ tun.peerEndpoints, ¬ IsMappedIp ip) {label : LoopLabel}
    {datagram : UdpDatagram} (hsent : datagram ∈ (label.iteration w.guarded).1.pendingNetwork) :
    ∃ ip address, resolveToIp getByName datagram.remoteEndpoint.address = .ok ip ∧
      parseProtoIp ip = some address ∧ address ∈ endpointIps tun := by
  obtain ⟨e, he, hendpoint⟩ := iteration_addressed label w.guarded datagram hsent
  obtain ⟨ip, hip, htext, _⟩ := peerEndpoint_eq_ok hendpoint
  have hpeer := (hserves.mem_peers he).1
  have hmem := (mem_peerEndpoints hfrom htun).mpr ⟨e.peer, hpeer, hip⟩
  obtain ⟨text, address, htext', hresolve, haddress, _⟩ :=
    read_toPlainString readers (endpoint_wellFormed hfrom hpeer hip) (hunmapped ip hmem)
  rw [htext, Except.ok.injEq] at htext'
  subst htext'
  exact ⟨ip, address, hresolve, haddress, List.mem_filterMap.mpr ⟨ip, hmem, haddress⟩⟩

omit hend htun in
/-- What comes from where a datagram went is taken for a peer with that endpoint. -/
theorem answer_matched {label : LoopLabel} {datagram : UdpDatagram}
    (hsent : datagram ∈ (label.iteration w.guarded).1.pendingNetwork) :
    ∃ e, firstMatch datagram.remoteEndpoint w.sessionEntriesByPeer.values = .ok (some e) ∧
      peerEndpoint e = .ok datagram.remoteEndpoint := by
  obtain ⟨e, he, hendpoint⟩ := iteration_addressed label w.guarded datagram hsent
  obtain ⟨ip, hip, htext, hport⟩ := peerEndpoint_eq_ok hendpoint
  have hwf : ∀ entry ∈ w.sessionEntriesByPeer.values, ∀ a,
      entry.peer.endpointAddress = some a → a.WellFormed :=
    fun entry hentry a ha => endpoint_wellFormed hfrom (hserves.mem_peers hentry).1 ha
  have hfirst : firstMatch datagram.remoteEndpoint w.sessionEntriesByPeer.values =
      .ok (w.sessionEntriesByPeer.values.find? fun entry =>
        decide (entry.peer.endpointAddress = some ip ∧
          entry.peer.endpointPort = some datagram.remoteEndpoint.port)) :=
    firstMatch_eq (hwf e he ip hip) htext hwf
  cases hfound : w.sessionEntriesByPeer.values.find? fun entry =>
      decide (entry.peer.endpointAddress = some ip ∧
        entry.peer.endpointPort = some datagram.remoteEndpoint.port) with
  | none => exact absurd (decide_eq_true ⟨hip, hport⟩) (List.find?_eq_none.mp hfound e he)
  | some found =>
      rw [hfound] at hfirst
      have hmatches := List.find?_some hfound
      rw [decide_eq_true_eq] at hmatches
      obtain ⟨haddress, hfoundPort⟩ := hmatches
      refine ⟨found, hfirst, ?_⟩
      unfold peerEndpoint
      simp only [haddress, hfoundPort, htext]
      rfl

end Routers

/-! ### The whole path -/

/-- Where packets and datagrams go between the routes of a session and the peers of the
client. -/
structure Follows (getByName : String → Except Throwable Bytes) (tun : TunSessionConfig)
    (interfaceName : String) (w : World) {platform : EndpointLookup}
    (routes : List (SessionRoute platform)) : Prop where
  destination : ∀ packet ip, parsePacketDestination packet = .ok ip → ∃ d : IpAddr, d.protoIp = ip
  taken : ∀ packet d, parsePacketDestination packet = .ok d.protoIp → d ∉ endpointIps tun →
    ((∃ t, IsRouteTo routes d (.tun t)) ↔
      ∃ e, selectSessionForPacket packet w.sessionEntriesByPeer.values = .ok (some e))
  owner : ∀ packet d t e, parsePacketDestination packet = .ok d.protoIp →
    IsRouteTo routes d (.tun t) →
    selectSessionForPacket packet w.sessionEntriesByPeer.values = .ok (some e) →
    ∃ c ∈ e.peer.allowedIps, Stands interfaceName c t
  sent : ∀ (label : LoopLabel) (datagram : UdpDatagram),
    datagram ∈ (label.iteration w.guarded).1.pendingNetwork →
    ∃ ip address, resolveToIp getByName datagram.remoteEndpoint.address = .ok ip ∧
      parseProtoIp ip = some address ∧ (∃ r, IsRouteTo routes address r) ∧
      ∀ r, IsRouteTo routes address r → ∃ route, r = .endpoint route
  answered : ∀ (label : LoopLabel) (datagram : UdpDatagram),
    datagram ∈ (label.iteration w.guarded).1.pendingNetwork →
    ∃ e, firstMatch datagram.remoteEndpoint w.sessionEntriesByPeer.values = .ok (some e) ∧
      peerEndpoint e = .ok datagram.remoteEndpoint

/-- The routes that the daemon installs for a configuration and the peers that the client has
for it agree, whatever calls and packets came before. -/
theorem packets_follow_peers {getByName : String → Except Throwable Bytes}
    {parseIp : String → Option IpAddr} (readers : AddressReaders getByName parseIp)
    {allowed : Option ParsedVpnConfiguration → ParsedVpnConfiguration → World → Prop}
    {config : VpnConfiguration} {parsed : ParsedVpnConfiguration} {tun : TunSessionConfig}
    {w : World} (hparsed : toParsedVpnConfiguration getByName config = .ok parsed)
    (hcalls : SuccessfulCalls allowed (some parsed) w)
    (htun : toTunSessionConfig parsed = .ok tun)
    (hunmapped : ∀ ip ∈ tun.peerEndpoints, ¬ IsMappedIp ip)
    {platform : EndpointLookup} {display : IpAddr → String}
    {endpointRoutes : List platform.EndpointRoute}
    (hroutes : Daemon.resolveEndpointRoutes platform display tun = .ok endpointRoutes)
    (interfaceName : String) :
    Follows getByName tun interfaceName w
      (sessionRoutes endpointRoutes (filteredRoutes tun interfaceName)) := by
  have hfrom := parsedFrom_of_ok hparsed
  have hserves := serves_of_successfulCalls hcalls
  have hend := Daemon.map_destination_resolveEndpointRoutes hroutes
  refine ⟨?_, ?_, ?_, ?_, ?_⟩
  · intro packet ip hpacket
    exact exists_protoIp (parsePacketDestination_wellFormed hpacket)
  · intro packet d hpacket hd
    exact tun_route_iff hfrom htun hserves hend hpacket hd
  · intro packet d t e hpacket ht he
    exact tun_route_owner hfrom htun hserves hend hpacket ht he
  · intro label datagram hsent
    obtain ⟨ip, address, hresolve, haddress, hmem⟩ :=
      sent_to_endpoint hfrom htun hserves readers hunmapped hsent
    have hout := (session_splits hfrom htun hend interfaceName).endpoint address hmem
    refine ⟨ip, address, hresolve, haddress, hout.1, fun r hr => ?_⟩
    obtain ⟨route, hroute, _⟩ := hout.2 r hr
    exact ⟨route, hroute⟩
  · intro label datagram hsent
    exact answer_matched hfrom hserves hsent

/-- Two peers behind one address, with nested networks. -/
def nestedConfiguration : VpnConfiguration where
  interfaceName := "utun0"
  privateKey := "k"
  addresses := ["10.9.9.9/24"]
  peers := [
    { endpointPort := some 1, endpointAddress := some "192.0.2.1", publicKey := "a",
      allowedIps := ["10.0.0.0/8"] },
    { endpointPort := some 2, endpointAddress := some "192.0.2.1", publicKey := "b",
      allowedIps := ["10.1.0.0/16", "192.0.2.1/32"] }]

def nestedParsed : ParsedVpnConfiguration where
  interfaceName := "utun0"
  privateKey := "k"
  addresses := [{ ip := some { value := some (.v4 [10, 9, 9, 9]) }, prefixLen := 24 }]
  peers := [
    { endpointPort := some 1, endpointAddress := some { value := some (.v4 [192, 0, 2, 1]) },
      publicKey := "a", allowedIps := [exampleCidr 10 0 8] },
    { endpointPort := some 2, endpointAddress := some { value := some (.v4 [192, 0, 2, 1]) },
      publicKey := "b",
      allowedIps := [exampleCidr 10 1 16,
        { ip := some { value := some (.v4 [192, 0, 2, 1]) }, prefixLen := 32 }] }]

def nestedTun : TunSessionConfig where
  interfaceName := "utun0"
  mtu := 0
  addresses := nestedParsed.addresses
  peerAllowedIps := [exampleCidr 10 0 8, exampleCidr 10 1 16,
    { ip := some { value := some (.v4 [192, 0, 2, 1]) }, prefixLen := 32 }]
  peerEndpoints := [{ value := some (.v4 [192, 0, 2, 1]) }]
  dns := some {}

/-- The packet to `10.1.2.3` goes into the TUN by the route of the peer that it is for. -/
theorem packets_follow_peers_nested : ∃ w endpointRoutes,
    SuccessfulCalls (fun _ _ _ => True) (some nestedParsed) w ∧
      Daemon.resolveEndpointRoutes Daemon.gatewayLookup (fun _ => "") nestedTun =
        .ok endpointRoutes ∧
      ∃ t e, IsRouteTo (sessionRoutes endpointRoutes (filteredRoutes nestedTun "utun0"))
          ⟨.v4, [10, 1, 2, 3], rfl⟩ (.tun t) ∧
        selectSessionForPacket examplePacket w.sessionEntriesByPeer.values = .ok (some e) ∧
        ∃ c ∈ e.peer.allowedIps, Stands "utun0" c t := by
  have hparsed : toParsedVpnConfiguration literalOctets nestedConfiguration = .ok nestedParsed := by
    decide +kernel
  have htun : toTunSessionConfig nestedParsed = .ok nestedTun := by decide +kernel
  have hrun : ((run step World.init (.reconcile nestedParsed :: proceed 4)).map fun w =>
      (w.call, w.outcome, (selectSessionForPacket examplePacket
        w.sessionEntriesByPeer.values).toOption.join.isSome)) =
      some (none, some (.ok ()), true) := by
    decide +kernel
  obtain ⟨w, hw, hlast⟩ := Option.map_eq_some_iff.mp hrun
  simp only [Prod.mk.injEq] at hlast
  obtain ⟨hended, houtcome, hselected⟩ := hlast
  have hcalls : SuccessfulCalls (fun _ _ _ => True) (some nestedParsed) w :=
    .call .init trivial ⟨hw, proceed_single, hended, houtcome⟩
  obtain ⟨endpointRoutes, hroutes⟩ : ∃ endpointRoutes, Daemon.resolveEndpointRoutes
      Daemon.gatewayLookup (fun _ => "") nestedTun = .ok endpointRoutes := by
    have hok : (Daemon.resolveEndpointRoutes Daemon.gatewayLookup (fun _ => "")
        nestedTun).toBool = true := by decide +kernel
    cases hresolved : Daemon.resolveEndpointRoutes Daemon.gatewayLookup (fun _ => "") nestedTun with
    | error error =>
        rw [hresolved] at hok
        cases hok
    | ok endpointRoutes => exact ⟨endpointRoutes, rfl⟩
  have hunmapped : ∀ ip ∈ nestedTun.peerEndpoints, ¬ IsMappedIp ip := by
    intro ip hip
    rw [List.mem_singleton.mp hip]
    rintro ⟨address, haddress, hfamily, _⟩
    cases haddress
    cases hfamily
  have hfollows := packets_follow_peers literalReaders hparsed hcalls htun hunmapped hroutes "utun0"
  have hpacket : parsePacketDestination examplePacket =
      .ok (IpAddr.protoIp ⟨.v4, [10, 1, 2, 3], rfl⟩) := by decide +kernel
  obtain ⟨e, he⟩ : ∃ e, selectSessionForPacket examplePacket w.sessionEntriesByPeer.values =
      .ok (some e) := by
    cases hselect : selectSessionForPacket examplePacket w.sessionEntriesByPeer.values with
    | error throwable =>
        rw [hselect] at hselected
        cases hselected
    | ok found =>
        cases found with
        | none =>
            rw [hselect] at hselected
            cases hselected
        | some e => exact ⟨e, rfl⟩
  obtain ⟨t, ht⟩ := (hfollows.taken _ _ hpacket (by decide +kernel)).mpr ⟨e, he⟩
  exact ⟨w, endpointRoutes, hcalls, hroutes, t, e, ht, he, hfollows.owner _ _ t e hpacket ht he⟩

end Vpn
end WgKotlin
