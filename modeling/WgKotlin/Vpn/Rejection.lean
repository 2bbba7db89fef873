import WgKotlin.Vpn.Open

/-!
# Configurations that are rejected

The reasons for which `open` rejects a configuration whatever the environment does,
and on which side of its `stop()` each of them is raised.
-/

namespace WgKotlin

open Proto Kotlin Util Library Crypto

inductive Rejection
  | interfaceName
  | duplicateKeys
  | unparsable
  | missingEndpoint
  | sharedAllowedIp
  deriving DecidableEq, Repr

namespace Rejection

/-- The reason can be read off the configuration. -/
def Applies (getByName : String → Except Throwable Bytes) (interfaceName : String)
    (configuration : VpnConfiguration) : Rejection → Prop
  | .interfaceName =>
    isBlank configuration.interfaceName = true ∨
      matchesInterfaceName configuration.interfaceName = false ∨
      configuration.interfaceName ≠ interfaceName
  | .duplicateKeys => ¬ (configuration.peers.map VpnPeer.publicKey).Nodup
  | .unparsable => ∃ throwable, toParsedVpnConfiguration getByName configuration = .error throwable
  | .missingEndpoint =>
    ∃ peer ∈ configuration.peers, peer.endpointAddress = none ∨ peer.endpointPort = none
  | .sharedAllowedIp =>
    ∃ parsed, toParsedVpnConfiguration getByName configuration = .ok parsed ∧
      ∃ p ∈ parsed.peers, ∃ q ∈ parsed.peers, p.publicKey ≠ q.publicKey ∧
        ∃ c ∈ p.allowedIps, ∃ d ∈ q.allowedIps, normalizedKey c = normalizedKey d

/-- The reason is raised before the `stop()` of `open`. -/
def beforeStop : Rejection → Bool
  | .interfaceName | .duplicateKeys | .unparsable => true
  | .missingEndpoint | .sharedAllowedIp => false

end Rejection

theorem requireValidConfiguration_eq_ok {configuration : VpnConfiguration} :
    requireValidConfiguration configuration = .ok () ↔
      isBlank configuration.interfaceName = false ∧
        matchesInterfaceName configuration.interfaceName = true ∧
        (configuration.peers.map VpnPeer.publicKey).Nodup := by
  rw [requireValidConfiguration, bind_eq_ok]
  constructor
  · intro h
    obtain ⟨_, hblank, h⟩ := h
    obtain ⟨_, hregex, hkeys⟩ := bind_eq_ok.mp h
    exact ⟨by simpa using require_eq_ok.mp hblank, require_eq_ok.mp hregex,
      requireUniqueKeys_eq_ok.mp hkeys⟩
  · intro h
    refine ⟨(), require_eq_ok.mpr (by simpa using h.1), bind_eq_ok.mpr ⟨(), ?_, ?_⟩⟩
    · exact require_eq_ok.mpr h.2.1
    · exact requireUniqueKeys_eq_ok.mpr h.2.2

theorem toParsedVpnPeer_endpoint {getByName : String → Except Throwable Bytes} {peer : VpnPeer}
    {p : ParsedVpnPeer} (h : toParsedVpnPeer getByName peer = .ok p) :
    p.endpointPort = peer.endpointPort ∧ p.endpointHost = none ∧
      (peer.endpointAddress = none → p.endpointAddress = none) := by
  obtain ⟨endpoint, hendpoint, h⟩ := bind_eq_ok.mp h
  obtain ⟨allowedIps, _, h⟩ := bind_eq_ok.mp h
  cases h
  refine ⟨rfl, rfl, fun hnone => ?_⟩
  rw [hnone] at hendpoint
  cases hendpoint
  rfl

section Late

variable {getByName : String → Except Throwable Bytes} {interfaceName : String}
  {configuration : VpnConfiguration} {parsed : ParsedVpnConfiguration}

theorem requireUserspacePeerEndpoints_ne_ok
    (hparse : toParsedVpnConfiguration getByName configuration = .ok parsed)
    (h : Rejection.Applies getByName interfaceName configuration .missingEndpoint) :
    requireUserspacePeerEndpoints parsed.peers ≠ .ok () := by
  intro hok
  obtain ⟨peer, hpeer, hmissing⟩ := h
  obtain ⟨p, hp⟩ := exists_of_mapAll (parsedFrom_of_ok hparse).peers hpeer
  have hmem := (mem_mapAll (parsedFrom_of_ok hparse).peers).mpr ⟨peer, hpeer, hp⟩
  obtain ⟨hport, hhost, haddress⟩ := toParsedVpnPeer_endpoint hp
  obtain ⟨hsomeAddress, hsomePort⟩ := requireUserspacePeerEndpoints_eq_ok.mp hok p hmem
  rcases hmissing with hnone | hnone
  · rw [haddress hnone, hhost] at hsomeAddress
    cases hsomeAddress
  · rw [hport, hnone] at hsomePort
    cases hsomePort

theorem requireDistinctAllowedIpOwnership_ne_ok
    (hparse : toParsedVpnConfiguration getByName configuration = .ok parsed)
    (h : Rejection.Applies getByName interfaceName configuration .sharedAllowedIp) :
    requireDistinctAllowedIpOwnership parsed.peers ≠ .ok () := by
  intro hok
  obtain ⟨parsed', hparse', p, hp, q, hq, hne, c, hc, d, hd, hkey⟩ := h
  rw [hparse, Except.ok.injEq] at hparse'
  subst hparse'
  exact hne (owner_unique hok hp hq hc hd hkey)

/-- The reasons that come after the `stop()` make `reconcileSessions` throw. -/
theorem plan_rejects (hparse : toParsedVpnConfiguration getByName configuration = .ok parsed)
    {reason : Rejection} (hlate : reason.beforeStop = false)
    (h : reason.Applies getByName interfaceName configuration) :
    ∃ throwable, plan parsed = .error throwable := by
  cases hplan : plan parsed with
  | error throwable => exact ⟨throwable, rfl⟩
  | ok p =>
      obtain ⟨_, _, hplan⟩ := bind_eq_ok.mp hplan
      obtain ⟨_, hendpoints, hplan⟩ := bind_eq_ok.mp hplan
      obtain ⟨_, howners, _⟩ := bind_eq_ok.mp hplan
      cases reason with
      | missingEndpoint => exact absurd hendpoints (requireUserspacePeerEndpoints_ne_ok hparse h)
      | sharedAllowedIp => exact absurd howners (requireDistinctAllowedIpOwnership_ne_ok hparse h)
      | interfaceName | duplicateKeys | unparsable => cases hlate

theorem reconcileSessions_of_plan_error {throwable : Throwable}
    (hplan : plan parsed = .error throwable) (factory : String → FactoryReply) (w : World) :
    (reconcileSessions factory parsed w).outcome = some (.error throwable) := by
  unfold reconcileSessions startCall
  rw [hplan]

end Late

namespace Vpn

section Rejected

variable {env : Environment} {vpn : Vpn} {configuration : VpnConfiguration}

theorem checkConfiguration_eq_ok (getByName : String → Except Throwable Bytes) :
    vpn.checkConfiguration configuration = .ok () ↔
      ¬ Rejection.interfaceName.Applies getByName vpn.interfaceName configuration ∧
        ¬ Rejection.duplicateKeys.Applies getByName vpn.interfaceName configuration := by
  rw [checkConfiguration, bind_eq_ok]
  simp only [Rejection.Applies, not_or, not_not, Bool.not_eq_true, Bool.not_eq_false]
  constructor
  · intro h
    obtain ⟨_, hvalid, hname⟩ := h
    obtain ⟨hblank, hregex, hkeys⟩ := requireValidConfiguration_eq_ok.mp hvalid
    exact ⟨⟨hblank, hregex, by simpa using require_eq_ok.mp hname⟩, hkeys⟩
  · intro h
    obtain ⟨⟨hblank, hregex, hname⟩, hkeys⟩ := h
    refine ⟨(), requireValidConfiguration_eq_ok.mpr ⟨hblank, hregex, hkeys⟩, ?_⟩
    exact require_eq_ok.mpr (by simpa using hname)

/-- A reason that is raised before the `stop()` leaves the VPN as it is. -/
theorem openVpn_of_early {reason : Rejection} (hearly : reason.beforeStop = true)
    (h : reason.Applies env.getByName vpn.interfaceName configuration) :
    ∃ e, openVpn env vpn configuration = (vpn, .error e) := by
  unfold openVpn
  split
  next throwable hcheck => exact ⟨_, rfl⟩
  next hcheck =>
    obtain ⟨hname, hkeys⟩ := (checkConfiguration_eq_ok env.getByName).mp hcheck
    cases reason with
    | interfaceName => exact absurd h hname
    | duplicateKeys => exact absurd h hkeys
    | unparsable =>
        obtain ⟨throwable, hparse⟩ := h
        rw [hparse]
        exact ⟨_, rfl⟩
    | missingEndpoint | sharedAllowedIp => cases hearly

/-- With no such reason `open` has stopped the interface before it throws. -/
theorem openVpn_of_late
    (hnone : ¬ ∃ reason : Rejection, reason.beforeStop = true ∧
      reason.Applies env.getByName vpn.interfaceName configuration)
    {reason : Rejection} (h : reason.Applies env.getByName vpn.interfaceName configuration) :
    ∃ vpn' e, openVpn env vpn configuration = (vpn', .error e) ∧ vpn'.iface = .stopped := by
  have hlate : reason.beforeStop = false := by
    by_contra hearly
    exact hnone ⟨reason, Bool.not_eq_false _ ▸ hearly, h⟩
  have hcheck : vpn.checkConfiguration configuration = .ok () :=
    (checkConfiguration_eq_ok env.getByName).mpr
      ⟨fun hname => hnone ⟨_, rfl, hname⟩, fun hkeys => hnone ⟨_, rfl, hkeys⟩⟩
  unfold openVpn
  rw [hcheck]
  cases hparse : toParsedVpnConfiguration env.getByName configuration with
  | error throwable => exact absurd ⟨.unparsable, rfl, throwable, hparse⟩ hnone
  | ok parsed =>
      obtain ⟨throwable, hplan⟩ := plan_rejects hparse hlate h
      simp only
      split
      next throwable hstop => exact ⟨_, _, rfl, rfl⟩
      next hstop =>
        unfold startRun
        simp only [reconcileSessions_of_plan_error hplan]
        exact ⟨_, _, rfl, rfl⟩

/-- A rejected configuration makes `open` throw, and it leaves a running VPN as it is exactly
when a reason applies that is raised before the `stop()`. -/
theorem rejected_configuration_undisturbed_iff (hrunning : vpn.isRunning = true)
    (hrejected : ∃ reason : Rejection,
      reason.Applies env.getByName vpn.interfaceName configuration) :
    (∃ e, (openVpn env vpn configuration).2 = .error e) ∧
      ((openVpn env vpn configuration).1 = vpn ↔
        ∃ reason : Rejection, reason.beforeStop = true ∧
          reason.Applies env.getByName vpn.interfaceName configuration) := by
  by_cases hearly : ∃ reason : Rejection, reason.beforeStop = true ∧
      reason.Applies env.getByName vpn.interfaceName configuration
  · obtain ⟨reason, hbefore, happlies⟩ := hearly
    obtain ⟨e, hopen⟩ := openVpn_of_early hbefore happlies
    rw [hopen]
    exact ⟨⟨e, rfl⟩, fun _ => ⟨reason, hbefore, happlies⟩, fun _ => rfl⟩
  · obtain ⟨reason, happlies⟩ := hrejected
    obtain ⟨vpn', e, hopen, hstopped⟩ := openVpn_of_late hearly happlies
    rw [hopen]
    refine ⟨⟨e, rfl⟩, fun hsame => ?_, fun h => absurd h hearly⟩
    -- A running VPN has a bridge.
    have hup : vpn.iface.isRunning = true := (Bool.and_eq_true_iff.mp hrunning).1
    rw [← hsame, hstopped] at hup
    cases hup

end Rejected

/-- The example, opened. -/
def opened : Vpn := (openVpn exampleEnvironment (fresh "utun0") exampleConfiguration).1

/-- Two peers with one key. -/
def duplicatedPeers : VpnConfiguration :=
  { exampleConfiguration with peers := [examplePeer, examplePeer] }

theorem rejected_configuration_undisturbed_iff_duplicatedPeers :
    (openVpn exampleEnvironment opened duplicatedPeers).1 = opened := by
  have hkeys : Rejection.duplicateKeys.Applies exampleEnvironment.getByName opened.interfaceName
      duplicatedPeers := by
    show ¬ ["b", "b"].Nodup
    decide
  exact (rejected_configuration_undisturbed_iff (by decide +kernel) ⟨_, hkeys⟩).2.mpr
    ⟨_, rfl, hkeys⟩

/-- The port of the peer is missing. -/
def portlessPeer : VpnConfiguration :=
  { exampleConfiguration with peers := [{ examplePeer with endpointPort := none }] }

/-- The VPN runs, `open` throws for a port that is missing, and nothing runs any more. -/
theorem missing_port_stops_running :
    opened.isRunning = true ∧
      Rejection.missingEndpoint.Applies exampleEnvironment.getByName opened.interfaceName
        portlessPeer ∧
      (openVpn exampleEnvironment opened portlessPeer).2 =
        .error ⟨.reconcileSessions, .illegalState ("Operation `reconcileSessions` failed: " ++
          "Peer `b` at index 0 must define endpointPort for BORINGTUN userspace runtime")⟩ ∧
      (openVpn exampleEnvironment opened portlessPeer).1.isRunning = false ∧
      (openVpn exampleEnvironment opened portlessPeer).1.socket = .stopped ∧
      (openVpn exampleEnvironment opened portlessPeer).1.originalConfiguration =
        some portlessPeer := by
  refine ⟨by decide +kernel, ⟨_, List.mem_cons_self, Or.inr rfl⟩, by decide +kernel,
    by decide +kernel, by decide +kernel, by decide +kernel⟩

end Vpn
end WgKotlin
