import WgKotlin.Daemon.Macos.Faults
import WgKotlin.Daemon.Macos.DnsStore

/-!
# A session on macOS

`configure_session` of `macos.rs`: the routes are installed over their journal, then the DNS
entries are set, and what was done is taken back when a step fails or when the session ends.
The kernel and the store may fail at any call, also at those of the clean-up.  A clean-up
that reports success has put the routes back and removed the DNS entries, of which an earlier
value is not restored.
-/

namespace WgKotlin
namespace Daemon
namespace Macos

open Proto Library

/-- What a session works on. -/
structure Host where
  kernel : Kernel
  store : DnsStore

/-- The texts of the system. -/
structure Messages where
  strerror : Int32 → String
  errorString : Int → Option String

namespace Host

variable (messages : Messages)

/-- The closure `cleanup` over the routes that it owns. -/
def cleanup (routes : SessionRoutes) (interface : String) (host : Host) :
    Except String Unit × Host :=
  let (routeResult, _, kernel) := routes.restoreWith messages.strerror host.kernel
  let (dnsResult, store) := clearDnsEntries messages.errorString host.store interface
  (match routeResult, dnsResult with
    | .ok (), result => result
    | result, .ok () => result
    | .error routes, .error dns => .error (routes ++ "; " ++ dns),
    { kernel := kernel, store := store })

/-- The DNS part of the closure that makes `setup_result`. -/
def setUpDns (entries : Option (List String × List String)) (interface : String)
    (store : DnsStore) : Except String Unit × DnsStore :=
  match clearDnsEntries messages.errorString store interface with
  | (.error error, store) => (.error error, store)
  | (.ok (), store) =>
    match entries with
    | some (servers, domains) =>
      setDnsEntries messages.errorString store interface servers domains
    | none => (.ok (), store)

def setUp (requests : List (Except IoError Snapshot))
    (entries : Option (List String × List String)) (interface : String) (host : Host) :
    Except String Unit × SessionRoutes × Host :=
  match SessionRoutes.new.addAll host.kernel requests with
  | (.error error, routes, kernel) =>
    (.error ("failed to configure routes: " ++ error.describe messages.strerror), routes,
      { host with kernel := kernel })
  | (.ok (), routes, kernel) =>
    let (result, store) := setUpDns messages entries interface host.store
    (result, routes, { kernel := kernel, store := store })

/-- The routes that the hook of a session owns, or the error. -/
def configure (requests : List (Except IoError Snapshot))
    (entries : Option (List String × List String)) (interface : String) (host : Host) :
    Except String SessionRoutes × Host :=
  match setUp messages requests entries interface host with
  | (.ok (), routes, host) => (.ok routes, host)
  | (.error error, routes, host) =>
    match cleanup messages routes interface host with
    | (.ok (), host) => (.error error, host)
    | (.error cleanupError, host) =>
      (.error (error ++ "; cleanup failed: " ++ cleanupError), host)

def configureSession (ifNametoindex : String → Nat) (lastOsError : IoError)
    (newManager : Except String Unit) (display : IpAddr → String) (config : TunSessionConfig)
    (interface : String) (endpointRoutes : List EndpointRoute) (host : Host) :
    Except String SessionRoutes × Host :=
  match buildAndFilterRoutes newManager config interface endpointRoutes with
  | .error error => (.error error, host)
  | .ok (_, filteredRoutes, endpointRoutes) =>
    configure messages
      (SessionRoutes.requests ifNametoindex lastOsError filteredRoutes endpointRoutes)
      (dnsEntries display config) interface host

end Host

/-! ### The session -/

/-- The DNS entries are in the store; without any the keys are free. -/
def DnsStore.Holds (s : DnsStore) (interface : String) : Option (List String × List String) → Prop
  | some (servers, domains) =>
      ∀ entry ∈ dnsValues interface servers domains, s.values entry.1 = some entry.2
  | none => ∀ key ∈ resolverKeys interface, s.values key = none

/-- The routes are as they were, where one that was deleted is there as it is added again, and
the keys of the store are free. -/
structure Host.Undone (initial : Table) (interface : String) (host : Host) : Prop where
  routes : ∀ k, host.kernel.table.get k = initial.get k ∨
    ∃ s m, initial.get k = some s ∧ s.message .add = .ok m ∧
      host.kernel.table.get k = some { bytes := m }
  dns : host.store.Holds interface none

/-- What the hook of a session does, whatever has happened since. -/
structure Host.Ended (initial : Table) (routes : SessionRoutes) (interface : String)
    (later : Host) (result : Except String Unit) (final : Host) : Prop where
  store : DnsStore.Only (resolverKeys interface) later.store final.store
  others : ∀ k, k ∉ routes.changes.map RouteChange.key →
    final.kernel.table.get k = later.kernel.table.get k
  foreign : ∀ c ∈ routes.changes, c.Foreign (later.kernel.table.get c.key) →
    final.kernel.table.get c.key = later.kernel.table.get c.key ∧ result ≠ .ok ()
  success : result = .ok () → final.store.Holds interface none ∧
    ∀ k ∈ routes.changes.map RouteChange.key,
      final.kernel.table.get k = (initial.get k).bind Snapshot.normal

/-- What `configure_session` has done when it returns the hook. -/
structure Host.Configured (requests : List (Except IoError Snapshot))
    (entries : Option (List String × List String)) (interface : String) (initial : Table)
    (routes : SessionRoutes) (host : Host) : Prop where
  holds : ∀ request ∈ requests, ∃ route, request = .ok route ∧
    ∃ c ∈ routes.changes, route.key = .ok c.key
  installed : ∀ c ∈ routes.changes, c.Installed host.kernel.table
  dns : host.store.Holds interface entries
  journalled : Journalled initial routes.changes host.kernel

namespace Host

variable {messages : Messages} {interface : String} {initial : Table} {host : Host}
  {routes : SessionRoutes} {requests : List (Except IoError Snapshot)}
  {entries : Option (List String × List String)}

theorem cleanup_eq_ok :
    (cleanup messages routes interface host).1 = .ok () ↔
      (routes.restoreWith messages.strerror host.kernel).1 = .ok () ∧
        (clearDnsEntries messages.errorString host.store interface).1 = .ok () := by
  unfold cleanup
  rcases routes.restoreWith messages.strerror host.kernel with ⟨routeResult, _, kernel⟩
  rcases clearDnsEntries messages.errorString host.store interface with ⟨dnsResult, store⟩
  cases routeResult <;> cases dnsResult <;> simp

theorem cleanup_kernel : (cleanup messages routes interface host).2.kernel =
    (routes.restoreWith messages.strerror host.kernel).2.2 := rfl

/-- The hook of a session, run over any host. -/
theorem cleanup_ended {w : Kernel} (hjournal : Journalled initial routes.changes w)
    (hattempted : ∀ c ∈ routes.changes, c.addAttempted = true) (hhonest : host.kernel.Honest) :
    Ended initial routes interface host (cleanup messages routes interface host).1
      (cleanup messages routes interface host).2 := by
  obtain ⟨errors, hrestored, hresult⟩ := SessionRoutes.restoreWith_restoredAll messages.strerror
    hhonest hjournal.nodup hjournal.valid
  have hclear := clearDnsEntries_spec messages.errorString host.store interface
  refine ⟨hclear.1, hrestored.frame, fun c hc hforeign => ?_, fun hok => ?_⟩
  · obtain ⟨hleft, hfail⟩ := hrestored.foreign c hc hforeign
    exact ⟨hleft, fun hok => hfail (hresult.mp (cleanup_eq_ok.mp hok).1)⟩
  · obtain ⟨hroutes, hdns⟩ := cleanup_eq_ok.mp hok
    refine ⟨hclear.2 hdns, fun k hk => ?_⟩
    obtain ⟨c, hc, rfl⟩ := List.mem_map.mp hk
    rw [cleanup_kernel, hrestored.success (hresult.mp hroutes) c hc, ← hjournal.previous c hc,
      RouteChange.outcome, hattempted c hc, Bool.not_true, Bool.and_false,
      if_neg Bool.false_ne_true]

/-- The clean-up of a set-up that failed, when it reports success. -/
theorem cleanup_undone (messages : Messages) (interface : String)
    (hjournal : Journalled initial routes.changes host.kernel)
    (hhonest : host.kernel.Honest)
    (hok : (cleanup messages routes interface host).1 = .ok ()) :
    Undone initial interface (cleanup messages routes interface host).2 := by
  obtain ⟨errors, hrestored, hresult⟩ := SessionRoutes.restoreWith_restoredAll messages.strerror
    hhonest hjournal.nodup hjournal.valid
  obtain ⟨hroutes, hdns⟩ := cleanup_eq_ok.mp hok
  rw [hresult.mp hroutes] at hrestored
  refine ⟨fun k => ?_, (clearDnsEntries_spec messages.errorString host.store interface).2 hdns⟩
  have hget := hrestored.reverted hjournal k
  rw [cleanup_kernel]
  by_cases hdisplaced : host.kernel.displaced k = true
  · rw [if_pos hdisplaced] at hget
    cases hs : initial.get k with
    | none =>
        rw [hs] at hget
        exact Or.inl hget
    | some s =>
        obtain ⟨m, hm⟩ := hjournal.message_of_displaced hdisplaced hs
        rw [hs, Option.bind_some, Snapshot.normal, hm] at hget
        exact Or.inr ⟨s, m, rfl, hm, hget⟩
  · rw [if_neg hdisplaced] at hget
    exact Or.inl hget

/-- The hook succeeds when the systems work and the routes are as the session left them. -/
theorem cleanup_of_works (hjournal : Journalled initial routes.changes host.kernel)
    (hanswers : host.kernel.Answers) (hworks : host.store.Works) :
    (cleanup messages routes interface host).1 = .ok () := by
  obtain ⟨w', hrestore, _⟩ :=
    SessionRoutes.restoreWith_journalled messages.strerror hjournal hanswers
  refine cleanup_eq_ok.mpr ⟨?_, clearDnsEntries_of_works hworks⟩
  rw [hrestore]

theorem setUpDns_spec (messages : Messages) (entries : Option (List String × List String))
    (interface : String) (store : DnsStore) :
    DnsStore.Only (resolverKeys interface) store
        (setUpDns messages entries interface store).2 ∧
      ((setUpDns messages entries interface store).1 = .ok () →
        (setUpDns messages entries interface store).2.Holds interface entries) := by
  unfold setUpDns
  have hclear := clearDnsEntries_spec messages.errorString store interface
  rcases hfirst : clearDnsEntries messages.errorString store interface with ⟨result, next⟩
  rw [hfirst] at hclear
  cases result with
  | error e => exact ⟨hclear.1, fun h => (by cases h)⟩
  | ok _ =>
      cases entries with
      | none => exact ⟨hclear.1, fun _ => hclear.2 rfl⟩
      | some lists =>
          obtain ⟨servers, domains⟩ := lists
          have hset := setDnsEntries_spec messages.errorString next interface servers domains
          exact ⟨hclear.1.trans hset.1, hset.2⟩

/-- What the set-up has done, whether it ended well or not. -/
theorem setUp_spec (messages : Messages) (entries : Option (List String × List String))
    (interface : String) (hstart : Journalled initial SessionRoutes.new.changes host.kernel)
    (hhonest : host.kernel.Honest)
    (hrequests : ∀ route, .ok route ∈ requests → IsRequest route) :
    Journalled initial (setUp messages requests entries interface host).2.1.changes
        (setUp messages requests entries interface host).2.2.kernel ∧
      (setUp messages requests entries interface host).2.2.kernel.Honest ∧
      (∀ c ∈ (setUp messages requests entries interface host).2.1.changes,
        .ok c.route ∈ requests) ∧
      DnsStore.Only (resolverKeys interface) host.store
        (setUp messages requests entries interface host).2.2.store ∧
      ((setUp messages requests entries interface host).1 = .ok () →
        Configured requests entries interface initial
          (setUp messages requests entries interface host).2.1
          (setUp messages requests entries interface host).2.2) := by
  unfold setUp
  have hjournal := SessionRoutes.addAll_journalled hrequests hstart
  have hnext := SessionRoutes.addAll_honest hhonest SessionRoutes.new requests
  have hroutes : ∀ c ∈ (SessionRoutes.new.addAll host.kernel requests).2.1.changes,
      .ok c.route ∈ requests := fun c hc =>
    (SessionRoutes.route_mem_addAll hc).resolve_left List.not_mem_nil
  have hinstalled := SessionRoutes.addAll_installed hrequests hstart
    fun c hc => absurd hc List.not_mem_nil
  have hholds := SessionRoutes.addAll_holds requests SessionRoutes.new host.kernel
  rcases hadds : SessionRoutes.new.addAll host.kernel requests with ⟨result, routes, kernel⟩
  rw [hadds] at hjournal hnext hroutes hinstalled hholds
  cases result with
  | error e =>
      exact ⟨hjournal, hnext, hroutes, DnsStore.Only.refl _ _, fun h => (by cases h)⟩
  | ok _ =>
      obtain ⟨honly, hdns⟩ := setUpDns_spec messages entries interface host.store
      exact ⟨hjournal, hnext, hroutes, honly, fun hok =>
        ⟨hholds rfl, hinstalled rfl, hdns hok, hjournal⟩⟩

/-- The guarantees of `configure`. -/
structure Sound (messages : Messages) (requests : List (Except IoError Snapshot))
    (entries : Option (List String × List String)) (interface : String) (initial : Table)
    (host : Host) (result : Except String SessionRoutes) (after : Host) : Prop where
  store : DnsStore.Only (resolverKeys interface) host.store after.store
  others : ∀ k, (∀ route, .ok route ∈ requests → route.key ≠ .ok k) →
    after.kernel.table.get k = initial.get k
  failure : ∀ error, result = .error error → Undone initial interface after ∨
    ∃ setupError cleanupError, error = setupError ++ "; cleanup failed: " ++ cleanupError
  success : ∀ routes, result = .ok routes →
    Configured requests entries interface initial routes after ∧
      ∀ later, later.kernel.Honest →
        Ended initial routes interface later (cleanup messages routes interface later).1
          (cleanup messages routes interface later).2 ∧
        (later.kernel.Answers → later.store.Works →
          Kernel.Keeps after.kernel later.kernel →
          (cleanup messages routes interface later).1 = .ok ())

theorem notMem_keys_of_requests {changes : List RouteChange} {k : RouteKey} {w : Kernel}
    (hjournal : Journalled initial changes w)
    (hroutes : ∀ c ∈ changes, .ok c.route ∈ requests)
    (hk : ∀ route, .ok route ∈ requests → route.key ≠ .ok k) :
    k ∉ changes.map RouteChange.key := by
  intro hmem
  obtain ⟨c, hc, rfl⟩ := List.mem_map.mp hmem
  exact hk c.route (hroutes c hc) (hjournal.valid c hc).key

theorem configure_sound (messages : Messages) (entries : Option (List String × List String))
    (interface : String) (hstart : Journalled initial SessionRoutes.new.changes host.kernel)
    (hhonest : host.kernel.Honest)
    (hrequests : ∀ route, .ok route ∈ requests → IsRequest route) :
    Sound messages requests entries interface initial host
      (configure messages requests entries interface host).1
      (configure messages requests entries interface host).2 := by
  unfold configure
  have hspec := setUp_spec messages entries interface hstart hhonest hrequests
  rcases hsetup : setUp messages requests entries interface host with ⟨result, routes, next⟩
  rw [hsetup] at hspec
  obtain ⟨hjournal, hnext, hroutes, honly, hconfigured⟩ := hspec
  cases result with
  | ok _ =>
      have hdone := hconfigured rfl
      refine ⟨honly, fun k hk => ?_, fun e h => (by cases h), fun routes' hok => ?_⟩
      · exact hjournal.untouched k (notMem_keys_of_requests hjournal hroutes hk)
      · cases hok
        refine ⟨hdone, fun later hlater => ⟨?_, fun hanswers hworks hkeeps => ?_⟩⟩
        · exact cleanup_ended hjournal (fun c hc => (hdone.installed c hc).1) hlater
        · exact cleanup_of_works (hjournal.keeps hkeeps) hanswers hworks
  | error setupError =>
      simp only
      have hundone := cleanup_undone messages interface hjournal hnext
      have hclear := (clearDnsEntries_spec messages.errorString next.store interface).1
      obtain ⟨errors, hrestored, _⟩ := SessionRoutes.restoreWith_restoredAll messages.strerror
        hnext hjournal.nodup hjournal.valid
      have hothers : ∀ k, (∀ route, .ok route ∈ requests → route.key ≠ .ok k) →
          (cleanup messages routes interface next).2.kernel.table.get k = initial.get k := by
        intro k hk
        have hnot := notMem_keys_of_requests hjournal hroutes hk
        exact (hrestored.frame k hnot).trans (hjournal.untouched k hnot)
      have hstore : DnsStore.Only (resolverKeys interface) host.store
          (cleanup messages routes interface next).2.store := honly.trans hclear
      rcases hcleanup : cleanup messages routes interface next with ⟨cleaned, final⟩
      rw [hcleanup] at hundone hothers hstore
      cases cleaned with
      | ok _ =>
          exact ⟨hstore, hothers, fun _ _ => Or.inl (hundone rfl), fun _ h => (by cases h)⟩
      | error cleanupError =>
          refine ⟨hstore, hothers, fun error herror => ?_, fun _ h => (by cases h)⟩
          exact Or.inr ⟨setupError, cleanupError, (Except.error.inj herror).symm⟩

/-- `configure_session` on macOS, with failures of the routing table and of the dynamic
store at any call, where the answer `ESRCH` means that the route is gone.  It touches nothing
but its own entries; an error that says nothing of a clean-up leaves the routes as they were
and the keys of the store free; and a hook that reports success has put back every route that
the session holds, whatever others have done to the table since. -/
theorem macos_session_undone (messages : Messages) (ifNametoindex : String → Nat)
    (lastOsError : IoError) (newManager : Except String Unit) (display : IpAddr → String)
    (config : TunSessionConfig) (interface : String) (endpointRoutes : List EndpointRoute)
    (initial : Table) (faults : List (Option Fault)) (lookups : List (Option IoError))
    (store : DnsStore)
    (hhonest : ∀ fault, some fault ∈ faults → fault.error = .os esrch → fault.effective = true)
    (haddressed : ∀ route ∈ endpointRoutes, route.IsAddressed) :
    (∀ error, newManager = .error error →
      configureSession messages ifNametoindex lastOsError newManager display config interface
          endpointRoutes ⟨.start initial faults lookups, store⟩ =
        (.error ("route manager: " ++ error), ⟨.start initial faults lookups, store⟩)) ∧
      (newManager = .ok () →
        Sound messages
          (SessionRoutes.requests ifNametoindex lastOsError (filteredRoutes config interface)
            endpointRoutes)
          (dnsEntries display config) interface initial ⟨.start initial faults lookups, store⟩
          (configureSession messages ifNametoindex lastOsError newManager display config interface
            endpointRoutes ⟨.start initial faults lookups, store⟩).1
          (configureSession messages ifNametoindex lastOsError newManager display config interface
            endpointRoutes ⟨.start initial faults lookups, store⟩).2) := by
  refine ⟨?_, ?_⟩
  · rintro error rfl
    rfl
  · rintro rfl
    exact configure_sound messages (dnsEntries display config) interface
      (journalled_start initial faults lookups) hhonest
      (SessionRoutes.isRequest_of_mem_requests haddressed)

/-- A session that captures everything and has a name server of its own. -/
def resolving : TunSessionConfig where
  interfaceName := "utun7"
  mtu := 1420
  addresses := []
  peerAllowedIps := [{ ip := some { value := some (.v4 [0, 0, 0, 0]) }, prefixLen := 0 }]
  peerEndpoints := []
  dns := some { servers := [{ value := some (.v4 [10, 0, 0, 53]) }], searchDomains := ["corp"] }

/-- The store fails when the entries are set, and has set one of them. -/
def halfSet : DnsStore where
  values := fun _ => none
  opens := []
  reads := []
  sets := [some { status := 1002, applied := [dnsKey "utun7"] }]
  removals := []

def silent : Messages := { strerror := fun _ => "", errorString := fun _ => none }

/-- The kernel deletes the route of the session and answers that there was none. -/
def lateAnswer : List (Option Fault) :=
  [none, none, some { error := .os esrch, effective := true }]

def resolved : Except String SessionRoutes × Host :=
  configureSession silent (fun _ => 7) (.os 6) (.ok ()) (fun _ => "10.0.0.53") resolving "utun7"
    [] ⟨.start SessionRoutes.lanTable lateAnswer [], halfSet⟩

/-- The default route is deleted and replaced, the store fails, and the host is as before. -/
theorem macos_session_undone_halfSet :
    Sound silent SessionRoutes.captureAll (some (["10.0.0.53"], ["corp"])) "utun7"
        SessionRoutes.lanTable ⟨.start SessionRoutes.lanTable lateAnswer [], halfSet⟩ resolved.1
        resolved.2 ∧
      resolved.1.map (fun _ => ()) =
        .error "set DNS entries: unknown error (SystemConfiguration 1002)" ∧
      resolved.2.kernel.effects = [(.delete, SessionRoutes.defaultKey),
        (.add, SessionRoutes.defaultKey), (.delete, SessionRoutes.defaultKey),
        (.add, SessionRoutes.defaultKey)] ∧
      resolved.2.store.values (dnsKey "utun7") = none := by
  have hhonest : ∀ fault, some fault ∈ lateAnswer → fault.error = .os esrch →
      fault.effective = true := by
    intro fault hfault _
    have hlast : fault = { error := .os esrch, effective := true } := by
      simpa [lateAnswer] using hfault
    rw [hlast]
  refine ⟨?_, by decide +kernel, by decide +kernel, by decide +kernel⟩
  exact (macos_session_undone silent (fun _ => 7) (.os 6) (.ok ()) (fun _ => "10.0.0.53")
    resolving "utun7" [] SessionRoutes.lanTable lateAnswer [] halfSet hhonest
    (fun _ h => by cases h)).2 rfl

end Host

end Macos
end Daemon
end WgKotlin
