import WgKotlin.Daemon.KernelRoutes
import WgKotlin.Library.Calls

/-!
# Setting a session up and taking it down

`configure_session` of Linux and Windows, with `add_routes_with_predelete`,
`cleanup_routes` and `into_cleanup_hook` of `platform/mod.rs`.  They are programs
over the calls that they make to the kernel and to the tools for the DNS: any call
can fail, and the calls of two sessions can mix.

A setup that fails takes back every route of its request, whether or not it got
to install it, and the hook of a setup that succeeds does the same later.
-/

namespace WgKotlin
namespace Daemon

open Proto Library

/-- Where an entry of the table leads. -/
inductive TableEntry (η : Type) where
  | tun (ifName : Option String)
  | outside (hop : η)
  deriving DecidableEq

namespace Platform

variable (platform : Platform)

abbrev Table := TableKey → Option (TableEntry platform.NextHop)

/-- The host routes are in the table, each with its own next hop. -/
def Holds (routes : List platform.EndpointRoute) (table : platform.Table) : Prop :=
  ∀ route ∈ routes, table (platform.endpointKey route) = some (.outside (platform.nextHop route))

inductive Call where
  /-- `RouteManager::new` -/
  | newManager
  /-- `EndpointRoute::replace` -/
  | replace (route : platform.EndpointRoute)
  /-- `EndpointRoute::delete` -/
  | deleteEndpoint (route : platform.EndpointRoute)
  /-- `RouteManager::add` -/
  | add (route : Route)
  /-- `RouteManager::delete` -/
  | delete (route : Route)
  | dns (call : DnsCall)

abbrev Program := Prog platform.Call (Except String Unit)

abbrev CleanupHook := platform.Program (Except String Unit)

end Platform

variable {platform : Platform}

namespace Platform.Call

/-- The entry that a call sets when it succeeds. -/
def change : platform.Call → Option (TableKey × Option (TableEntry platform.NextHop))
  | .replace route => some (platform.endpointKey route, some (.outside (platform.nextHop route)))
  | .deleteEndpoint route => some (platform.endpointKey route, none)
  | .add route => some (platform.tunKey route, some (.tun route.ifName))
  | .delete route => some (platform.tunKey route, none)
  | .newManager | .dns _ => none

def apply (call : platform.Call) (answer : Except String Unit) (table : platform.Table) :
    platform.Table :=
  match call.change, answer with
  | some (key, entry), .ok _ => Function.update table key entry
  | _, _ => table

end Platform.Call

/-! ### The programs -/

/-- One call whose failure ends the caller. -/
def attempt (call : platform.Call) (describe : String → String) :
    ExceptT String platform.Program Unit :=
  ExceptT.mk do
    let answer ← Prog.ask call
    pure (answer.mapError describe)

/-- An earlier entry of a TUN route goes first; it need not exist. -/
def addRoute (route : Route) : ExceptT String platform.Program Unit := do
  let _ ← ExceptT.lift (Prog.ask (.delete route))
  attempt (.add route) ("failed to add route: " ++ ·)

def addRoutesWithPredelete (filteredRoutes : List Route)
    (endpointRoutes : List platform.EndpointRoute) : ExceptT String platform.Program Unit := do
  endpointRoutes.forM fun route =>
    attempt (.replace route) ("failed to add endpoint route: " ++ ·)
  filteredRoutes.forM addRoute

def runDns (calls : List DnsCall) : ExceptT String platform.Program Unit :=
  calls.forM fun call => attempt (.dns call) call.describe

def captureError : Option String → Except String Unit → Option String
  | cleanupError, .ok _ => cleanupError
  | some existing, .error error => some (existing ++ "; " ++ error)
  | none, .error error => some error

/-- Calls that are all made, whatever becomes of them. -/
def captureAll (calls : List platform.Call) (cleanupError : Option String) :
    platform.Program (Option String) :=
  calls.foldlM (fun cleanupError call => do
    let answer ← Prog.ask call
    pure (captureError cleanupError answer)) cleanupError

def cleanupTunRoutes (filteredRoutes : List Route) : platform.Program (Option String) := do
  match ← Prog.ask .newManager with
  | .ok _ => captureAll (filteredRoutes.reverse.map .delete) none
  | .error error => pure (captureError none (.error error))

def cleanupRoutes (filteredRoutes : List Route) (endpointRoutes : List platform.EndpointRoute)
    (dnsTeardown : List DnsCall) : platform.CleanupHook := do
  let cleanupError ← cleanupTunRoutes filteredRoutes
  let cleanupError ← captureAll (endpointRoutes.reverse.map .deleteEndpoint) cleanupError
  let teardown ← (runDns dnsTeardown).run
  match captureError cleanupError teardown with
  | some error => pure (.error error)
  | none => pure (.ok ())

def intoCleanupHook (setupResult : Except String Unit) (filteredRoutes : List Route)
    (endpointRoutes : List platform.EndpointRoute) (dnsTeardown : List DnsCall) :
    platform.Program (Except String platform.CleanupHook) :=
  let cleanup := cleanupRoutes filteredRoutes endpointRoutes dnsTeardown
  match setupResult with
  | .ok _ => pure (.ok cleanup)
  | .error setupError => do
    match ← cleanup with
    | .ok _ => pure (.error setupError)
    | .error cleanupError =>
      pure (.error (setupError ++ "; cleanup failed: " ++ cleanupError))

/-- The closure that makes `setup_result`. -/
def setUp (config : TunSessionConfig) (interfaceName : String) (filteredRoutes : List Route)
    (endpointRoutes : List platform.EndpointRoute) : ExceptT String platform.Program Unit := do
  addRoutesWithPredelete filteredRoutes endpointRoutes
  runDns (platform.dnsSetup config interfaceName)

def configureSession (config : TunSessionConfig) (interfaceName : String)
    (endpointRoutes : List platform.EndpointRoute) :
    platform.Program (Except String platform.CleanupHook) := do
  let manager ← Prog.ask .newManager
  match buildAndFilterRoutes manager config interfaceName endpointRoutes with
  | .error error => pure (.error error)
  | .ok (_, filteredRoutes, endpointRoutes) =>
    let setupResult ← (setUp config interfaceName filteredRoutes endpointRoutes).run
    intoCleanupHook setupResult filteredRoutes endpointRoutes
      (platform.dnsTeardown interfaceName)

/-- What `configure_session` is given: a configuration, the interface that was
made for it and the routes that its endpoints had before. -/
structure SessionSetup (platform : Platform) where
  config : TunSessionConfig
  interfaceName : String
  endpointRoutes : List platform.EndpointRoute
  resolved : endpointRoutes.map platform.destination = endpointIps config

namespace SessionSetup

/-- The setup that the daemon makes of a configuration whose endpoints resolve. -/
def resolve (display : IpAddr → String) (config : TunSessionConfig) (interfaceName : String) :
    Except String (SessionSetup platform) :=
  match h : resolveEndpointRoutes platform.toEndpointLookup display config with
  | .error error => .error error
  | .ok endpointRoutes =>
    .ok { config, interfaceName, endpointRoutes
          resolved := map_destination_resolveEndpointRoutes h }

variable (setup : SessionSetup platform)

def filteredRoutes : List Route := Daemon.filteredRoutes setup.config setup.interfaceName

def configure : platform.Program (Except String platform.CleanupHook) :=
  configureSession setup.config setup.interfaceName setup.endpointRoutes

def cleanup : platform.CleanupHook :=
  cleanupRoutes setup.filteredRoutes setup.endpointRoutes
    (platform.dnsTeardown setup.interfaceName)

/-- The keys of the host routes of its endpoints. -/
def endpointKeys : List TableKey := setup.endpointRoutes.map platform.endpointKey

/-- The keys of all its routes. -/
def keys : List TableKey := setup.filteredRoutes.map platform.tunKey ++ setup.endpointKeys

/-- Every host route of its endpoints is in the table. -/
def Installed (table : platform.Table) : Prop := platform.Holds setup.endpointRoutes table

/-- Endpoint routes of one key lead the same way. -/
def Consistent : Prop :=
  ∀ a ∈ setup.endpointRoutes, ∀ b ∈ setup.endpointRoutes,
    platform.endpointKey a = platform.endpointKey b → platform.nextHop a = platform.nextHop b

end SessionSetup

/-! ### What a call does to the table -/

namespace Platform.Call

variable {call : platform.Call} {table : platform.Table} {key : TableKey}
  {entry : Option (TableEntry platform.NextHop)}

@[simp] theorem apply_error (error : String) : call.apply (.error error) table = table := by
  unfold apply
  split
  · rename_i h
    cases h
  · rfl

theorem apply_ok (h : call.change = some (key, entry)) :
    call.apply (.ok ()) table = Function.update table key entry := by
  unfold apply
  rw [h]

theorem apply_of_change_eq_none (h : call.change = none) (answer : Except String Unit) :
    call.apply answer table = table := by
  unfold apply
  rw [h]

/-- The entry of any other key stays. -/
theorem apply_of_ne (h : ∀ other entry, call.change = some (other, entry) → other ≠ key)
    (answer : Except String Unit) : call.apply answer table key = table key := by
  cases answer with
  | error error => rw [apply_error]
  | ok u =>
      cases hchange : call.change with
      | none => rw [apply_of_change_eq_none hchange]
      | some change =>
          rw [apply_ok hchange]
          exact Function.update_of_ne (h _ _ hchange).symm _ _

/-- The entry after a call depends on the entry before it only. -/
theorem apply_congr {other : platform.Table} (h : table key = other key)
    (answer : Except String Unit) : call.apply answer table key = call.apply answer other key := by
  cases answer with
  | error error => rw [apply_error, apply_error, h]
  | ok u =>
      cases hchange : call.change with
      | none => rw [apply_of_change_eq_none hchange, apply_of_change_eq_none hchange, h]
      | some change =>
          rw [apply_ok hchange, apply_ok hchange, Function.update_apply, Function.update_apply, h]

/-- The call sets entries of these keys only. -/
def Within (keys : List TableKey) (call : platform.Call) : Prop :=
  ∀ key entry, call.change = some (key, entry) → key ∈ keys

theorem within_of_change {keys : List TableKey} (h : call.change = some (key, entry))
    (hkey : key ∈ keys) : call.Within keys := by
  intro other entry hchange
  rw [h] at hchange
  cases hchange
  exact hkey

theorem within_of_change_eq_none {keys : List TableKey} (h : call.change = none) :
    call.Within keys := by
  intro other entry hchange
  rw [h] at hchange
  cases hchange

end Platform.Call

/-! ### What the programs call -/

/-- Calls for given keys only, whatever the answers. -/
def Platform.callsWithin (platform : Platform) (keys : List TableKey) :
    Contract platform.Call (Except String Unit) Unit where
  effect := fun _ _ state => state
  Allowed := Call.Within keys
  Answer := fun _ => True

/-- Any call, and every call can fail. -/
def Platform.anyAnswer (platform : Platform) :
    Contract platform.Call (Except String Unit) platform.Table where
  effect := Call.apply
  Allowed := fun _ => True
  Answer := fun _ => True

/-- Any call, and every call succeeds. -/
def Platform.allSucceed (platform : Platform) :
    Contract platform.Call (Except String Unit) platform.Table where
  effect := Call.apply
  Allowed := fun _ => True
  Answer := fun answer => answer = .ok ()

section Calls

variable {σ : Type} {C : Contract platform.Call (Except String Unit) σ} {s : σ} {E : Prop}

theorem meets_attempt {call : platform.Call} {describe : String → String}
    {Q : Unit → σ → Prop} {R : String → σ → Prop} (hallowed : C.Allowed call)
    (hok : C.Answer (.ok ()) → Q () (C.effect call (.ok ()) s))
    (herror : ∀ error, C.Answer (.error error) →
      R (describe error) (C.effect call (.error error) s)) :
    (attempt call describe).run.Meets C (Prog.Either Q R) s := by
  refine ⟨hallowed, fun answer hanswer => ?_⟩
  cases answer with
  | ok u => exact hok hanswer
  | error error => exact herror error hanswer

theorem runDns_meets {calls : List DnsCall} {I F : σ → Prop}
    (hdns : ∀ call, C.Keeps I (.dns call))
    (herror : ∀ error s, C.Answer (.error error) → I s → F s) (hstart : I s) :
    (runDns calls).run.Meets C (Prog.Either (fun _ s' => I s') fun _ s' => F s') s := by
  refine Prog.meets_forM (I := fun _ s' => I s') ?_ hstart
  intro done call s _ hs
  obtain ⟨hallowed, hkeeps⟩ := hdns call
  exact meets_attempt hallowed (fun h => hkeeps _ s h hs) fun error h =>
    herror error _ h (hkeeps _ s h hs)

theorem addRoute_meets {route : Route} {I : σ → Prop} (hdelete : C.Keeps I (.delete route))
    (hadd : C.Keeps I (.add route)) (herror : ∀ error, C.Answer (.error error) → E)
    (hstart : I s) :
    (addRoute route).run.Meets C (Prog.Either (fun _ s' => I s') fun _ _ => E) s := by
  refine Prog.meets_tryBind (Q := fun _ s' => I s')
    ⟨hdelete.1, fun answer hanswer => hdelete.2 answer s hanswer hstart⟩ fun _ s' hs => ?_
  exact meets_attempt hadd.1 (fun h => hadd.2 _ _ h hs) fun error h => herror error h

/-- How a setup ends: with what its endpoint routes have made true and no later
call breaks, or with an error if some call can fail. -/
theorem setUp_meets {config : TunSessionConfig} {interfaceName : String}
    {filteredRoutes : List Route} {endpointRoutes : List platform.EndpointRoute}
    {I : List platform.EndpointRoute → σ → Prop}
    (hreplace : ∀ route ∈ endpointRoutes, C.Allowed (.replace route))
    (hI : ∀ done route s, done ++ [route] ⊆ endpointRoutes → I done s →
      I (done ++ [route]) (C.effect (.replace route) (.ok ()) s))
    (hdelete : ∀ route ∈ filteredRoutes, C.Keeps (I endpointRoutes) (.delete route))
    (hadd : ∀ route ∈ filteredRoutes, C.Keeps (I endpointRoutes) (.add route))
    (hdns : ∀ call, C.Keeps (I endpointRoutes) (.dns call))
    (herror : ∀ error, C.Answer (.error error) → E) (hstart : I [] s) :
    (setUp config interfaceName filteredRoutes endpointRoutes).run.Meets C
      (Prog.Either (fun _ s' => I endpointRoutes s') fun _ _ => E) s := by
  have hendpoints : (endpointRoutes.forM fun route =>
      attempt (.replace route) ("failed to add endpoint route: " ++ ·)).run.Meets C
      (Prog.Either (fun _ s' => I endpointRoutes s') fun _ _ => E) s := by
    refine Prog.meets_forM (fun done route s hdone hs => ?_) hstart
    have hroute : route ∈ endpointRoutes := hdone List.mem_concat_self
    exact meets_attempt (hreplace route hroute) (fun _ => hI done route s hdone hs)
      fun error h => herror error h
  have hadded : (addRoutesWithPredelete filteredRoutes endpointRoutes).run.Meets C
      (Prog.Either (fun _ s' => I endpointRoutes s') fun _ _ => E) s := by
    refine Prog.meets_tryBind hendpoints fun _ s hs => ?_
    refine Prog.meets_forM (I := fun _ s' => I endpointRoutes s') ?_ hs
    intro _ route s hdone hs
    have hroute : route ∈ filteredRoutes := hdone List.mem_concat_self
    exact addRoute_meets (hdelete route hroute) (hadd route hroute) herror hs
  exact Prog.meets_tryBind hadded fun _ s hs =>
    runDns_meets hdns (fun error _ h _ => herror error h) hs

theorem captureAll_meets {calls : List platform.Call} {cleanupError : Option String}
    {I : List platform.Call → σ → Prop} (hallowed : ∀ call ∈ calls, C.Allowed call)
    (hI : ∀ done call answer s, call ∈ calls → C.Answer answer → I done s →
      I (done ++ [call]) (C.effect call answer s)) (hstart : I [] s) :
    (captureAll calls cleanupError).Meets C (fun _ s' => I calls s') s := by
  refine Prog.meets_foldlM (I := fun done _ s' => I done s') ?_ hstart
  intro done call cleanupError s hdone hs
  have hcall : call ∈ calls := hdone List.mem_concat_self
  refine Prog.meets_bind.mpr ⟨hallowed call hcall, fun answer hanswer => ?_⟩
  exact hI done call answer s hcall hanswer hs

theorem cleanupTunRoutes_meets {filteredRoutes : List Route}
    (hmanager : C.Allowed .newManager)
    (hdelete : ∀ route ∈ filteredRoutes, C.Allowed (.delete route)) :
    (cleanupTunRoutes filteredRoutes).Meets C (fun _ _ => True) s := by
  refine Prog.meets_bind.mpr ⟨hmanager, fun answer _ => ?_⟩
  cases answer with
  | error error => exact trivial
  | ok u =>
      refine captureAll_meets (I := fun _ _ => True) ?_ (fun _ _ _ _ _ _ _ => trivial) trivial
      intro call hcall
      obtain ⟨route, hroute, rfl⟩ := List.mem_map.mp hcall
      exact hdelete route (List.mem_reverse.mp hroute)

/-- The hook takes down the TUN routes, the endpoint routes and the DNS in turn. -/
theorem cleanupRoutes_meets {filteredRoutes : List Route}
    {endpointRoutes : List platform.EndpointRoute} {dnsTeardown : List DnsCall} {I J : σ → Prop}
    (htun : (cleanupTunRoutes filteredRoutes).Meets C (fun _ s' => I s') s)
    (hendpoints : ∀ cleanupError s, I s →
      (captureAll (endpointRoutes.reverse.map .deleteEndpoint) cleanupError).Meets C
        (fun _ s' => J s') s)
    (hdns : ∀ call, C.Keeps J (.dns call)) :
    (cleanupRoutes filteredRoutes endpointRoutes dnsTeardown).Meets C (fun _ s' => J s') s := by
  refine Prog.meets_bind.mpr (htun.mono fun cleanupError s hI => ?_)
  refine Prog.meets_bind.mpr ((hendpoints cleanupError s hI).mono fun cleanupError s hJ => ?_)
  have hteardown : (runDns dnsTeardown).run.Meets C
      (Prog.Either (fun _ s' => J s') fun _ s' => J s') s :=
    runDns_meets hdns (fun _ _ _ h => h) hJ
  refine Prog.meets_bind.mpr (hteardown.mono fun teardown s hr => ?_)
  have hs : J s := by
    cases teardown with
    | ok u => exact hr
    | error error => exact hr
  cases captureError cleanupError teardown with
  | none => exact hs
  | some error => exact hs

end Calls

namespace SessionSetup

variable {setup : SessionSetup platform}

theorem tunKey_mem_keys {route : Route} (h : route ∈ setup.filteredRoutes) :
    platform.tunKey route ∈ setup.keys :=
  List.mem_append_left _ (List.mem_map_of_mem h)

theorem endpointKey_mem_keys {route : platform.EndpointRoute} (h : route ∈ setup.endpointRoutes) :
    platform.endpointKey route ∈ setup.keys :=
  List.mem_append_right _ (List.mem_map_of_mem h)

/-- A TUN route is never filed under the key of an endpoint of the same session. -/
theorem tunKey_ne_endpointKey {t : Route} (ht : t ∈ setup.filteredRoutes)
    {e : platform.EndpointRoute} (he : e ∈ setup.endpointRoutes) :
    platform.tunKey t ≠ platform.endpointKey e := by
  intro h
  obtain ⟨hdestination, hhost⟩ := platform.host_of_tunKey_eq h
  refine keepsRoute_iff.mp (List.mem_filter.mp ht).2 hhost ?_
  rw [hdestination, ← setup.resolved]
  exact List.mem_map_of_mem he

/-- One lookup answers for one address, so a resolved setup is consistent. -/
theorem consistent_of_resolve {display : IpAddr → String} {config : TunSessionConfig}
    {interfaceName : String} (h : resolve display config interfaceName = .ok setup) :
    setup.Consistent := by
  unfold resolve at h
  split at h
  · cases h
  · rename_i endpointRoutes hresolve
    cases h
    have hlookup : ∀ route ∈ endpointRoutes,
        platform.lookup (platform.destination route) = .ok route := by
      intro route hroute
      obtain ⟨addr, _, haddr⟩ := exists_left_of_forall₂ (mapAll_eq_ok.mp hresolve) hroute
      obtain ⟨ip, _, hip⟩ := resolveEndpoint_eq_ok.mp haddr
      rw [platform.lookup_destination hip]
      exact hip
    intro a ha b hb hkey
    have hsame : platform.destination a = platform.destination b :=
      congrArg TableKey.destination hkey
    have ha' := hlookup a ha
    rw [hsame, hlookup b hb] at ha'
    cases ha'
    rfl

/-- A setup ends with the hook that takes all its routes down, or with an error
after having taken them down itself. -/
theorem configure_meets {σ : Type} {C : Contract platform.Call (Except String Unit) σ} {s : σ}
    {P : σ → Prop} {E : Prop} (hmanager : C.Allowed .newManager)
    (herror : ∀ error, C.Answer (.error error) → E)
    (hsetUp : ∀ s, (setUp setup.config setup.interfaceName setup.filteredRoutes
      setup.endpointRoutes).run.Meets C (Prog.Either (fun _ s' => P s') fun _ _ => E) s)
    (hcleanup : E → ∀ s, setup.cleanup.Meets C (fun _ _ => True) s) :
    setup.configure.Meets C
      (Prog.Either (fun hook s' => hook = setup.cleanup ∧ P s') fun _ _ => E) s := by
  refine Prog.meets_bind.mpr ⟨hmanager, fun answer hanswer => ?_⟩
  cases answer with
  | error error => exact herror error hanswer
  | ok manager =>
      refine Prog.meets_bind.mpr ((hsetUp _).mono fun setupResult s hr => ?_)
      cases setupResult with
      | ok u => exact ⟨rfl, hr⟩
      | error setupError =>
          refine Prog.meets_bind.mpr ((hcleanup hr s).mono fun result s _ => ?_)
          cases result with
          | ok u => exact hr
          | error cleanupError => exact hr

open Platform.Call

/-- The hook sets entries of its own session only. -/
theorem cleanup_within :
    setup.cleanup.Meets (platform.callsWithin setup.keys) (fun _ _ => True) () := by
  refine cleanupRoutes_meets (I := fun _ => True) ?_ ?_ fun call =>
    ⟨within_of_change_eq_none rfl, fun _ _ _ h => h⟩
  · exact cleanupTunRoutes_meets (within_of_change_eq_none rfl) fun route h =>
      within_of_change rfl (tunKey_mem_keys h)
  · intro cleanupError s _
    refine captureAll_meets (I := fun _ _ => True) ?_ (fun _ _ _ _ _ _ h => h) trivial
    intro call hcall
    obtain ⟨route, hroute, rfl⟩ := List.mem_map.mp hcall
    exact within_of_change rfl (endpointKey_mem_keys (List.mem_reverse.mp hroute))

/-- So does the setup. -/
theorem configure_within :
    setup.configure.Meets (platform.callsWithin setup.keys)
      (Prog.Either (fun hook _ => hook = setup.cleanup) fun _ _ => True) () := by
  have hmeets : setup.configure.Meets (platform.callsWithin setup.keys)
      (Prog.Either (fun hook _ => hook = setup.cleanup ∧ True) fun _ _ => True) () := by
    refine configure_meets (P := fun _ => True) (within_of_change_eq_none rfl)
      (fun _ _ => trivial) (fun s => ?_) fun _ _ => cleanup_within
    refine setUp_meets (I := fun _ _ => True) (fun route h => ?_) (fun _ _ _ _ h => h)
      (fun route h => ⟨?_, fun _ _ _ h => h⟩) (fun route h => ⟨?_, fun _ _ _ h => h⟩)
      (fun call => ⟨within_of_change_eq_none rfl, fun _ _ _ h => h⟩) (fun _ _ => trivial) trivial
    · exact within_of_change rfl (endpointKey_mem_keys h)
    · exact within_of_change rfl (tunKey_mem_keys h)
    · exact within_of_change rfl (tunKey_mem_keys h)
  exact hmeets.mono fun _ _ h => h.mono fun _ h => h.1

/-! ### What the programs leave -/

/-- A call for the TUN or for the DNS leaves the endpoint routes alone. -/
theorem keeps_installed {call : platform.Call}
    (h : ∀ key entry, call.change = some (key, entry) →
      ∀ route ∈ setup.endpointRoutes, key ≠ platform.endpointKey route) :
    platform.anyAnswer.Keeps setup.Installed call := by
  refine ⟨trivial, fun answer table _ hinstalled route hroute => ?_⟩
  have hsame : call.apply answer table (platform.endpointKey route) =
      table (platform.endpointKey route) :=
    apply_of_ne (fun other entry hchange => h other entry hchange route hroute) answer
  exact hsame.trans (hinstalled route hroute)

/-- The next endpoint route does not undo the ones before it. -/
theorem installed_replace (hconsistent : setup.Consistent)
    {done : List platform.EndpointRoute} {route : platform.EndpointRoute}
    {table : platform.Table} (hdone : done ++ [route] ⊆ setup.endpointRoutes)
    (hinstalled : platform.Holds done table) :
    platform.Holds (done ++ [route]) (Platform.Call.apply (.replace route) (.ok ()) table) := by
  intro e he
  have hchange : (Platform.Call.replace route).change =
      some (platform.endpointKey route, some (.outside (platform.nextHop route))) := rfl
  rw [apply_ok hchange, Function.update_apply]
  by_cases hkey : platform.endpointKey e = platform.endpointKey route
  · have hhop : platform.nextHop e = platform.nextHop route :=
      hconsistent e (hdone he) route (hdone List.mem_concat_self) hkey
    rw [if_pos hkey, hhop]
  · rw [if_neg hkey]
    rcases List.mem_append.mp he with he | he
    · exact hinstalled e he
    · rw [List.mem_singleton.mp he] at hkey
      exact absurd rfl hkey

/-- A setup that succeeds has installed its endpoint routes. -/
theorem configure_installs (hconsistent : setup.Consistent) (table : platform.Table) :
    setup.configure.Meets platform.anyAnswer
      (Prog.Either (fun hook table => hook = setup.cleanup ∧ setup.Installed table)
        fun _ _ => True) table := by
  refine configure_meets trivial (fun _ _ => trivial) (fun table => ?_) fun _ _ =>
    Prog.meets_always (fun _ => trivial) fun _ _ => trivial
  refine setUp_meets (I := platform.Holds) (fun _ _ => trivial)
    (fun done route table => installed_replace hconsistent)
    (fun route h => keeps_installed ?_) (fun route h => keeps_installed ?_)
    (fun call => keeps_installed ?_) (fun _ _ => trivial) fun e he => (by cases he)
  · intro key entry hchange e he
    cases hchange
    exact tunKey_ne_endpointKey h he
  · intro key entry hchange e he
    cases hchange
    exact tunKey_ne_endpointKey h he
  · intro key entry hchange
    cases hchange

/-- If no call fails, neither does the setup. -/
theorem configure_succeeds (table : platform.Table) :
    setup.configure.Meets platform.allSucceed
      (Prog.Either (fun hook _ => hook = setup.cleanup) fun _ _ => False) table := by
  have hmeets : setup.configure.Meets platform.allSucceed
      (Prog.Either (fun hook _ => hook = setup.cleanup ∧ True) fun _ _ => False) table := by
    refine configure_meets (P := fun _ => True) trivial (fun _ h => (by cases h))
      (fun table => ?_) fun h => h.elim
    exact setUp_meets (I := fun _ _ => True) (fun _ _ => trivial) (fun _ _ _ _ h => h)
      (fun _ _ => ⟨trivial, fun _ _ _ h => h⟩) (fun _ _ => ⟨trivial, fun _ _ _ h => h⟩)
      (fun _ => ⟨trivial, fun _ _ _ h => h⟩) (fun _ h => (by cases h)) trivial
  exact hmeets.mono fun _ _ h => h.mono fun _ h => h.1

/-- Calls that remove entries, one of them that of `key`, leave no entry of `key`. -/
theorem captureAll_clears {calls : List platform.Call} {cleanupError : Option String}
    {key : TableKey} {table : platform.Table} {P : Prop}
    (hcalls : ∀ call ∈ calls, ∃ other, call.change = some (other, none))
    (hstart : P → table key = none) :
    (captureAll calls cleanupError).Meets platform.allSucceed
      (fun _ table => P ∨ (∃ call ∈ calls, call.change = some (key, none)) → table key = none)
      table := by
  refine captureAll_meets (I := fun done (table : platform.Table) =>
    P ∨ (∃ call ∈ done, call.change = some (key, none)) → table key = none)
    (fun _ _ => trivial) ?_ ?_
  · intro done call answer table hcall hanswer hI h
    obtain ⟨other, hchange⟩ := hcalls call hcall
    cases hanswer
    show call.apply (.ok ()) table key = none
    rw [apply_ok hchange, Function.update_apply]
    split
    · rfl
    · rename_i hne
      refine hI (h.imp_right ?_)
      intro hdone
      obtain ⟨c, hc, hkey⟩ := hdone
      refine ⟨c, (List.mem_append.mp hc).resolve_right fun hlast => hne ?_, hkey⟩
      rw [List.mem_singleton.mp hlast, hchange] at hkey
      cases hkey
      rfl
  · intro h
    refine hstart (h.resolve_right ?_)
    intro hnone
    obtain ⟨c, hc, _⟩ := hnone
    cases hc

/-- If no call fails, the hook leaves no entry of the session. -/
theorem cleanup_clears {key : TableKey} (hkey : key ∈ setup.keys) (table : platform.Table) :
    setup.cleanup.Meets platform.allSucceed (fun _ table => table key = none) table := by
  refine cleanupRoutes_meets
    (I := fun table => key ∈ setup.filteredRoutes.map platform.tunKey → table key = none) ?_ ?_
    fun call => ⟨trivial, fun answer table _ h => ?_⟩
  · refine Prog.meets_bind.mpr ⟨trivial, fun answer hanswer => ?_⟩
    cases hanswer
    refine (captureAll_clears (P := False) ?_ False.elim).mono fun _ table h hmem => h (.inr ?_)
    · intro call hcall
      obtain ⟨route, _, rfl⟩ := List.mem_map.mp hcall
      exact ⟨_, rfl⟩
    · obtain ⟨route, hroute, rfl⟩ := List.mem_map.mp hmem
      exact ⟨.delete route, List.mem_map_of_mem (List.mem_reverse.mpr hroute), rfl⟩
  · intro cleanupError table hI
    refine (captureAll_clears ?_ hI).mono fun _ table h =>
      h ((List.mem_append.mp hkey).imp_right ?_)
    · intro call hcall
      obtain ⟨route, _, rfl⟩ := List.mem_map.mp hcall
      exact ⟨_, rfl⟩
    · intro hmem
      obtain ⟨route, hroute, rfl⟩ := List.mem_map.mp hmem
      exact ⟨.deleteEndpoint route, List.mem_map_of_mem (List.mem_reverse.mpr hroute), rfl⟩
  · have hsame : (Platform.Call.dns call).apply answer table = table :=
      apply_of_change_eq_none rfl answer
    exact (congrFun hsame key).trans h

end SessionSetup

end Daemon
end WgKotlin
