import WgKotlin.Daemon.ConfigureSession
import WgKotlin.Library.Run

/-!
# Sessions that share the table of the kernel

Any number of sessions, each on its own thread: a session is set up, it is active
if the setup succeeded, and it can then be closed.  The calls of all sessions mix
in any order and each of them can fail.

An entry of the table has no owner.  What a session takes down is what it asked
for, so the endpoint routes of a session outlive the others if and only if no
other session asks for one of their keys.
-/

namespace WgKotlin
namespace Daemon

open Proto Library

variable {platform : Platform}

/-- How the thread of a session has ended, for now or for good. -/
inductive Outcome (platform : Platform) where
  | active (hook : platform.CleanupHook)
  | failed (error : String)
  | cleaned (result : Except String Unit)

def Outcome.ofSetup : Except String platform.CleanupHook → Outcome platform
  | .ok hook => .active hook
  | .error error => .failed error

inductive Phase (platform : Platform) where
  | waiting
  | running (rest : platform.Program (Outcome platform))

namespace Phase

def isActive : Phase platform → Bool
  | .running (.ret (.active _)) => true
  | _ => false

/-- The setup has failed or the hook has returned. -/
def isOver : Phase platform → Bool
  | .running (.ret (.failed _)) => true
  | .running (.ret (.cleaned _)) => true
  | _ => false

end Phase

/-- The thread that sets a session up. -/
def SessionSetup.configureThread (setup : SessionSetup platform) :
    platform.Program (Outcome platform) := do
  let result ← setup.configure
  pure (.ofSetup result)

/-- The thread that runs a hook. -/
def cleanupThread (hook : platform.CleanupHook) : platform.Program (Outcome platform) := do
  let result ← hook
  pure (.cleaned result)

inductive Event where
  | start
  | answer (result : Except String Unit)
  | close

structure SharedTable (ι : Type) (platform : Platform) where
  table : platform.Table
  phase : ι → Phase platform

namespace SharedTable

variable {ι : Type} [DecidableEq ι]

def initial (table : platform.Table) : SharedTable ι platform :=
  { table := table, phase := fun _ => .waiting }

def enter (s : SharedTable ι platform) (i : ι) (phase : Phase platform) :
    SharedTable ι platform :=
  { s with phase := Function.update s.phase i phase }

/-- One session starts, has its call answered or is closed. -/
def move (setups : ι → SessionSetup platform) (s : SharedTable ι platform) (i : ι)
    (event : Event) : Option (SharedTable ι platform) :=
  match s.phase i, event with
  | .waiting, .start => some (s.enter i (.running (setups i).configureThread))
  | .running (.call call rest), .answer result =>
    some ({ s with table := call.apply result s.table }.enter i (.running (rest result)))
  | .running (.ret (.active hook)), .close => some (s.enter i (.running (cleanupThread hook)))
  | _, _ => none

def step (setups : ι → SessionSetup platform) (s : SharedTable ι platform)
    (label : ι × Event) : Option (SharedTable ι platform) :=
  s.move setups label.1 label.2

variable {setups : ι → SessionSetup platform} {s s' : SharedTable ι platform} {i j : ι}
  {event : Event}

@[simp] theorem enter_table (phase : Phase platform) : (s.enter i phase).table = s.table := rfl

@[simp] theorem enter_phase (phase : Phase platform) : (s.enter i phase).phase i = phase := by
  simp [enter]

theorem enter_phase_of_ne (phase : Phase platform) (h : j ≠ i) :
    (s.enter i phase).phase j = s.phase j := by
  simp [enter, h]

/-- What a session can do. -/
inductive Moves (setups : ι → SessionSetup platform) (s : SharedTable ι platform) (i : ι) :
    Event → SharedTable ι platform → Prop
  | start (h : s.phase i = .waiting) :
      Moves setups s i .start (s.enter i (.running (setups i).configureThread))
  | answer {call : platform.Call}
      {rest : Except String Unit → platform.Program (Outcome platform)}
      (h : s.phase i = .running (.call call rest)) (result : Except String Unit) :
      Moves setups s i (.answer result)
        ({ s with table := call.apply result s.table }.enter i (.running (rest result)))
  | close {hook : platform.CleanupHook} (h : s.phase i = .running (.ret (.active hook))) :
      Moves setups s i .close (s.enter i (.running (cleanupThread hook)))

theorem moves_of_step {label : ι × Event} (h : step setups s label = some s') :
    Moves setups s label.1 label.2 s' := by
  obtain ⟨i, event⟩ := label
  unfold step move at h
  dsimp only at h
  split at h
  · rename_i hphase
    cases h
    exact .start hphase
  · rename_i hphase
    cases h
    exact .answer hphase _
  · rename_i hphase
    cases h
    exact .close hphase
  · cases h

theorem step_of_moves (h : Moves setups s i event s') : step setups s (i, event) = some s' := by
  cases h with
  | start h => simp only [step, move, h]
  | answer h result => simp only [step, move, h]
  | close h => simp only [step, move, h]

end SharedTable

/-! ### What the thread of a session will still do -/

namespace Phase

/-- It will set entries of its own session only, and the hook it leaves is the
cleanup of its setup. -/
def Within (setup : SessionSetup platform) : Phase platform → Prop
  | .waiting => True
  | .running rest => rest.Meets (platform.callsWithin setup.keys)
      (fun outcome _ => ∀ hook, outcome = .active hook → hook = setup.cleanup) ()

/-- If it leaves the session active, then with its endpoint routes. -/
def Installs (setup : SessionSetup platform) (table : platform.Table) : Phase platform → Prop
  | .waiting => True
  | .running rest => rest.Meets platform.anyAnswer
      (fun outcome table => ∀ hook, outcome = .active hook → setup.Installed table) table

variable {setup : SessionSetup platform} {table : platform.Table}

theorem within_configureThread : (running setup.configureThread).Within setup := by
  refine Prog.meets_bind.mpr (SessionSetup.configure_within.mono fun result _ h hook heq => ?_)
  cases result with
  | ok hook' =>
      cases heq
      exact h
  | error error => cases heq

theorem within_cleanupThread : (running (cleanupThread setup.cleanup)).Within setup :=
  Prog.meets_bind.mpr (SessionSetup.cleanup_within.mono fun _ _ _ _ heq => (by cases heq))

theorem installs_configureThread (h : setup.Consistent) :
    (running setup.configureThread).Installs setup table := by
  refine Prog.meets_bind.mpr ((SessionSetup.configure_installs h table).mono
    fun result table hr hook heq => ?_)
  cases result with
  | ok hook' => exact hr.2
  | error error => cases heq

theorem installs_cleanupThread {hook : platform.CleanupHook} :
    (running (cleanupThread hook)).Installs setup table :=
  Prog.meets_bind.mpr (Prog.meets_always (fun _ => trivial) fun _ _ _ heq => (by cases heq))

theorem Installs.installed {phase : Phase platform} (h : phase.Installs setup table)
    (hactive : phase.isActive = true) : setup.Installed table := by
  cases phase with
  | waiting => cases hactive
  | running rest =>
      cases rest with
      | call call rest => cases hactive
      | ret outcome =>
          cases outcome with
          | active hook => exact h hook rfl
          | failed error => cases hactive
          | cleaned result => cases hactive

/-- Only the entries of the endpoint routes matter. -/
theorem Installs.congr {phase : Phase platform} {other : platform.Table}
    (hother : ∀ key ∈ setup.endpointKeys, table key = other key)
    (h : phase.Installs setup table) : phase.Installs setup other := by
  cases phase with
  | waiting => exact trivial
  | running rest =>
      refine Prog.Meets.congr
        (R := fun table other => ∀ key ∈ setup.endpointKeys, table key = other key)
        ?_ ?_ hother h
      · intro call answer table other hsame key hkey
        exact Platform.Call.apply_congr (hsame key hkey) answer
      · intro outcome table other hsame h hook heq route hroute
        rw [← hsame _ (List.mem_map_of_mem hroute)]
        exact h hook heq route hroute

end Phase

/-- The endpoint routes of a session lead one way for each key, and the other
session has no route of such a key. -/
def SessionSetup.Separate (a b : SessionSetup platform) : Prop :=
  a.Consistent ∧ ∀ key ∈ a.endpointKeys, key ∉ b.keys

/-- In terms of configurations: the other session names none of the endpoints, as an
endpoint of its own or as a host that it sends into its TUN. -/
theorem SessionSetup.separate_of_disjoint {a b : SessionSetup platform}
    {display : IpAddr → String} {config : TunSessionConfig} {interfaceName : String}
    (ha : SessionSetup.resolve display config interfaceName = .ok a)
    (hendpoints : ∀ ip ∈ endpointIps a.config, ip ∉ endpointIps b.config)
    (htun : ∀ route ∈ b.filteredRoutes, route.prefixLen.toNat = route.hostPrefix →
      route.destination ∉ endpointIps a.config) : a.Separate b := by
  refine ⟨consistent_of_resolve ha, fun key hkey hmem => ?_⟩
  obtain ⟨e, he, rfl⟩ := List.mem_map.mp hkey
  have hip : platform.destination e ∈ endpointIps a.config := by
    rw [← a.resolved]
    exact List.mem_map_of_mem he
  rcases List.mem_append.mp hmem with hmem | hmem
  · obtain ⟨route, hroute, heq⟩ := List.mem_map.mp hmem
    obtain ⟨hdestination, hhost⟩ := platform.host_of_tunKey_eq heq
    rw [← hdestination] at hip
    exact htun route hroute hhost hip
  · obtain ⟨route, hroute, heq⟩ := List.mem_map.mp hmem
    have hdestination : platform.destination route = platform.destination e :=
      congrArg TableKey.destination heq
    refine hendpoints _ hip ?_
    rw [← hdestination, ← b.resolved]
    exact List.mem_map_of_mem hroute

namespace SharedTable

variable {ι : Type} [DecidableEq ι] {setups : ι → SessionSetup platform}
  {s s' : SharedTable ι platform} {i j : ι} {event : Event}

/-- What holds along every run for a session `i` that the others keep clear of. -/
structure Guarded (setups : ι → SessionSetup platform) (i : ι) (s : SharedTable ι platform) :
    Prop where
  within : ∀ j, (s.phase j).Within (setups j)
  installs : (s.phase i).Installs (setups i) s.table

theorem within_enter {phase : Phase platform} (h : ∀ j, (s.phase j).Within (setups j))
    (hphase : phase.Within (setups i)) (j : ι) : ((s.enter i phase).phase j).Within (setups j) := by
  by_cases hj : j = i
  · subst hj
    rw [enter_phase]
    exact hphase
  · rw [enter_phase_of_ne phase hj]
    exact h j

/-- Every session keeps to its own routes. -/
theorem within_moves (hmoves : Moves setups s i event s')
    (h : ∀ j, (s.phase j).Within (setups j)) : ∀ j, (s'.phase j).Within (setups j) := by
  have hi := h i
  cases hmoves with
  | start hphase => exact within_enter h Phase.within_configureThread
  | answer hphase result =>
      rw [hphase] at hi
      exact within_enter h (hi.2 result trivial)
  | close hphase =>
      rw [hphase] at hi
      rw [hi _ rfl]
      exact within_enter h Phase.within_cleanupThread

theorem installs_moves_self (hconsistent : (setups i).Consistent)
    (hmoves : Moves setups s i event s') (h : (s.phase i).Installs (setups i) s.table) :
    (s'.phase i).Installs (setups i) s'.table := by
  cases hmoves with
  | start hphase =>
      rw [enter_phase]
      exact Phase.installs_configureThread hconsistent
  | answer hphase result =>
      rw [hphase] at h
      rw [enter_phase]
      exact h.2 result trivial
  | close hphase =>
      rw [enter_phase]
      exact Phase.installs_cleanupThread

theorem table_moves {keys : List TableKey} (hmoves : Moves setups s j event s')
    (hwithin : (s.phase j).Within (setups j)) (hkeys : ∀ key ∈ keys, key ∉ (setups j).keys) :
    ∀ key ∈ keys, s.table key = s'.table key := by
  intro key hkey
  cases hmoves with
  | start hphase => rfl
  | close hphase => rfl
  | answer hphase result =>
      rw [hphase] at hwithin
      refine (Platform.Call.apply_of_ne (fun other entry hchange heq => ?_) result).symm
      rw [heq] at hchange
      exact hkeys key hkey (hwithin.1 key entry hchange)

theorem guarded_moves (hseparate : ∀ j, i ≠ j → (setups i).Separate (setups j))
    (hconsistent : (setups i).Consistent) (hmoves : Moves setups s j event s')
    (h : Guarded setups i s) : Guarded setups i s' := by
  refine ⟨within_moves hmoves h.within, ?_⟩
  by_cases hj : i = j
  · subst hj
    exact installs_moves_self hconsistent hmoves h.installs
  · have htable := table_moves hmoves (h.within j) (hseparate j hj).2
    have hphase : s'.phase i = s.phase i := by
      cases hmoves with
      | start => exact enter_phase_of_ne _ hj
      | answer => exact enter_phase_of_ne _ hj
      | close => exact enter_phase_of_ne _ hj
    rw [hphase]
    exact h.installs.congr htable

/-! ### Runs in which every call succeeds -/

section Runs

variable {table : platform.Table}

/-- A thread whose calls all succeed ends as its program promises. -/
theorem exists_ret {start : SharedTable ι platform} {Q : Outcome platform → platform.Table → Prop}
    {rest : platform.Program (Outcome platform)} (hs : Reachable (step setups) start s)
    (hphase : s.phase i = .running rest) (h : rest.Meets platform.allSucceed Q s.table) :
    ∃ s' outcome, Reachable (step setups) start s' ∧ s'.phase i = .running (.ret outcome) ∧
      Q outcome s'.table ∧ ∀ j, j ≠ i → s'.phase j = s.phase j := by
  induction rest generalizing s with
  | ret outcome => exact ⟨s, outcome, hs, hphase, h, fun _ _ => rfl⟩
  | call call rest ih =>
      have hmoves : Moves setups s i (.answer (.ok ())) _ := .answer hphase (.ok ())
      obtain ⟨s', outcome, hs', hphase', hQ, hothers⟩ :=
        ih (.ok ()) (hs.next (step_of_moves hmoves)) (enter_phase _) (h.2 (.ok ()) rfl)
      refine ⟨s', outcome, hs', hphase', hQ, fun j hj => ?_⟩
      rw [hothers j hj]
      exact enter_phase_of_ne _ hj

theorem configureThread_succeeds (setup : SessionSetup platform) (table : platform.Table) :
    setup.configureThread.Meets platform.allSucceed
      (fun outcome _ => outcome = .active setup.cleanup) table := by
  refine Prog.meets_bind.mpr ((setup.configure_succeeds table).mono fun result table h => ?_)
  cases result with
  | ok hook => exact congrArg Outcome.active h
  | error error => exact h.elim

theorem exists_active {start : SharedTable ι platform} (hs : Reachable (step setups) start s)
    (hphase : s.phase i = .waiting) :
    ∃ s', Reachable (step setups) start s' ∧
      s'.phase i = .running (.ret (.active (setups i).cleanup)) ∧
      ∀ j, j ≠ i → s'.phase j = s.phase j := by
  have hmoves : Moves setups s i .start _ := .start hphase
  obtain ⟨s', outcome, hs', hphase', rfl, hothers⟩ :=
    exists_ret (hs.next (step_of_moves hmoves)) (enter_phase _)
      (configureThread_succeeds (setups i) s.table)
  refine ⟨s', hs', hphase', fun j hj => ?_⟩
  rw [hothers j hj]
  exact enter_phase_of_ne _ hj

theorem exists_cleaned {start : SharedTable ι platform} (hs : Reachable (step setups) start s)
    (hphase : s.phase i = .running (.ret (.active (setups i).cleanup))) (key : TableKey) :
    ∃ s', Reachable (step setups) start s' ∧ (s'.phase i).isOver = true ∧
      (key ∈ (setups i).keys → s'.table key = none) ∧
      ∀ j, j ≠ i → s'.phase j = s.phase j := by
  have hmoves : Moves setups s i .close _ := .close hphase
  have hclears : (cleanupThread (setups i).cleanup).Meets platform.allSucceed
      (fun outcome table => (Phase.running (.ret outcome)).isOver = true ∧
        (key ∈ (setups i).keys → table key = none)) s.table := by
    by_cases hkey : key ∈ (setups i).keys
    · exact Prog.meets_bind.mpr (((setups i).cleanup_clears hkey s.table).mono
        fun _ _ h => ⟨rfl, fun _ => h⟩)
    · exact Prog.meets_bind.mpr (Prog.meets_always (fun _ => trivial)
        fun _ _ => ⟨rfl, fun h => absurd h hkey⟩)
  obtain ⟨s', outcome, hs', hphase', hcleared, hothers⟩ :=
    exists_ret (hs.next (step_of_moves hmoves)) (enter_phase _) hclears
  refine ⟨s', hs', ?_, hcleared.2, fun j hj => ?_⟩
  · rw [hphase']
    exact hcleared.1
  · rw [hothers j hj]
    exact enter_phase_of_ne _ hj

/-- One session stays active while another comes and goes. -/
theorem exists_active_and_over (hij : i ≠ j) (table : platform.Table) (key : TableKey) :
    ∃ s, Reachable (step setups) (initial table) s ∧ (s.phase i).isActive = true ∧
      (s.phase j).isOver = true ∧ (key ∈ (setups j).keys → s.table key = none) := by
  have hstart : Reachable (step setups) (initial table) (initial table) := ⟨[], rfl⟩
  obtain ⟨s₁, hs₁, hi, hothers₁⟩ := exists_active (i := i) hstart rfl
  obtain ⟨s₂, hs₂, hj, hothers₂⟩ := exists_active hs₁ (hothers₁ j hij.symm)
  obtain ⟨s₃, hs₃, hover, hnone, hothers₃⟩ := exists_cleaned hs₂ hj key
  refine ⟨s₃, hs₃, ?_, hover, hnone⟩
  rw [hothers₃ i hij, hothers₂ i hij, hi]
  rfl

end Runs

/-- Whatever the order of the calls and whichever of them fail, the endpoint routes
of an active session are in the table after another session has failed or was
cleaned up, if and only if no session has a route under the key of an endpoint
route of another. -/
theorem endpoint_routes_survive_iff (setups : ι → SessionSetup platform)
    (table : platform.Table) :
    (∀ labels s i j, run (step setups) (initial table) labels = some s → i ≠ j →
      (s.phase i).isActive = true → (s.phase j).isOver = true →
      (setups i).Installed s.table) ↔
    ∀ i j, i ≠ j → (setups i).Separate (setups j) := by
  constructor
  · intro h i j hij
    -- `j` is set up and closed while `i` is active, and no call fails.
    have hrun : ∀ key, ∃ table, (setups i).Installed table ∧
        (key ∈ (setups j).keys → table key = none) := by
      intro key
      obtain ⟨s, hreachable, hactive, hover, hnone⟩ := exists_active_and_over hij table key
      obtain ⟨labels, hrun⟩ := hreachable
      exact ⟨s.table, h labels s i j hrun hij hactive hover, hnone⟩
    constructor
    · intro a ha b hb hkey
      obtain ⟨table, hinstalled, -⟩ := hrun (platform.endpointKey a)
      have hsame : some (TableEntry.outside (platform.nextHop a)) =
          some (.outside (platform.nextHop b)) := by
        rw [← hinstalled a ha, ← hinstalled b hb, hkey]
      exact TableEntry.outside.inj (Option.some.inj hsame)
    · intro key hkey hmem
      obtain ⟨table, hinstalled, hnone⟩ := hrun key
      obtain ⟨route, hroute, rfl⟩ := List.mem_map.mp hkey
      have hsome := hinstalled route hroute
      rw [hnone hmem] at hsome
      cases hsome
  · intro h labels s i j hrun hij hactive _
    have hguarded : Guarded setups i s := by
      have hreachable : Reachable (step setups) (initial table) s := ⟨labels, hrun⟩
      refine reachable_invariant ?_ ?_ hreachable
      · exact ⟨fun _ => trivial, trivial⟩
      · intro s label s' hs hstep
        exact guarded_moves (h i) (h i j hij).1 (moves_of_step hstep) hs
    exact hguarded.installs.installed hactive

end SharedTable

/-! ### Two sessions with one endpoint -/

/-- The default route of a host, over the gateway `192.0.2.254`. -/
def defaultRoute : Linux.RouteMessage where
  addressFamily := 2
  destinationPrefixLength := 0
  sourcePrefixLength := 0
  tos := 0
  table := 254
  scope := 0
  protocol := .other 3
  kind := .unicast
  flags := 0
  attributes := [.table 254, .gateway gatewayIp, .oif 4]

/-- A host whose kernel routes every address by it. -/
def linuxHost : Platform := Linux.platform (fun _ => "") fun _ => .ok (some defaultRoute)

def hostTable : linuxHost.Table :=
  Function.update (fun _ => none)
    { destination := { family := .v4, octets := List.replicate 4 0, size := rfl }
      prefixLen := 0, table := 254, metric := 0 }
    (some (.outside defaultRoute))

/-- A session to the endpoint `203.0.113.0` for the subnet `10.n.0.0/16`. -/
def endpointSession (interfaceName : String) (n : UInt8) : TunSessionConfig where
  interfaceName := interfaceName
  mtu := 1420
  addresses := [{ ip := some { value := some (.v4 [10, n, 0, 2]) }, prefixLen := 32 }]
  peerAllowedIps := [{ ip := some { value := some (.v4 [10, n, 0, 0]) }, prefixLen := 16 }]
  peerEndpoints := [endpointAddress.protoIp]
  dns := none

def endpointHostRoute : Linux.EndpointRoute where
  message := { defaultRoute with
    destinationPrefixLength := 32
    protocol := .fixed
    attributes := [.table 254, .gateway gatewayIp, .oif 4, .destination endpointAddress] }
  destination := endpointAddress
  destined := rfl

def sharingSetups : Bool → SessionSetup linuxHost
  | true =>
    { config := endpointSession "utun7" 1, interfaceName := "utun7"
      endpointRoutes := [endpointHostRoute], resolved := rfl }
  | false =>
    { config := endpointSession "utun8" 2, interfaceName := "utun8"
      endpointRoutes := [endpointHostRoute], resolved := rfl }

/-- The first session is set up.  The setup of the second fails at `resolvectl`
and takes its routes back. -/
def secondSetupFails : List (Bool × Event) :=
  [(true, .start), (true, .answer (.ok ())), (true, .answer (.ok ())),
    (true, .answer (.error "No such process")), (true, .answer (.ok ())),
    (true, .answer (.ok ())),
    (false, .start), (false, .answer (.ok ())), (false, .answer (.ok ())),
    (false, .answer (.error "No such process")), (false, .answer (.ok ())),
    (false, .answer (.error "revert-dns: command 'resolvectl': timed out after 20s")),
    (false, .answer (.ok ())), (false, .answer (.ok ())), (false, .answer (.ok ())),
    (false, .answer (.ok ()))]

theorem failed_setup_takes_shared_route :
    (SessionSetup.resolve (fun _ => "") (endpointSession "utun7" 1) "utun7" =
        .ok (sharingSetups true) ∧
      SessionSetup.resolve (fun _ => "") (endpointSession "utun8" 2) "utun8" =
        .ok (sharingSetups false)) ∧
    ∃ s, run (SharedTable.step sharingSetups) (SharedTable.initial hostTable)
        secondSetupFails = some s ∧
      (s.phase true).isActive = true ∧ (s.phase false).isOver = true ∧
      ¬ (sharingSetups true).Installed s.table := by
  refine ⟨⟨rfl, rfl⟩, ?_⟩
  have h : (run (SharedTable.step sharingSetups) (SharedTable.initial hostTable)
      secondSetupFails).map (fun s => ((s.phase true).isActive, (s.phase false).isOver,
        (s.table (linuxHost.endpointKey endpointHostRoute)).isNone)) =
      some (true, true, true) := by decide +kernel
  obtain ⟨s, hrun, hs⟩ := Option.map_eq_some_iff.mp h
  obtain ⟨hactive, hover, hnone⟩ := Prod.mk.inj hs |>.imp_right Prod.mk.inj
  refine ⟨s, hrun, hactive, hover, fun hinstalled => ?_⟩
  have hsome := hinstalled endpointHostRoute List.mem_cons_self
  rw [hsome] at hnone
  cases hnone

end Daemon
end WgKotlin
