import WgKotlin.Translate
import WgKotlin.Library.Run
import Mathlib.Logic.Function.Basic

/-!
# Failures of a session and the interface manager

`JvmInterfaceManager` with the bridges that it has opened, one access to a field at a
time.  A bridge lives from inside `openSession` on: its coroutines may fail before the
manager has stored it, and the callback then clears fields that `start` has yet to
assign.
-/

namespace WgKotlin
namespace Iface

open Proto Library

/-- Where a thread stands that closes the active bridge and clears the two fields: `stop()`,
and the callback that the manager hands to a bridge. -/
inductive Clearing
  | read
  | close (bridge : Option Nat)
  | clearBridge
  | clearConfig
  | done
  deriving DecidableEq, Repr

/-- Who has won the `compareAndSet` on `closed`. -/
inductive Closer
  | close
  | fail
  deriving DecidableEq, Repr

inductive Callback
  | none
  | running (clearing : Clearing)
  | completed
  deriving DecidableEq, Repr

/-- How far a callback has come. -/
def Callback.stage : Callback → Nat
  | .none => 0
  | .running .read => 0
  | .running (.close _) => 1
  | .running .clearBridge => 2
  | .running .clearConfig => 3
  | .running .done => 4
  | .completed => 5

/-- A bridge: its flag, the thread of its callback and how often that was called. -/
structure BridgeSession where
  closed : Option Closer
  callback : Callback
  callbacks : Nat
  deriving DecidableEq, Repr

/-- One call back for the bridge that has failed, none for the others. -/
def BridgeSession.Accounted (session : BridgeSession) : Prop :=
  session.callbacks = if session.closed = some .fail then 1 else 0

/-- Where the thread that executes `start` stands. -/
inductive Starter
  | idle
  | stopping (clearing : Clearing) (config : TunSessionConfig)
  | opening (config : TunSessionConfig)
  | storingBridge (bridge : Nat) (config : TunSessionConfig)
  | storingConfig (bridge : Nat) (config : TunSessionConfig)
  deriving DecidableEq

/-- The assignments that `start` has yet to make for a bridge. -/
def Starter.storesLeft (k : Nat) : Starter → Nat
  | .storingBridge j _ => if j = k then 2 else 0
  | .storingConfig j _ => if j = k then 1 else 0
  | .idle | .stopping _ _ | .opening _ => 0

theorem Starter.storesLeft_le (k : Nat) (starter : Starter) : starter.storesLeft k ≤ 2 := by
  unfold storesLeft
  split
  · split <;> omega
  · split <;> omega
  · omega
  · omega
  · omega

structure Manager where
  activeBridge : Option Nat
  currentConfig : Option TunSessionConfig
  opened : Nat
  sessions : Nat → BridgeSession
  starter : Starter
  /-- The calls of `stop()`. -/
  stops : List Clearing

namespace Manager

def start : Manager where
  activeBridge := none
  currentConfig := none
  opened := 0
  sessions := fun _ => { closed := none, callback := .none, callbacks := 0 }
  starter := .idle
  stops := []

def isRunning (m : Manager) : Bool := m.activeBridge.isSome

def information (m : Manager) : Except Throwable (Option VpnInterfaceInformation) :=
  WgKotlin.information m.isRunning m.currentConfig

def setSession (k : Nat) (session : BridgeSession) (m : Manager) : Manager :=
  { m with sessions := Function.update m.sessions k session }

/-- `close()` of a bridge. -/
def closeBridge (k : Nat) (m : Manager) : Manager :=
  match (m.sessions k).closed with
  | none => m.setSession k { m.sessions k with closed := some .close }
  | some _ => m

/-- `fail(error)` of a bridge up to the call of `onFailure`. -/
def failBridge (k : Nat) (m : Manager) : Manager :=
  match (m.sessions k).closed with
  | none =>
    m.setSession k
      { closed := some .fail
        callback := .running .read
        callbacks := (m.sessions k).callbacks + 1 }
  | some _ => m

/-- The next access of a thread that clears. -/
def clear (m : Manager) : Clearing → Clearing × Manager
  | .read => (.close m.activeBridge, m)
  | .close none => (.clearBridge, m)
  | .close (some k) => (.clearBridge, m.closeBridge k)
  | .clearBridge => (.clearConfig, { m with activeBridge := none })
  | .clearConfig => (.done, { m with currentConfig := none })
  | .done => (.done, m)

inductive Label
  | start (config : TunSessionConfig)
  /-- The next access of `start`.  The answer is for `openSession`. -/
  | startNext (accepted : Bool)
  | stop
  | stopNext (index : Nat)
  | fail (bridge : Nat)
  | callbackNext (bridge : Nat)
  deriving DecidableEq

def stepStarter (m : Manager) (accepted : Bool) : Option Manager :=
  match m.starter with
  | .idle => none
  | .stopping .done config => some { m with starter := .opening config }
  | .stopping clearing config =>
    let cleared := m.clear clearing
    some { cleared.2 with starter := .stopping cleared.1 config }
  | .opening config =>
    if accepted then
      some { m with opened := m.opened + 1, starter := .storingBridge m.opened config }
    -- The error goes to `onFailure` and to the caller.
    else some { m with starter := .idle }
  | .storingBridge k config =>
    some { m with activeBridge := some k, starter := .storingConfig k config }
  | .storingConfig _ config => some { m with currentConfig := some config, starter := .idle }

def stepCallback (m : Manager) (k : Nat) : Option Manager :=
  match (m.sessions k).callback with
  | .none | .completed => none
  | .running .done => some (m.setSession k { m.sessions k with callback := .completed })
  | .running clearing =>
    let cleared := m.clear clearing
    some (cleared.2.setSession k { cleared.2.sessions k with callback := .running cleared.1 })

def step (m : Manager) : Label → Option Manager
  | .start config =>
    match m.starter with
    | .idle => some { m with starter := .stopping .read config }
    | _ => none
  | .startNext accepted => m.stepStarter accepted
  | .stop => some { m with stops := m.stops ++ [.read] }
  | .stopNext index =>
    match m.stops[index]? with
    | none => none
    | some clearing =>
      let cleared := m.clear clearing
      some { cleared.2 with stops := m.stops.set index cleared.1 }
  | .fail k => if k < m.opened then some (m.failBridge k) else none
  | .callbackNext k => m.stepCallback k

/-! ### What clearing does -/

/-- Clearing leaves the threads alone, and it sets no field to anything but null. -/
structure Clears (m m' : Manager) : Prop where
  opened : m'.opened = m.opened
  starter : m'.starter = m.starter
  callback : ∀ k, (m'.sessions k).callback = (m.sessions k).callback
  accounted : ∀ k, (m.sessions k).Accounted → (m'.sessions k).Accounted
  activeBridge : m.activeBridge = none → m'.activeBridge = none
  currentConfig : m.currentConfig = none → m'.currentConfig = none

theorem closeBridge_clears (k : Nat) (m : Manager) : Clears m (m.closeBridge k) := by
  unfold closeBridge
  split
  next hopen =>
    refine ⟨rfl, rfl, fun j => ?_, fun j hj => ?_, fun h => h, fun h => h⟩
    · by_cases hjk : j = k
      · subst hjk
        simp [setSession]
      · simp [setSession, hjk]
    · by_cases hjk : j = k
      · subst hjk
        simp only [BridgeSession.Accounted, hopen] at hj
        simpa [setSession, BridgeSession.Accounted] using hj
      · simpa [setSession, hjk] using hj
  next => exact ⟨rfl, rfl, fun _ => rfl, fun _ h => h, fun h => h, fun h => h⟩

theorem clear_clears (m : Manager) (clearing : Clearing) : Clears m (m.clear clearing).2 := by
  cases clearing with
  | close bridge =>
      cases bridge with
      | none => exact ⟨rfl, rfl, fun _ => rfl, fun _ h => h, fun h => h, fun h => h⟩
      | some k => exact closeBridge_clears k m
  | read | done => exact ⟨rfl, rfl, fun _ => rfl, fun _ h => h, fun h => h, fun h => h⟩
  | clearBridge => exact ⟨rfl, rfl, fun _ => rfl, fun _ h => h, fun _ => rfl, fun h => h⟩
  | clearConfig => exact ⟨rfl, rfl, fun _ => rfl, fun _ h => h, fun h => h, fun _ => rfl⟩

/-- A thread that has come past a field has cleared it. -/
theorem clear_stage (m : Manager) (clearing : Clearing) :
    (3 ≤ (Callback.running (m.clear clearing).1).stage →
        (m.clear clearing).2.activeBridge = none ∨ 3 ≤ (Callback.running clearing).stage) ∧
      (4 ≤ (Callback.running (m.clear clearing).1).stage →
        (m.clear clearing).2.currentConfig = none ∨ 4 ≤ (Callback.running clearing).stage) := by
  cases clearing with
  | close bridge => cases bridge <;> simp [clear, Callback.stage]
  | _ => simp [clear, Callback.stage]

/-! ### Steps -/

/-- What a step can be. -/
inductive Moves (m : Manager) : Label → Manager → Prop
  | starts (config : TunSessionConfig) :
      Moves m (.start config) { m with starter := .stopping .read config }
  | startClears {clearing : Clearing} {config : TunSessionConfig} (accepted : Bool) :
      Moves m (.startNext accepted)
        { (m.clear clearing).2 with starter := .stopping (m.clear clearing).1 config }
  | startCleared {config : TunSessionConfig} (accepted : Bool) :
      Moves m (.startNext accepted) { m with starter := .opening config }
  | opens {config : TunSessionConfig} (accepted : Bool) :
      Moves m (.startNext accepted)
        { m with opened := m.opened + 1, starter := .storingBridge m.opened config }
  | rejected (accepted : Bool) : Moves m (.startNext accepted) { m with starter := .idle }
  | storesBridge {k : Nat} {config : TunSessionConfig} (accepted : Bool)
      (hstarter : m.starter = .storingBridge k config) :
      Moves m (.startNext accepted)
        { m with activeBridge := some k, starter := .storingConfig k config }
  | storesConfig {k : Nat} {config : TunSessionConfig} (accepted : Bool)
      (hstarter : m.starter = .storingConfig k config) :
      Moves m (.startNext accepted)
        { m with currentConfig := some config, starter := .idle }
  | stops : Moves m .stop { m with stops := m.stops ++ [.read] }
  | stopClears {clearing : Clearing} (index : Nat) :
      Moves m (.stopNext index)
        { (m.clear clearing).2 with stops := m.stops.set index (m.clear clearing).1 }
  | fails {k : Nat} (hopened : k < m.opened) : Moves m (.fail k) (m.failBridge k)
  | completes {k : Nat} (hcallback : (m.sessions k).callback = .running .done) :
      Moves m (.callbackNext k) (m.setSession k { m.sessions k with callback := .completed })
  | callbackClears {k : Nat} {clearing : Clearing}
      (hcallback : (m.sessions k).callback = .running clearing) :
      Moves m (.callbackNext k)
        ((m.clear clearing).2.setSession k
          { (m.clear clearing).2.sessions k with callback := .running (m.clear clearing).1 })

theorem stepStarter_moves {m m' : Manager} {accepted : Bool}
    (h : m.stepStarter accepted = some m') : Moves m (.startNext accepted) m' := by
  unfold stepStarter at h
  split at h
  next => cases h
  next config hstarter =>
    cases h
    exact .startCleared accepted
  next clearing config _ hstarter =>
    cases h
    exact .startClears accepted
  next config hstarter =>
    split at h
    next =>
      cases h
      exact .opens accepted
    next =>
      cases h
      exact .rejected accepted
  next k config hstarter =>
    cases h
    exact .storesBridge accepted hstarter
  next k config hstarter =>
    cases h
    exact .storesConfig accepted hstarter

theorem step_moves {m m' : Manager} {label : Label} (h : m.step label = some m') :
    Moves m label m' := by
  cases label with
  | start config =>
      rw [step] at h
      split at h
      next =>
        cases h
        exact .starts config
      next => cases h
  | startNext accepted => exact stepStarter_moves h
  | stop =>
      cases h
      exact .stops
  | stopNext index =>
      rw [step] at h
      split at h
      next => cases h
      next clearing hclearing =>
        cases h
        exact .stopClears index
  | fail k =>
      rw [step] at h
      split at h
      next hopened =>
        cases h
        exact .fails hopened
      next => cases h
  | callbackNext k =>
      rw [step, stepCallback] at h
      split at h
      next => cases h
      next => cases h
      next hcallback =>
        cases h
        exact .completes hcallback
      next clearing _ hcallback =>
        cases h
        exact .callbackClears hcallback

/-! ### Callbacks are counted -/

theorem accounted_setSession {m : Manager} (h : ∀ k, (m.sessions k).Accounted) {k : Nat}
    {session : BridgeSession} (hsession : session.Accounted) :
    ∀ j, ((m.setSession k session).sessions j).Accounted := by
  intro j
  by_cases hjk : j = k
  · subst hjk
    simpa [setSession] using hsession
  · simpa [setSession, hjk] using h j

theorem accounted_failBridge {m : Manager} (h : ∀ k, (m.sessions k).Accounted) (k : Nat) :
    ∀ j, ((m.failBridge k).sessions j).Accounted := by
  unfold failBridge
  split
  next hopen =>
    refine accounted_setSession h ?_
    have hk := h k
    simp only [BridgeSession.Accounted, hopen] at hk ⊢
    simp [hk]
  next => exact h

theorem accounted_step {m m' : Manager} {label : Label} (h : ∀ k, (m.sessions k).Accounted)
    (hstep : m.step label = some m') : ∀ k, (m'.sessions k).Accounted := by
  have hcleared : ∀ clearing k, ((m.clear clearing).2.sessions k).Accounted :=
    fun clearing k => (clear_clears m clearing).accounted k (h k)
  cases step_moves hstep with
  | startClears accepted | stopClears index => exact hcleared _
  | fails hopened => exact accounted_failBridge h _
  | completes hcallback => exact accounted_setSession h (h _)
  | callbackClears hcallback => exact accounted_setSession (hcleared _) (hcleared _ _)
  | _ => exact h

/-! ### Failures are noticed -/

/-- The callback of a bridge clears a field after `start` has assigned it. -/
def ClearsAfterStart (m : Manager) : Label → Prop
  | .callbackNext k =>
    ((m.sessions k).callback = .running .clearBridge → m.starter.storesLeft k ≤ 1) ∧
      ((m.sessions k).callback = .running .clearConfig → m.starter.storesLeft k = 0)
  | _ => True

/-- What the callback of the last bridge has cleared stays cleared. -/
structure Noticed (m : Manager) : Prop where
  fresh : ∀ k, m.opened ≤ k → (m.sessions k).callback = .none
  bridge : ∀ k, k + 1 = m.opened → 3 ≤ (m.sessions k).callback.stage → m.activeBridge = none
  config : ∀ k, k + 1 = m.opened → 4 ≤ (m.sessions k).callback.stage → m.currentConfig = none
  storing : ∀ k, 0 < m.starter.storesLeft k →
    k + 1 = m.opened ∧ (m.sessions k).callback.stage + m.starter.storesLeft k ≤ 4

namespace Noticed

variable {m m' : Manager}

theorem start : Noticed Manager.start where
  fresh := fun _ _ => rfl
  bridge := fun _ _ _ => rfl
  config := fun _ _ _ => rfl
  storing := fun _ hk => absurd hk (Nat.lt_irrefl 0)

theorem clears (h : Noticed m) (hclears : Clears m m') : Noticed m' := by
  refine ⟨?_, ?_, ?_, ?_⟩
  · intro k hk
    rw [hclears.opened] at hk
    rw [hclears.callback]
    exact h.fresh k hk
  · intro k hk hstage
    rw [hclears.opened] at hk
    rw [hclears.callback] at hstage
    exact hclears.activeBridge (h.bridge k hk hstage)
  · intro k hk hstage
    rw [hclears.opened] at hk
    rw [hclears.callback] at hstage
    exact hclears.currentConfig (h.config k hk hstage)
  · intro k hk
    rw [hclears.starter] at hk ⊢
    rw [hclears.opened, hclears.callback]
    exact h.storing k hk

/-- A thread of `start` with no assignment left to make. -/
theorem withStarter (h : Noticed m) {starter : Starter} (hzero : ∀ k, starter.storesLeft k = 0) :
    Noticed { m with starter := starter } := by
  refine ⟨h.fresh, h.bridge, h.config, fun k hk => ?_⟩
  rw [hzero k] at hk
  exact absurd hk (Nat.lt_irrefl 0)

theorem opens (h : Noticed m) (config : TunSessionConfig) :
    Noticed { m with opened := m.opened + 1, starter := .storingBridge m.opened config } := by
  -- The new bridge has not called back.
  have hstage : ∀ k, k + 1 = m.opened + 1 → (m.sessions k).callback.stage = 0 := by
    intro k hk
    rw [h.fresh k (by omega)]
    rfl
  refine ⟨?_, ?_, ?_, ?_⟩
  · intro k hk
    exact h.fresh k (Nat.le_of_succ_le hk)
  · show ∀ k, k + 1 = m.opened + 1 → 3 ≤ (m.sessions k).callback.stage → m.activeBridge = none
    intro k hk hpast
    have := hstage k hk
    omega
  · show ∀ k, k + 1 = m.opened + 1 → 4 ≤ (m.sessions k).callback.stage → m.currentConfig = none
    intro k hk hpast
    have := hstage k hk
    omega
  · intro k hk
    simp only [Starter.storesLeft] at hk ⊢
    split at hk
    next hsame =>
      subst hsame
      have := hstage m.opened rfl
      rw [if_pos rfl]
      exact ⟨rfl, by omega⟩
    next => exact absurd hk (Nat.lt_irrefl 0)

theorem storesBridge (h : Noticed m) {k : Nat} {config : TunSessionConfig}
    (hstarter : m.starter = .storingBridge k config) :
    Noticed { m with activeBridge := some k, starter := .storingConfig k config } := by
  have hstoring := h.storing k
  rw [hstarter, Starter.storesLeft, if_pos rfl] at hstoring
  obtain ⟨hlast, hstage⟩ := hstoring (by omega)
  refine ⟨h.fresh, ?_, h.config, ?_⟩
  · show ∀ j, j + 1 = m.opened → 3 ≤ (m.sessions j).callback.stage → some k = none
    intro j hj hpast
    have hjk : j = k := by omega
    subst hjk
    omega
  · intro j hj
    simp only [Starter.storesLeft] at hj ⊢
    split at hj
    next hsame =>
      subst hsame
      rw [if_pos rfl]
      exact ⟨hlast, by omega⟩
    next => exact absurd hj (Nat.lt_irrefl 0)

theorem storesConfig (h : Noticed m) {k : Nat} {config : TunSessionConfig}
    (hstarter : m.starter = .storingConfig k config) :
    Noticed { m with currentConfig := some config, starter := .idle } := by
  have hstoring := h.storing k
  rw [hstarter, Starter.storesLeft, if_pos rfl] at hstoring
  obtain ⟨hlast, hstage⟩ := hstoring (by omega)
  refine ⟨h.fresh, h.bridge, ?_, fun j hj => absurd hj (Nat.lt_irrefl 0)⟩
  show ∀ j, j + 1 = m.opened → 4 ≤ (m.sessions j).callback.stage → some config = none
  intro j hj hpast
  have hjk : j = k := by omega
  subst hjk
  omega

/-- The thread of a callback moves on. -/
theorem setSession (h : Noticed m) {k : Nat} {session : BridgeSession} (hopened : k < m.opened)
    (hbridge : 3 ≤ session.callback.stage → k + 1 = m.opened → m.activeBridge = none)
    (hconfig : 4 ≤ session.callback.stage → k + 1 = m.opened → m.currentConfig = none)
    (hstoring : 0 < m.starter.storesLeft k →
      session.callback.stage + m.starter.storesLeft k ≤ 4) :
    Noticed (m.setSession k session) := by
  have hsame : ∀ j, j ≠ k → (m.setSession k session).sessions j = m.sessions j :=
    fun j hj => by simp [Manager.setSession, hj]
  have hself : (m.setSession k session).sessions k = session := by simp [Manager.setSession]
  refine ⟨?_, ?_, ?_, ?_⟩
  · intro j hj
    have hopened' : m.opened ≤ j := hj
    rw [hsame j (by omega)]
    exact h.fresh j hj
  · intro j hj hpast
    by_cases hjk : j = k
    · subst hjk
      rw [hself] at hpast
      exact hbridge hpast hj
    · rw [hsame j hjk] at hpast
      exact h.bridge j hj hpast
  · intro j hj hpast
    by_cases hjk : j = k
    · subst hjk
      rw [hself] at hpast
      exact hconfig hpast hj
    · rw [hsame j hjk] at hpast
      exact h.config j hj hpast
  · intro j hj
    by_cases hjk : j = k
    · subst hjk
      rw [hself]
      exact ⟨(h.storing j hj).1, hstoring hj⟩
    · rw [hsame j hjk]
      exact h.storing j hj

/-- A bridge that has called back has been opened. -/
theorem opened_of_running (h : Noticed m) {k : Nat} {clearing : Clearing}
    (hcallback : (m.sessions k).callback = .running clearing) : k < m.opened := by
  by_contra hfresh
  rw [h.fresh k (by omega)] at hcallback
  cases hcallback

theorem fails (h : Noticed m) {k : Nat} (hopened : k < m.opened) : Noticed (m.failBridge k) := by
  unfold failBridge
  split
  next =>
    have hzero : (Callback.running .read).stage = 0 := rfl
    refine h.setSession hopened (fun hpast => ?_) (fun hpast => ?_) fun hstoring => ?_
    · simp only [hzero] at hpast
      omega
    · simp only [hzero] at hpast
      omega
    · have := (h.storing k hstoring).2
      simp only [hzero]
      omega
  next => exact h

theorem completes (h : Noticed m) {k : Nat}
    (hcallback : (m.sessions k).callback = .running .done) :
    Noticed (m.setSession k { m.sessions k with callback := .completed }) := by
  have hstage : (m.sessions k).callback.stage = 4 := by
    rw [hcallback]
    rfl
  refine h.setSession (h.opened_of_running hcallback) (fun _ hlast => ?_) (fun _ hlast => ?_)
    fun hstoring => ?_
  · exact h.bridge k hlast (by omega)
  · exact h.config k hlast (by omega)
  · have := (h.storing k hstoring).2
    omega

end Noticed

theorem noticed_callback {m : Manager} (h : Noticed m) {k : Nat} {clearing : Clearing}
    (hcallback : (m.sessions k).callback = .running clearing)
    (hafter : ClearsAfterStart m (.callbackNext k)) :
    Noticed ((m.clear clearing).2.setSession k
      { (m.clear clearing).2.sessions k with callback := .running (m.clear clearing).1 }) := by
  have hclears := clear_clears m clearing
  have hopened := h.opened_of_running hcallback
  obtain ⟨hbridge, hconfig⟩ := clear_stage m clearing
  refine (h.clears hclears).setSession (hclears.opened ▸ hopened) ?_ ?_ ?_
  · intro hpast hlast
    rw [hclears.opened] at hlast
    rcases hbridge hpast with hnone | hearlier
    · exact hnone
    · exact hclears.activeBridge (h.bridge k hlast (hcallback ▸ hearlier))
  · intro hpast hlast
    rw [hclears.opened] at hlast
    rcases hconfig hpast with hnone | hearlier
    · exact hnone
    · exact hclears.currentConfig (h.config k hlast (hcallback ▸ hearlier))
  · rw [hclears.starter]
    intro hstoring
    have hstage := (h.storing k hstoring).2
    have hle := m.starter.storesLeft_le k
    obtain ⟨hafterBridge, hafterConfig⟩ := hafter
    rw [hcallback] at hstage hafterBridge hafterConfig
    cases clearing with
    | clearBridge =>
        have := hafterBridge rfl
        simp only [clear, Callback.stage]
        omega
    | clearConfig =>
        have := hafterConfig rfl
        omega
    | close bridge =>
        cases bridge <;> simp only [clear, Callback.stage] at hstage ⊢ <;> omega
    | read | done =>
        simp only [clear, Callback.stage] at hstage ⊢
        omega

theorem noticed_step {m m' : Manager} {label : Label} (h : Noticed m)
    (hafter : ClearsAfterStart m label) (hstep : m.step label = some m') : Noticed m' := by
  cases step_moves hstep with
  | starts config => exact h.withStarter fun _ => rfl
  | startClears accepted => exact (h.clears (clear_clears m _)).withStarter fun _ => rfl
  | startCleared accepted => exact h.withStarter fun _ => rfl
  | opens accepted => exact h.opens _
  | rejected accepted => exact h.withStarter fun _ => rfl
  | storesBridge accepted hstarter => exact h.storesBridge hstarter
  | storesConfig accepted hstarter => exact h.storesConfig hstarter
  | stops => exact ⟨h.fresh, h.bridge, h.config, h.storing⟩
  | @stopClears clearing index =>
      have hcleared := h.clears (clear_clears m clearing)
      exact ⟨hcleared.fresh, hcleared.bridge, hcleared.config, hcleared.storing⟩
  | fails hopened => exact h.fails hopened
  | completes hcallback => exact h.completes hcallback
  | callbackClears hcallback => exact noticed_callback h hcallback hafter

/-- A bridge calls back at most once, and not at all if it was closed first.  If its callback
clears the fields after `start` has assigned them, then a manager that has started its last
bridge and been called back by it does not run and has no information. -/
theorem session_failure_noticed {labels : List Label} {m : Manager}
    (hrun : run step start labels = some m) :
    (∀ k, (m.sessions k).callbacks ≤ 1 ∧
        ((m.sessions k).closed = some .close → (m.sessions k).callbacks = 0)) ∧
      (Along step ClearsAfterStart start labels → m.starter = .idle →
        ∀ k, k + 1 = m.opened → (m.sessions k).callback = .completed →
          m.isRunning = false ∧ m.information = .ok none) := by
  have haccounted : ∀ k, (m.sessions k).Accounted :=
    run_invariant (P := fun _ => True) (I := fun m => ∀ k, (m.sessions k).Accounted)
      (fun _ _ _ _ h hl => accounted_step h hl) (fun _ _ => trivial) (fun _ => rfl) hrun
  refine ⟨fun k => ?_, fun hafter _ k hlast hcompleted => ?_⟩
  · have hk := haccounted k
    unfold BridgeSession.Accounted at hk
    constructor
    · split at hk <;> omega
    · intro hclosed
      rw [hclosed] at hk
      exact hk
  · have hnoticed : Noticed m :=
      along_invariant (P := fun _ => True) (C := ClearsAfterStart) (I := Noticed)
        (fun _ _ _ _ hc h hl => noticed_step h hc hl) (fun _ _ => trivial) Noticed.start hafter
        hrun
    have hstage : (m.sessions k).callback.stage = 5 := by
      rw [hcompleted]
      rfl
    have hbridge := hnoticed.bridge k hlast (by omega)
    have hconfig := hnoticed.config k hlast (by omega)
    constructor
    · rw [isRunning, hbridge]
      rfl
    · rw [information, hconfig]
      rfl

instance (m : Manager) : (label : Label) → Decidable (ClearsAfterStart m label)
  | .callbackNext _ => inferInstanceAs (Decidable (_ ∧ _))
  | .start _ | .startNext _ | .stop | .stopNext _ | .fail _ => isTrue trivial

def exampleConfig : TunSessionConfig where
  interfaceName := "utun0"
  mtu := 0
  addresses := []
  peerAllowedIps := []
  peerEndpoints := []
  dns := none

/-- `start` up to the return of `openSession`. -/
def openingLabels : List Label := .start exampleConfig :: List.replicate 6 (.startNext true)

/-- The two assignments. -/
def storingLabels : List Label := [.startNext true, .startNext true]

/-- The bridge fails, and its callback runs. -/
def failingLabels : List Label := .fail 0 :: List.replicate 5 (.callbackNext 0)

theorem session_failure_noticed_after_start :
    ∃ m, run step start (openingLabels ++ storingLabels ++ failingLabels) = some m ∧
      (m.sessions 0).callbacks = 1 ∧ m.isRunning = false ∧ m.information = .ok none := by
  have hend : (run step start (openingLabels ++ storingLabels ++ failingLabels)).map
      (fun m => (m.sessions 0, m.opened, m.starter)) =
      some (⟨some .fail, .completed, 1⟩, 1, .idle) := by
    decide +kernel
  obtain ⟨m, hrun, hm⟩ := Option.map_eq_some_iff.mp hend
  simp only [Prod.mk.injEq] at hm
  obtain ⟨hsession, hopened, hidle⟩ := hm
  have hnoticed := (session_failure_noticed hrun).2 (by decide +kernel) hidle 0 (by omega)
    (by rw [hsession])
  exact ⟨m, hrun, by rw [hsession], hnoticed⟩

/-- The bridge fails before the manager has stored it: the callback has completed, `start` has
returned, and the manager takes the dead bridge for a running one. -/
theorem early_failure_lost :
    ∃ m, run step start (openingLabels ++ failingLabels ++ storingLabels) = some m ∧
      m.starter = .idle ∧ m.opened = 1 ∧ (m.sessions 0).callback = .completed ∧
      m.isRunning = true ∧ m.currentConfig = some exampleConfig := by
  have hend : (run step start (openingLabels ++ failingLabels ++ storingLabels)).map
      (fun m => (m.starter, m.opened, (m.sessions 0).callback, m.isRunning, m.currentConfig)) =
      some (.idle, 1, .completed, true, some exampleConfig) := by
    decide +kernel
  obtain ⟨m, hrun, hm⟩ := Option.map_eq_some_iff.mp hend
  simp only [Prod.mk.injEq] at hm
  exact ⟨m, hrun, hm⟩

end Manager
end Iface
end WgKotlin
