import WgKotlin.Vpn.RunSteps

/-!
# Callbacks of earlier runs

Every callback is the same `stop()`, which closes whatever is there.  What a callback
of one run closes belongs to that run as long as no loop of an earlier run is left
when a new one makes its sessions; one that is left can close the new run.
-/

namespace WgKotlin

open Proto Library Crypto

namespace Runs

/-- The step makes the sessions of a new run. -/
def Label.reconciles : Label → Bool
  | .caller (.reconcile _) => true
  | _ => false

/-- The loops of the earlier runs have ended when a new run makes its sessions. -/
def Joined (s : Runs) (label : Label) : Prop :=
  label.reconciles = true → ∀ l ∈ s.loops, l.phase = .ended

instance (s : Runs) (label : Label) : Decidable (Joined s label) :=
  inferInstanceAs (Decidable (_ → _))

/-- The loops that are left belong to the current run, and nothing is there of a later one. -/
structure Ordered (s : Runs) : Prop where
  alive : ∀ l ∈ s.loops, l.phase ≠ .ended → l.run = s.run
  sessions : s.sessionsRun ≤ s.run
  sockets : ∀ owner, s.sockets = some owner → owner ≤ s.run
  bridge : ∀ owner, s.bridge = some owner → owner ≤ s.run
  caller : ∀ k parts next, s.caller = .closing (some k) parts next → k = s.run
  closes : ∀ c ∈ s.closes, ∀ k, c.callback = some k → c.owner ≤ k

namespace Ordered

variable {s : Runs}

theorem start : Ordered Runs.start where
  alive := fun l hl => (by cases hl)
  sessions := Nat.le_refl 0
  sockets := fun owner h => (by cases h)
  bridge := fun owner h => (by cases h)
  caller := fun k parts next h => (by cases h)
  closes := fun c hc => (by cases hc)

theorem close (h : Ordered s) {callback : Option Nat} (part : Part)
    (hcallback : ∀ k, callback = some k → k = s.run) : Ordered (s.close callback part) := by
  have hkept := close_kept callback part s
  refine ⟨?_, ?_, ?_, ?_, ?_, ?_⟩
  · rw [hkept.loops, hkept.run]
    exact h.alive
  · rw [hkept.sessionsRun, hkept.run]
    exact h.sessions
  · intro owner howner
    rw [hkept.run]
    exact h.sockets owner (close_sockets callback part howner)
  · intro owner howner
    rw [hkept.run]
    exact h.bridge owner (close_bridge callback part howner)
  · rw [hkept.caller, hkept.run]
    exact h.caller
  · intro c hc k hk
    rcases close_closes callback part hc with hc | ⟨hcaller, howner⟩
    · exact h.closes c hc k hk
    · -- A new entry: what is there belongs to this run or to an earlier one.
      rw [hcallback k (hcaller.symm.trans hk)]
      rcases howner with hbridge | hsockets | hsessions
      · exact h.bridge _ hbridge
      · exact h.sockets _ hsockets
      · rw [← hsessions]
        exact h.sessions

theorem withCaller (h : Ordered s) {caller : Caller}
    (hcaller : ∀ k parts next, caller = .closing (some k) parts next → k = s.run) :
    Ordered { s with caller := caller } :=
  ⟨h.alive, h.sessions, h.sockets, h.bridge, hcaller, h.closes⟩

theorem launchAll (h : Ordered s) (kinds : List LoopKind) : Ordered (s.launchAll kinds) := by
  refine ⟨?_, h.sessions, h.sockets, h.bridge, h.caller, h.closes⟩
  intro l hl halive
  rcases List.mem_append.mp hl with hl | hl
  · exact h.alive l hl halive
  · obtain ⟨kind, _, rfl⟩ := List.mem_map.mp hl
    rfl

theorem setPhase (h : Ordered s) {index : Nat} {l : Loop} (phase : LoopPhase)
    (hrun : l.run = s.run) : Ordered (s.setPhase index l phase) := by
  refine ⟨?_, h.sessions, h.sockets, h.bridge, h.caller, h.closes⟩
  intro l' hl' halive
  rcases List.mem_or_eq_of_mem_set hl' with hl' | rfl
  · exact h.alive l' hl' halive
  · exact hrun

/-- A close that the caller has to do is one of its own, or of the current run. -/
theorem afterClose {callback : Option Nat} (hcallback : ∀ k, callback = some k → k = s.run)
    {next : Option ParsedVpnConfiguration} {parts : List Part} (k : Nat) (parts' : List Part)
    (next' : Option ParsedVpnConfiguration)
    (h : Runs.afterClose callback next parts = .closing (some k) parts' next') : k = s.run := by
  cases parts with
  | nil => cases next <;> cases h
  | cons part parts =>
      cases h
      exact hcallback k rfl

theorem afterReconcile {outcome : Option (Except Throwable Unit)} (k : Nat) (parts : List Part)
    (next : Option ParsedVpnConfiguration) :
    Runs.afterReconcile outcome ≠ .closing (some k) parts next := by
  unfold Runs.afterReconcile
  split <;> exact fun h => (by cases h)

end Ordered

theorem ordered_caller {s s' : Runs} {label : CallerLabel} (h : Ordered s)
    (hjoined : Joined s (.caller label)) (hstep : CallerActs s label s') : Ordered s' := by
  have hnone : ∀ k, none = some k → k = s.run := fun k hk => (by cases hk)
  cases hstep with
  | opens config => exact h.withCaller fun k parts next hcaller => (by cases hcaller)
  | stops => exact h.withCaller fun k parts next hcaller => (by cases hcaller)
  | @closes callback part parts next hcaller =>
      have hcallback : ∀ k, callback = some k → k = s.run := by
        intro k hk
        subst hk
        exact h.caller k _ _ hcaller
      refine (h.close part hcallback).withCaller fun k parts next hafter => ?_
      rw [(close_kept _ _ s).run]
      exact Ordered.afterClose hcallback k parts next hafter
  | reconciles factory hcaller =>
      -- No loop is left, and what is there belongs to an earlier run.
      have hended := hjoined rfl
      exact {
        alive := fun l hl halive => absurd (hended l hl) halive
        sessions := Nat.le_refl _
        sockets := fun owner howner => Nat.le_succ_of_le (h.sockets owner howner)
        bridge := fun owner howner => Nat.le_succ_of_le (h.bridge owner howner)
        caller := fun k parts next hafter => absurd hafter (Ordered.afterReconcile k parts next)
        closes := h.closes }
  | launches =>
      have hlaunched := h.launchAll cryptoLoops
      exact ⟨hlaunched.alive, h.sessions, h.sockets, h.bridge,
        fun k parts next hcaller => (by cases hcaller), h.closes⟩
  | binds ipv4 ipv6 =>
      have hlaunched := (h.close .sockets hnone).launchAll (socketLoops ipv4 ipv6)
      exact ⟨hlaunched.alive, hlaunched.sessions,
        fun owner howner => Nat.le_of_eq (Option.some.inj howner).symm, hlaunched.bridge,
        fun k parts next hcaller => (by cases hcaller), hlaunched.closes⟩
  | bindFails ipv4 ipv6 =>
      exact (h.close .sockets hnone).withCaller fun k parts next hcaller => (by cases hcaller)
  | opensSession accepted =>
      exact ((h.close .interface hnone).launchAll bridgeLoops).withCaller
        fun k parts next hcaller => (by cases hcaller)
  | rejected accepted =>
      refine (h.close .interface hnone).withCaller fun k parts next hcaller => ?_
      cases hcaller
      rfl
  | stores =>
      exact ⟨h.alive, h.sessions, h.sockets,
        fun owner howner => Nat.le_of_eq (Option.some.inj howner).symm,
        fun k parts next hcaller => (by cases hcaller), h.closes⟩

theorem ordered_loop {s s' : Runs} {l : Loop} {phase : LoopPhase} (h : Ordered s)
    (hrun : l.run = s.run) (hstep : Acts s l phase s') : Ordered s' := by
  have hkept := hstep.kept
  rcases hstep.owners with hsame | ⟨part, rfl⟩
  · refine ⟨?_, ?_, ?_, ?_, ?_, ?_⟩
    · rw [hkept.loops, hkept.run]
      exact h.alive
    · rw [hkept.sessionsRun, hkept.run]
      exact h.sessions
    · rw [hsame.sockets, hkept.run]
      exact h.sockets
    · rw [hsame.bridge, hkept.run]
      exact h.bridge
    · rw [hkept.caller, hkept.run]
      exact h.caller
    · rw [hsame.closes]
      exact h.closes
  · refine h.close part fun k hk => ?_
    cases hk
    exact hrun

theorem ordered_step {s s' : Runs} {label : Label} (h : Ordered s) (hjoined : Joined s label)
    (hstep : step s label = some s') : Ordered s' := by
  rcases step_cases hstep with ⟨callerLabel, rfl, hcaller⟩ |
    ⟨index, action, l, phase, mid, rfl, hl, hacts, rfl⟩
  · exact ordered_caller h hjoined hcaller
  · have hrun := h.alive l (List.mem_of_getElem? hl) hacts.alive
    refine (ordered_loop h hrun hacts).setPhase phase ?_
    rw [hacts.kept.run]
    exact hrun

/-- In a run where the loops of one `open` have ended before the next one makes its sessions,
a callback closes nothing of a later run. -/
theorem callbacks_close_own_run {labels : List Label} {s : Runs}
    (hrun : Library.run step start labels = some s) (hjoined : Along step Joined start labels) :
    ∀ c ∈ s.closes, ∀ k, c.callback = some k → c.owner ≤ k := by
  have hordered : Ordered s :=
    along_invariant (P := fun _ => True) (C := Joined) (I := Ordered)
      (fun s l s' _ hj hs hl => ordered_step hs hj hl) (fun _ _ => trivial) Ordered.start hjoined
      hrun
  exact hordered.closes

/-! ### Examples -/

/-- One peer at 192.0.2.1 for the packets to 10.1.0.0/16. -/
def exampleConfig (publicKey : String) : ParsedVpnConfiguration where
  interfaceName := "utun0"
  privateKey := "k"
  peers :=
    [{ endpointPort := some 51820
       endpointAddress := some { value := some (.v4 [192, 0, 2, 1]) }
       publicKey := publicKey
       allowedIps := [exampleCidr 10 1 16] }]

/-- A call of `open` that succeeds, with an IPv4 socket.  It launches seven loops. -/
def openLabels (publicKey : String) : List Label :=
  [.caller (.openVpn (exampleConfig publicKey)), .caller .close, .caller .close, .caller .close,
    .caller (.reconcile fun _ => .returned true), .caller .launch, .caller (.bind true false),
    .caller (.openSession true), .caller .store]

def stopLabels : List Label :=
  [.caller .stop, .caller .close, .caller .close, .caller .close]

/-- The loops observe that their scopes are cancelled. -/
def cancelLabels : List Label := (List.range 7).map fun index => .loop index .cancel

/-- The receive loop of the first run. -/
def throwLabel : Label := .loop 3 .throw

def callbackLabels : List Label := [.loop 3 .close, .loop 3 .close, .loop 3 .close]

/-- The first run is stopped by the callback of its receive loop, and the VPN opened again
when its other loops have ended. -/
def reopenedLabels : List Label :=
  openLabels "a" ++ throwLabel :: callbackLabels ++
    [.loop 0 .cancel, .loop 1 .cancel, .loop 2 .cancel, .loop 4 .cancel, .loop 5 .cancel,
      .loop 6 .cancel] ++ openLabels "b"

theorem callbacks_close_own_run_reopened :
    ∃ s, Library.run step start reopenedLabels = some s ∧
      s.closes = [⟨some 1, .sessions, 1⟩, ⟨some 1, .sockets, 1⟩, ⟨some 1, .interface, 1⟩] ∧
      ∀ c ∈ s.closes, ∀ k, c.callback = some k → c.owner ≤ k := by
  have hend : (Library.run step start reopenedLabels).map closes =
      some [⟨some 1, .sessions, 1⟩, ⟨some 1, .sockets, 1⟩, ⟨some 1, .interface, 1⟩] := by
    decide +kernel
  obtain ⟨s, hrun, hcloses⟩ := Option.map_eq_some_iff.mp hend
  exact ⟨s, hrun, hcloses, callbacks_close_own_run hrun (by decide +kernel)⟩

/-- The receive loop of the first run meets its closed socket and calls back when the second
run is up. -/
def lateLabels : List Label :=
  openLabels "a" ++ stopLabels ++ throwLabel :: openLabels "b" ++ callbackLabels

/-- The callback of the first run closes everything of the second. -/
theorem late_callback_closes_new_run :
    ∃ s, Library.run step start lateLabels = some s ∧ s.run = 2 ∧
      Close.mk (some 1) .interface 2 ∈ s.closes ∧ Close.mk (some 1) .sockets 2 ∈ s.closes ∧
      Close.mk (some 1) .sessions 2 ∈ s.closes ∧ s.bridge = none ∧ s.sockets = none ∧
      s.world.sessionEntriesByPeer.entries = [] := by
  have hend : (Library.run step start lateLabels).map (fun s => (s.run, s.bridge, s.sockets,
      s.world.sessionEntriesByPeer.entries.isEmpty, s.closes.take 3)) =
      some (2, none, none, true,
        [⟨some 1, .sessions, 2⟩, ⟨some 1, .sockets, 2⟩, ⟨some 1, .interface, 2⟩]) := by
    decide +kernel
  obtain ⟨s, hrun, hs⟩ := Option.map_eq_some_iff.mp hend
  simp only [Prod.mk.injEq] at hs
  obtain ⟨hnumber, hbridge, hsockets, hentries, hcloses⟩ := hs
  have hmem : ∀ c ∈ s.closes.take 3, c ∈ s.closes := fun c hc => List.mem_of_mem_take hc
  rw [hcloses] at hmem
  exact ⟨s, hrun, hnumber, hmem _ (by simp), hmem _ (by simp), hmem _ (by simp), hbridge,
    hsockets, List.isEmpty_iff.mp hentries⟩

end Runs
end WgKotlin
