import Mathlib.Algebra.Order.BigOperators.Group.List
import Mathlib.Algebra.Order.Ring.Nat
import WgKotlin.Library.Progress
import WgKotlin.Vpn.Isolation

/-!
# After `stop()`

When `stop()` has returned, loops of the run and of earlier ones may still be there:
one has taken a packet, another is in its `onFailure`.  None of them sends or writes
anything from then on, each finds its scope cancelled, and so they all end.  The managers
have no lock: their calls of `start` and `stop` are taken not to overlap.
-/

namespace WgKotlin

open Proto Library Crypto

namespace Runs

/-- What the caller does among these steps. -/
def callerLabels : List Label → List CallerLabel
  | [] => []
  | .caller label :: rest => label :: callerLabels rest
  | .loop _ _ :: rest => callerLabels rest

def LoopKind.isBridge : LoopKind → Bool
  | .bridgeReader | .bridgeWriter => true
  | _ => false

/-- How many closes a loop has still to do, and one step to begin with them. -/
def LoopPhase.left : LoopPhase → Nat
  | .waiting | .packet _ | .datagram _ | .putting _ _ => 5
  | .calling parts => parts.length
  | .ended => 0

/-- A loop in its `onFailure` has something to close. -/
def LoopPhase.IsProper (phase : LoopPhase) : Prop :=
  phase ≠ .calling [] ∧ LoopPhase.left phase ≤ 5

/-! ### No bridge is lost -/

/-- The loops of a bridge belong to one that is closed, held, or about to be stored. -/
structure Held (s : Runs) : Prop where
  bridges : ∀ l ∈ s.loops, LoopKind.isBridge l.kind = true →
    l.run ∈ s.closedBridges ∨ s.bridge = some l.run ∨ s.caller = .storing ∧ l.run = s.run
  storing : s.caller = .storing → s.bridge = none
  proper : ∀ l ∈ s.loops, LoopPhase.IsProper l.phase

section Held

variable {s s' : Runs}

theorem isProper_waiting : LoopPhase.IsProper .waiting := by
  refine ⟨?_, Nat.le_refl 5⟩
  intro h
  cases h

theorem held_start : Held start where
  bridges := fun l hl => (by cases hl)
  storing := fun _ => rfl
  proper := fun l hl => (by cases hl)

theorem closedBridges_close (callback : Option Nat) (part : Part) {run : Nat}
    (h : run ∈ s.closedBridges) : run ∈ (s.close callback part).closedBridges := by
  cases part with
  | interface =>
      unfold close
      cases s.bridge with
      | none => exact h
      | some owner => exact List.mem_cons_of_mem owner h
  | sockets =>
      unfold close
      cases s.sockets <;> exact h
  | sessions => exact h

/-- A bridge that is no longer held after a close has been closed. -/
theorem close_holds (callback : Option Nat) (part : Part) {run : Nat}
    (h : s.bridge = some run) :
    run ∈ (s.close callback part).closedBridges ∨ (s.close callback part).bridge = some run := by
  cases part with
  | interface =>
      unfold close
      rw [h]
      exact Or.inl List.mem_cons_self
  | sockets =>
      unfold close
      cases s.sockets <;> exact Or.inr h
  | sessions => exact Or.inr h

theorem close_interface_bridge (callback : Option Nat) (s : Runs) :
    (s.close callback .interface).bridge = none := by
  unfold close
  cases h : s.bridge with
  | none => exact h
  | some owner => rfl

theorem Held.close (h : Held s) (callback : Option Nat) (part : Part) :
    Held (s.close callback part) := by
  have hkept := close_kept callback part s
  refine ⟨?_, ?_, ?_⟩
  · rw [hkept.loops, hkept.caller, hkept.run]
    intro l hl hkind
    rcases h.bridges l hl hkind with hclosed | hbridge | hstoring
    · exact Or.inl (closedBridges_close callback part hclosed)
    · rcases close_holds callback part hbridge with hclosed | hheld
      · exact Or.inl hclosed
      · exact Or.inr (Or.inl hheld)
    · exact Or.inr (Or.inr hstoring)
  · rw [hkept.caller]
    intro hstoring
    cases hbridge : (s.close callback part).bridge with
    | none => rfl
    | some owner =>
        have hheld := close_bridge callback part hbridge
        rw [h.storing hstoring] at hheld
        cases hheld
  · rw [hkept.loops]
    exact h.proper

/-- The caller goes on to something else than to store a bridge. -/
theorem Held.moves (h : Held s) (hold : s.caller ≠ .storing) (hnew : s'.caller ≠ .storing)
    (hloops : s'.loops = s.loops) (hclosed : s'.closedBridges = s.closedBridges)
    (hbridge : s'.bridge = s.bridge) : Held s' where
  bridges := by
    rw [hloops, hclosed, hbridge]
    intro l hl hkind
    rcases h.bridges l hl hkind with hclosed | hheld | ⟨hstoring, _⟩
    · exact Or.inl hclosed
    · exact Or.inr (Or.inl hheld)
    · exact absurd hstoring hold
  storing := fun hstoring => absurd hstoring hnew
  proper := by
    rw [hloops]
    exact h.proper

theorem Held.launchAll (h : Held s) (kinds : List LoopKind)
    (hkinds : ∀ kind ∈ kinds, LoopKind.isBridge kind = false) : Held (s.launchAll kinds) where
  bridges := by
    intro l hl hkind
    rcases List.mem_append.mp hl with hl | hl
    · exact h.bridges l hl hkind
    · obtain ⟨kind, hmem, rfl⟩ := List.mem_map.mp hl
      rw [show (Loop.launch s.run kind).kind = kind from rfl, hkinds kind hmem] at hkind
      cases hkind
  storing := h.storing
  proper := by
    intro l hl
    rcases List.mem_append.mp hl with hl | hl
    · exact h.proper l hl
    · obtain ⟨kind, _, rfl⟩ := List.mem_map.mp hl
      exact isProper_waiting

theorem socketLoops_isBridge (ipv4 ipv6 : Bool) :
    ∀ kind ∈ socketLoops ipv4 ipv6, LoopKind.isBridge kind = false := by
  cases ipv4 <;> cases ipv6 <;> decide

/-- A bridge is stored over none, and its loops are of the current run. -/
theorem Held.stores (h : Held s) (hcaller : s.caller = .storing) :
    Held { s with bridge := some s.run, caller := .idle } where
  bridges := by
    intro l hl hkind
    rcases h.bridges l hl hkind with hclosed | hbridge | ⟨_, hrun⟩
    · exact Or.inl hclosed
    · rw [h.storing hcaller] at hbridge
      cases hbridge
    · exact Or.inr (Or.inl (congrArg some hrun.symm))
  storing := fun hstoring => (by cases hstoring)
  proper := h.proper

/-- A bridge is opened when the one before it has been closed. -/
theorem Held.opensSession (h : Held s) (hbridge : s.bridge = none) (hcaller : s.caller ≠ .storing) :
    Held { s.launchAll bridgeLoops with caller := .storing } where
  bridges := by
    intro l hl hkind
    rcases List.mem_append.mp hl with hl | hl
    · rcases h.bridges l hl hkind with hclosed | hheld | ⟨hstoring, _⟩
      · exact Or.inl hclosed
      · rw [hbridge] at hheld
        cases hheld
      · exact absurd hstoring hcaller
    · obtain ⟨kind, _, rfl⟩ := List.mem_map.mp hl
      exact Or.inr (Or.inr ⟨rfl, rfl⟩)
  storing := fun _ => hbridge
  proper := by
    intro l hl
    rcases List.mem_append.mp hl with hl | hl
    · exact h.proper l hl
    · obtain ⟨kind, _, rfl⟩ := List.mem_map.mp hl
      exact isProper_waiting

theorem afterClose_ne_storing (callback : Option Nat) (next : Option ParsedVpnConfiguration)
    (parts : List Part) : afterClose callback next parts ≠ .storing := by
  intro h
  cases parts with
  | nil => cases next <;> cases h
  | cons part parts => cases h

theorem afterReconcile_ne_storing (outcome : Option (Except Throwable Unit)) :
    afterReconcile outcome ≠ .storing := by
  unfold afterReconcile
  split <;> exact fun h => (by cases h)

theorem held_caller {label : CallerLabel} (h : Held s) (hstep : s.stepCaller label = some s') :
    Held s' := by
  unfold stepCaller at hstep
  split at hstep
  next config hcaller =>
    cases hstep
    exact h.moves (by simp [hcaller]) (by simp) rfl rfl rfl
  next hcaller =>
    cases hstep
    exact h.moves (by simp [hcaller]) (by simp) rfl rfl rfl
  next callback part parts next hcaller =>
    cases hstep
    refine (h.close callback part).moves ?_ (afterClose_ne_storing _ _ _) rfl rfl rfl
    rw [(close_kept callback part s).caller, hcaller]
    simp
  next factory config hcaller =>
    cases hstep
    exact h.moves (by simp [hcaller]) (afterReconcile_ne_storing _) rfl rfl rfl
  next hcaller =>
    cases hstep
    refine (h.launchAll cryptoLoops (by decide)).moves ?_ (by simp) rfl rfl rfl
    rw [show (s.launchAll cryptoLoops).caller = s.caller from rfl, hcaller]
    simp
  next ipv4 ipv6 hcaller =>
    have hclosed := h.close none .sockets
    have hold : (s.close none .sockets).caller ≠ .storing := by
      rw [(close_kept none .sockets s).caller, hcaller]
      simp
    simp only at hstep
    split at hstep
    next =>
      cases hstep
      exact (hclosed.launchAll _ (socketLoops_isBridge ipv4 ipv6)).moves hold (by simp) rfl rfl rfl
    next =>
      cases hstep
      exact hclosed.moves hold (by simp) rfl rfl rfl
  next accepted hcaller =>
    have hclosed := h.close none .interface
    have hold : (s.close none .interface).caller ≠ .storing := by
      rw [(close_kept none .interface s).caller, hcaller]
      simp
    simp only at hstep
    split at hstep
    next =>
      cases hstep
      exact hclosed.opensSession (close_interface_bridge none s) hold
    next =>
      cases hstep
      exact hclosed.moves hold (by simp) rfl rfl rfl
  next hcaller =>
    cases hstep
    exact h.stores hcaller
  next => cases hstep

/-! ### The loops keep what is held -/

theorem afterWork_ne_calling (s : Runs) (label : LoopLabel) (runs : List Nat) :
    s.afterWork label runs ≠ .calling [] := by
  unfold afterWork
  split
  · exact fun h => (by cases h)
  · unfold resume
    split <;> exact fun h => (by cases h)

theorem resume_ne_calling (network : List (Tagged UdpDatagram)) (tun : List (Tagged Bytes)) :
    resume network tun ≠ .calling [] := by
  unfold resume
  split <;> exact fun h => (by cases h)

theorem afterCall_ne_calling (parts : List Part) : afterCall parts ≠ .calling [] := by
  cases parts <;> exact fun h => (by cases h)

theorem Acts.ne_calling {l : Loop} {phase : LoopPhase} (h : Acts s l phase s') :
    phase ≠ .calling [] := by
  cases h with
  | works _ => exact afterWork_ne_calling _ _ _
  | putsNetworkOut _ | putsTunOut _ | putsNetworkIn _ | putsTunIn _ => exact resume_ne_calling _ _
  | closes _ => exact afterCall_ne_calling _
  | _ => exact fun h => (by cases h)

theorem inBody_of_workOn {l : Loop} {replies : Nat → Reply} {label : LoopLabel} {runs : List Nat}
    (h : workOn replies l.kind l.phase = some (label, runs)) : inBody l.phase = true := by
  unfold workOn at h
  split at h
  next hphase => rw [hphase]; rfl
  next hphase => rw [hphase]; rfl
  next hphase => rw [hphase]; rfl
  next => cases h

theorem afterCall_left_lt (part : Part) (parts : List Part) :
    LoopPhase.left (afterCall parts) < LoopPhase.left (.calling (part :: parts)) := by
  cases parts with
  | nil => exact Nat.zero_lt_one
  | cons next parts => exact Nat.lt_succ_self _

theorem Acts.left_le {l : Loop} {phase : LoopPhase} (h : Acts s l phase s') :
    LoopPhase.left phase ≤ LoopPhase.left l.phase := by
  have hresume : ∀ network tun, LoopPhase.left (resume network tun) = 5 := by
    intro network tun
    unfold resume
    split <;> rfl
  have hbody : inBody l.phase = true → LoopPhase.left l.phase = 5 := by
    intro hbody
    cases hphase : l.phase with
    | calling _ | ended =>
        rw [hphase] at hbody
        cases hbody
    | _ => rfl
  cases h with
  | works hwork =>
      rw [hbody (inBody_of_workOn hwork)]
      unfold afterWork
      split
      · exact (by decide : 3 ≤ 5)
      · exact Nat.le_of_eq (hresume _ _)
  | ends hin | calls hin | bridgeCalls hin _ =>
      rw [hbody hin]
      decide
  | putsNetworkOut hphase | putsTunOut hphase | putsNetworkIn hphase | putsTunIn hphase =>
      rw [hbody (by rw [hphase]; rfl), hresume]
  | closes hphase =>
      rw [hphase]
      exact (afterCall_left_lt _ _).le
  | receives _ hphase _ | reads _ hphase _ =>
      rw [hbody (by rw [hphase]; rfl)]
      exact Nat.le_refl 5
  | cleartextTakes hphase _ | encryptedTakes hphase _ | sendTakes hphase _ | writerTakes hphase _
  | transmits hphase _ | writes hphase _ =>
      rw [hbody (by rw [hphase]; rfl)]
      exact Nat.le_refl 5

theorem Acts.proper {l : Loop} {phase : LoopPhase} (h : Acts s l phase s')
    (hl : LoopPhase.IsProper l.phase) : LoopPhase.IsProper phase :=
  ⟨h.ne_calling, h.left_le.trans hl.2⟩

theorem Acts.held {l : Loop} {phase : LoopPhase} (h : Acts s l phase s') (hs : Held s) :
    Held s' := by
  cases h with
  | closes _ => exact hs.close _ _
  | bridgeCalls _ _ =>
      refine ⟨?_, hs.storing, hs.proper⟩
      intro k hk hkind
      exact (hs.bridges k hk hkind).imp_left (List.mem_cons_of_mem _)
  | _ => exact ⟨hs.bridges, hs.storing, hs.proper⟩

theorem Held.setPhase (h : Held s) {index : Nat} {l : Loop} {phase : LoopPhase}
    (hl : s.loops[index]? = some l) (hphase : LoopPhase.IsProper phase) :
    Held (s.setPhase index l phase) where
  bridges := by
    intro k hk hkind
    rcases List.mem_or_eq_of_mem_set hk with hk | rfl
    · exact h.bridges k hk hkind
    · exact h.bridges l (List.mem_of_getElem? hl) hkind
  storing := h.storing
  proper := by
    intro k hk
    rcases List.mem_or_eq_of_mem_set hk with hk | rfl
    · exact h.proper k hk
    · exact hphase

theorem held_step {label : Label} (h : Held s) (hstep : step s label = some s') : Held s' := by
  cases label with
  | caller label => exact held_caller h hstep
  | loop index action =>
      rcases step_cases hstep with ⟨_, hlabel, _⟩ | ⟨_, _, l, phase, mid, hlabel, hl, hacts, rfl⟩
      · cases hlabel
      · cases hlabel
        have hproper := hacts.proper (h.proper l (List.mem_of_getElem? hl))
        exact (hacts.held h).setPhase (hacts.kept.loops ▸ hl) hproper

theorem held_of_reachable (h : Reachable step start s) : Held s :=
  reachable_invariant held_start (fun _ _ _ hs hstep => held_step hs hstep) h

end Held

/-! ### What `stop()` closes -/

def IsClosed (s : Runs) : Part → Prop
  | .interface => s.bridge = none
  | .sockets => s.sockets = none
  | .sessions => s.scope = none

section Closing

variable {s s' : Runs} {part : Part}

theorem isClosed_close (callback : Option Nat) (part : Part) (s : Runs) :
    IsClosed (s.close callback part) part := by
  cases part with
  | interface => exact close_interface_bridge callback s
  | sockets =>
      show (s.close callback .sockets).sockets = none
      unfold close
      cases h : s.sockets with
      | none => exact h
      | some owner => rfl
  | sessions => rfl

theorem IsClosed.close (h : IsClosed s part) (callback : Option Nat) (other : Part) :
    IsClosed (s.close callback other) part := by
  cases part with
  | interface =>
      refine Option.eq_none_iff_forall_not_mem.mpr fun owner howner => ?_
      have hheld := close_bridge callback other howner
      rw [h] at hheld
      cases hheld
  | sockets =>
      refine Option.eq_none_iff_forall_not_mem.mpr fun owner howner => ?_
      have hheld := close_sockets callback other howner
      rw [h] at hheld
      cases hheld
  | sessions =>
      cases other with
      | interface =>
          unfold Runs.close
          cases s.bridge <;> exact h
      | sockets =>
          unfold Runs.close
          cases s.sockets <;> exact h
      | sessions => rfl

theorem Acts.isClosed {l : Loop} {phase : LoopPhase} (h : Acts s l phase s')
    (hs : IsClosed s part) : IsClosed s' part := by
  cases h with
  | closes _ => exact hs.close _ _
  | _ => cases part <;> exact hs

/-- No loop opens anything. -/
theorem isClosed_loop {index : Nat} {action : Action}
    (hstep : step s (.loop index action) = some s') (hs : IsClosed s part) : IsClosed s' part := by
  rcases step_cases hstep with ⟨_, hlabel, _⟩ | ⟨_, _, l, phase, mid, _, _, hacts, rfl⟩
  · cases hlabel
  · have hmid := hacts.isClosed hs
    cases part <;> exact hmid

theorem caller_loop {index : Nat} {action : Action}
    (hstep : step s (.loop index action) = some s') : s'.caller = s.caller := by
  rcases step_cases hstep with ⟨_, hlabel, _⟩ | ⟨_, _, l, phase, mid, _, _, hacts, rfl⟩
  · cases hlabel
  · exact hacts.kept.caller

/-- The rest of `stop()`, with the loops in between. -/
theorem closing_run (todo : List Part) {labels : List Label}
    (hcaller : s.caller = afterClose none none todo)
    (hlabels : callerLabels labels = List.replicate todo.length .close)
    (hpart : part ∈ todo ∨ IsClosed s part) (hrun : Library.run step s labels = some s') :
    s'.caller = .idle ∧ IsClosed s' part := by
  induction labels generalizing s todo with
  | nil =>
      cases hrun
      cases todo with
      | nil => exact ⟨hcaller, hpart.resolve_left List.not_mem_nil⟩
      | cons _ _ => cases hlabels
  | cons label rest ih =>
      obtain ⟨mid, hmid, hrest⟩ := run_cons.mp hrun
      cases label with
      | loop index action =>
          refine ih todo ?_ hlabels (hpart.imp_right (isClosed_loop hmid)) hrest
          rw [caller_loop hmid, hcaller]
      | caller label =>
          cases todo with
          | nil => cases hlabels
          | cons first todo =>
              obtain ⟨rfl, htail⟩ := List.cons.inj hlabels
              simp only [step, stepCaller, hcaller, afterClose] at hmid
              cases hmid
              refine ih todo rfl htail ?_ hrest
              rcases hpart with hpart | hclosed
              · rcases List.mem_cons.mp hpart with rfl | hmem
                · have hself := isClosed_close none part s
                  exact Or.inr (by cases part <;> exact hself)
                · exact Or.inl hmem
              · have hkept := hclosed.close none first
                exact Or.inr (by cases part <;> exact hkept)

theorem stop_run (part : Part) {labels : List Label} (hidle : s.caller = .idle)
    (hlabels : callerLabels labels = .stop :: List.replicate 3 .close)
    (hrun : Library.run step s labels = some s') : s'.caller = .idle ∧ IsClosed s' part := by
  induction labels generalizing s with
  | nil => cases hlabels
  | cons label rest ih =>
      obtain ⟨mid, hmid, hrest⟩ := run_cons.mp hrun
      cases label with
      | loop index action => exact ih ((caller_loop hmid).trans hidle) hlabels hrest
      | caller label =>
          obtain ⟨rfl, htail⟩ := List.cons.inj hlabels
          simp only [step, stepCaller, hidle] at hmid
          cases hmid
          exact closing_run stopOrder rfl htail (Or.inl (by cases part <;> decide)) hrest

end Closing

/-! ### The loops that are left -/

/-- Everything is closed, also the bridge of each loop that is left. -/
structure Quiet (s : Runs) : Prop where
  closed : ∀ part, IsClosed s part
  bridges : ∀ l ∈ s.loops, LoopKind.isBridge l.kind = true → l.run ∈ s.closedBridges
  proper : ∀ l ∈ s.loops, LoopPhase.IsProper l.phase

/-- A step of one of the loops. -/
def stepLoops (s : Runs) (label : Nat × Action) : Option Runs := s.step (.loop label.1 label.2)

/-- The steps with which loops come to their end. -/
def ends (_ : Runs) : Nat × Action → Bool
  | (_, .cancel) | (_, .close) => true
  | _ => false

def left (s : Runs) : Nat := (s.loops.map fun l => LoopPhase.left l.phase).sum

def AllEnded (s : Runs) : Prop := ∀ l ∈ s.loops, l.phase = .ended

section Quiet

variable {s s' : Runs} {l : Loop} {phase : LoopPhase}

theorem Quiet.cancelled (h : Quiet s) (hl : l ∈ s.loops) : s.cancelled l = true := by
  have hscope : s.scope = none := h.closed .sessions
  have hsockets : s.sockets = none := h.closed .sockets
  have hbridge := h.bridges l hl
  unfold Runs.cancelled
  cases hkind : l.kind with
  | cleartext | encrypted | periodic => simp [hscope]
  | receiveIpv4 | receiveIpv6 | send => simp [hsockets]
  | bridgeReader | bridgeWriter =>
      rw [hkind] at hbridge
      exact decide_eq_true (hbridge rfl)

/-- Nothing more has been sent or written. -/
def Silent (s s' : Runs) : Prop := s'.transmitted = s.transmitted ∧ s'.written = s.written

/-- Only what is on the pipes has changed. -/
structure PipesOnly (s s' : Runs) : Prop where
  run : s'.run = s.run
  scope : s'.scope = s.scope
  sockets : s'.sockets = s.sockets
  closedBridges : s'.closedBridges = s.closedBridges
  loops : s'.loops = s.loops
  transmitted : s'.transmitted = s.transmitted
  written : s'.written = s.written

theorem PipesOnly.silent (h : PipesOnly s s') : Silent s s' := ⟨h.transmitted, h.written⟩

theorem takes_pipesOnly {kind : LoopKind} (h : s.takes kind = some (phase, s')) :
    PipesOnly s s' := by
  unfold takes at h
  split at h
  iterate 4
    split at h
    · cases h
    · cases h
      exact ⟨rfl, rfl, rfl, rfl, rfl, rfl, rfl⟩
  all_goals cases h

theorem puts_pipesOnly {kind : LoopKind} {network : List (Tagged UdpDatagram)}
    {tun : List (Tagged Bytes)} (h : s.puts kind network tun = some (phase, s')) :
    PipesOnly s s' := by
  unfold puts at h
  split at h
  all_goals first
    | cases h
    | split at h
      · cases h
        exact ⟨rfl, rfl, rfl, rfl, rfl, rfl, rfl⟩
      · cases h

theorem fails_silent (h : s.fails l = (phase, s')) : Silent s s' := by
  unfold fails at h
  split at h
  · split at h <;> cases h <;> exact ⟨rfl, rfl⟩
  · split at h <;> cases h <;> exact ⟨rfl, rfl⟩
  · cases h
    exact ⟨rfl, rfl⟩

/-- A loop whose scope is cancelled sends and writes nothing. -/
theorem stepLoop_silent {action : Action} (hcancelled : s.cancelled l = true)
    (h : s.stepLoop l action = some (phase, s')) : Silent s s' := by
  unfold stepLoop at h
  split at h
  next => exact (takes_pipesOnly h).silent
  next =>
    split at h
    · cases h
      exact ⟨rfl, rfl⟩
    · cases h
  next =>
    split at h
    · cases h
      exact ⟨rfl, rfl⟩
    · cases h
  next =>
    split at h
    · cases h
    · cases h
      exact ⟨rfl, rfl⟩
  next =>
    split at h
    · cases h
    · cases h
      exact ⟨rfl, rfl⟩
  -- The two that would need what has been closed.
  next hkind _ =>
    split at h
    next hsocket => simp [Runs.cancelled, hkind, hsocket] at hcancelled
    next => cases h
  next hkind _ =>
    split at h
    next => cases h
    next hbridge => simp [Runs.cancelled, hkind, hbridge] at hcancelled
  next => exact (puts_pipesOnly h).silent
  next =>
    split at h
    · cases h
      exact ⟨rfl, rfl⟩
    · cases h
  iterate 5
    next => exact fails_silent (Option.some.inj h)
  next =>
    cases h
    exact ⟨(close_pipes _ _ s).transmitted, (close_pipes _ _ s).written⟩
  next => cases h

theorem stepLoops_eq_some {index : Nat} {action : Action}
    (h : stepLoops s (index, action) = some s') :
    ∃ l phase mid, s.loops[index]? = some l ∧ s.stepLoop l action = some (phase, mid) ∧
      s' = mid.setPhase index l phase := by
  simp only [stepLoops, step] at h
  split at h
  next => cases h
  next l hl =>
    split at h
    next => cases h
    next phase mid hstep => exact ⟨l, phase, mid, hl, hstep, (Option.some.inj h).symm⟩

theorem left_setPhase {index : Nat} (phase : LoopPhase) (hloops : s'.loops = s.loops)
    (hl : s.loops[index]? = some l) :
    (s'.setPhase index l phase).left + LoopPhase.left l.phase = s.left + LoopPhase.left phase := by
  show (((s'.loops.set index _).map _).sum) + _ = _
  rw [hloops]
  exact sum_map_set (fun l => LoopPhase.left l.phase) { l with phase := phase } hl

theorem Quiet.acts (h : Quiet s) (hacts : Acts s l phase s') : Quiet s' where
  closed := fun part => hacts.isClosed (h.closed part)
  bridges := by
    intro k hk hkind
    rw [hacts.kept.loops] at hk
    have hclosed := h.bridges k hk hkind
    cases hacts with
    | closes _ => exact closedBridges_close _ _ hclosed
    | bridgeCalls _ _ => exact List.mem_cons_of_mem _ hclosed
    | _ => exact hclosed
  proper := by
    rw [hacts.kept.loops]
    exact h.proper

theorem Quiet.step {label : Nat × Action} (h : Quiet s) (hstep : stepLoops s label = some s') :
    Quiet s' := by
  obtain ⟨l, phase, mid, hl, hloop, rfl⟩ := stepLoops_eq_some hstep
  have hacts := stepLoop_acts hloop
  have hmid := h.acts hacts
  refine ⟨?_, ?_, ?_⟩
  · intro part
    have hclosed := hmid.closed part
    cases part <;> exact hclosed
  · intro k hk hkind
    rcases List.mem_or_eq_of_mem_set hk with hk | rfl
    · exact hmid.bridges k hk hkind
    · exact hmid.bridges l (hacts.kept.loops ▸ List.mem_of_getElem? hl) hkind
  · intro k hk
    rcases List.mem_or_eq_of_mem_set hk with hk | rfl
    · exact hmid.proper k hk
    · exact hacts.proper (h.proper l (List.mem_of_getElem? hl))

theorem ends_spends {label : Nat × Action} (hends : ends s label = true)
    (hstep : stepLoops s label = some s') : s'.left < s.left := by
  obtain ⟨index, action⟩ := label
  obtain ⟨l, phase, mid, hl, hloop, rfl⟩ := stepLoops_eq_some hstep
  have hleft := left_setPhase phase (stepLoop_acts hloop).kept.loops hl
  have hless : LoopPhase.left phase < LoopPhase.left l.phase := by
    cases action with
    | cancel =>
        simp only [stepLoop] at hloop
        split at hloop
        next hcancel =>
          cases hloop
          cases hphase : l.phase with
          | calling _ | ended => simp [hphase, inBody] at hcancel
          | _ => exact Nat.succ_pos 4
        next => cases hloop
    | close =>
        cases hphase : l.phase with
        | calling parts =>
            cases parts with
            | nil => simp [stepLoop, hphase] at hloop
            | cons part parts =>
                simp only [stepLoop, hphase] at hloop
                cases hloop
                exact afterCall_left_lt part parts
        | _ => simp [stepLoop, hphase] at hloop
    | _ => cases hends
  omega

theorem stepLoops_left_le {label : Nat × Action} (hstep : stepLoops s label = some s') :
    s'.left ≤ s.left := by
  obtain ⟨l, phase, mid, hl, hloop, rfl⟩ := stepLoops_eq_some hstep
  have hacts := stepLoop_acts hloop
  have hleft := left_setPhase phase hacts.kept.loops hl
  have hle := hacts.left_le
  omega

/-- A loop that has not ended can be cancelled, or goes on with its `onFailure`. -/
theorem Quiet.ready (h : Quiet s) (hleft : ¬ AllEnded s) :
    ∃ label s', ends s label = true ∧ stepLoops s label = some s' := by
  obtain ⟨l, hl, hphase⟩ : ∃ l ∈ s.loops, l.phase ≠ .ended := by
    simpa [AllEnded] using hleft
  obtain ⟨index, hindex⟩ := List.getElem?_of_mem hl
  have hcancelled := h.cancelled hl
  cases hp : l.phase with
  | calling parts =>
      cases parts with
      | nil => exact absurd hp (h.proper l hl).1
      | cons part parts =>
          have hstep : (stepLoops s (index, .close)).isSome = true := by
            simp [stepLoops, Runs.step, hindex, stepLoop, hp]
          exact ⟨(index, .close), _, rfl, (Option.some_get hstep).symm⟩
  | ended => exact absurd hp hphase
  | _ =>
      have hstep : (stepLoops s (index, .cancel)).isSome = true := by
        simp [stepLoops, Runs.step, hindex, stepLoop, hp, hcancelled, inBody]
      exact ⟨(index, .cancel), _, rfl, (Option.some_get hstep).symm⟩

theorem windsDown : WindsDown stepLoops Quiet ends AllEnded left where
  keeps := fun h hstep => h.step hstep
  ready := fun h hover => h.ready hover
  spends := fun _ hends hstep => ends_spends hends hstep
  waits := fun _ _ hstep => stepLoops_left_le hstep

/-- Whatever the loops still do, they send and write nothing. -/
theorem Quiet.silent {labels : List (Nat × Action)} (h : Quiet s)
    (hrun : Library.run stepLoops s labels = some s') : Silent s s' := by
  have hinv : Quiet s' ∧ Silent s s' := by
    refine run_invariant (P := fun _ => True) (I := fun t => Quiet t ∧ Silent s t) ?_
      (fun _ _ => trivial) ⟨h, rfl, rfl⟩ hrun
    intro t label t' _ ht hstep
    obtain ⟨hquiet, hsilent⟩ := ht
    obtain ⟨l, phase, mid, hl, hloop, rfl⟩ := stepLoops_eq_some hstep
    have hmore := stepLoop_silent (hquiet.cancelled (List.mem_of_getElem? hl)) hloop
    exact ⟨hquiet.step hstep, hmore.1.trans hsilent.1, hmore.2.trans hsilent.2⟩
  exact hinv.2

theorem Quiet.left_le (h : Quiet s) : s.left ≤ 5 * s.loops.length := by
  have hbound := List.sum_le_card_nsmul (s.loops.map fun l => LoopPhase.left l.phase) 5 ?_
  · rw [List.length_map, nsmul_eq_mul, Nat.mul_comm] at hbound
    exact hbound
  · intro n hn
    obtain ⟨l, hl, rfl⟩ := List.mem_map.mp hn
    exact (h.proper l hl).2

theorem quiet_of_stop {labels : List Label} (hs : Reachable step start s)
    (hidle : s.caller = .idle) (hlabels : callerLabels labels = .stop :: List.replicate 3 .close)
    (hrun : Library.run step s labels = some s') : Quiet s' := by
  have hheld := held_of_reachable (hs.run hrun)
  have hclosed : ∀ part, IsClosed s' part := fun part => (stop_run part hidle hlabels hrun).2
  refine ⟨hclosed, ?_, hheld.proper⟩
  intro l hl hkind
  rcases hheld.bridges l hl hkind with hmem | hbridge | ⟨hstoring, _⟩
  · exact hmem
  · have hnone : s'.bridge = none := hclosed .interface
    rw [hnone] at hbridge
    cases hbridge
  · have hback : s'.caller = .idle := (stop_run .interface hidle hlabels hrun).1
    rw [hback] at hstoring
    cases hstoring

end Quiet

/-- When a call of `stop()` has returned, the loops of all runs send and write nothing more
until the next call, and there is always one that can be cancelled or goes on with its
`onFailure`, until they have all ended. -/
theorem stop_silences {s s' : Runs} {labels : List Label} (hs : Reachable step start s)
    (hidle : s.caller = .idle) (hlabels : callerLabels labels = [.stop, .close, .close, .close])
    (hrun : Library.run step s labels = some s') :
    (∀ later t, Library.run stepLoops s' later = some t →
      t.transmitted = s'.transmitted ∧ t.written = s'.written ∧
        ownSteps stepLoops ends s' later ≤ 5 * s'.loops.length ∧
        (AllEnded t ∨ ∃ label u, ends t label = true ∧ stepLoops t label = some u)) ∧
    ∃ later t, Library.run stepLoops s' later = some t ∧ AllEnded t := by
  have hquiet := quiet_of_stop hs hidle hlabels hrun
  refine ⟨?_, ?_⟩
  · intro later t hlater
    obtain ⟨htransmitted, hwritten⟩ := hquiet.silent hlater
    refine ⟨htransmitted, hwritten, ?_, ?_⟩
    · have hspent := windsDown.ownSteps_le hquiet hlater
      have hleft := hquiet.left_le
      omega
    · by_cases hover : AllEnded t
      · exact Or.inl hover
      · exact Or.inr (windsDown.ready (windsDown.keeps_run hquiet hlater) hover)
  · obtain ⟨later, t, hlater, _, hover⟩ := windsDown.completes hquiet
    exact ⟨later, t, hlater, hover⟩

/-- The send loop holds a datagram and the receive loop has met an error when the VPN is
stopped. -/
def heldLabels : List Label :=
  openLabels "a" ++ readLabels 0 ++ (sendLabels 0).take 4 ++ [throwLabel]

theorem stop_silences_held :
    ∃ s, Library.run step start (heldLabels ++ stopLabels) = some s ∧ s.transmitted = [] ∧
      (∃ l ∈ s.loops, l.phase = .datagram ⟨exampleDatagram, [1]⟩) ∧
      (∃ l ∈ s.loops, l.phase = .calling stopOrder) ∧
      ∃ later t, Library.run stepLoops s later = some t ∧ AllEnded t ∧ t.transmitted = [] := by
  have hmap : (Library.run step start heldLabels).map (fun s => decide (s.caller = .idle)) =
      some true := by
    decide +kernel
  obtain ⟨s₀, hfront, hidle⟩ := Option.map_eq_some_iff.mp hmap
  have hend : (Library.run step start (heldLabels ++ stopLabels)).map (fun s =>
      (s.transmitted, (s.loops[4]?).map fun l => l.phase, (s.loops[3]?).map fun l => l.phase)) =
      some ([], some (.datagram ⟨exampleDatagram, [1]⟩), some (.calling stopOrder)) := by
    decide +kernel
  obtain ⟨s, hrun, hs⟩ := Option.map_eq_some_iff.mp hend
  simp only [Prod.mk.injEq] at hs
  obtain ⟨hsent, hsend, hreceive⟩ := hs
  obtain ⟨send, hsendAt, hsendPhase⟩ := Option.map_eq_some_iff.mp hsend
  obtain ⟨receive, hreceiveAt, hreceivePhase⟩ := Option.map_eq_some_iff.mp hreceive
  obtain ⟨mid, hmid, hback⟩ := run_append.mp hrun
  rw [hfront] at hmid
  cases hmid
  obtain ⟨hsilent, later, t, hlater, hended⟩ :=
    stop_silences ⟨heldLabels, hfront⟩ (of_decide_eq_true hidle) rfl hback
  exact ⟨s, hrun, hsent, ⟨send, List.mem_of_getElem? hsendAt, hsendPhase⟩,
    ⟨receive, List.mem_of_getElem? hreceiveAt, hreceivePhase⟩, later, t, hlater, hended,
    (hsilent later t hlater).1.trans hsent⟩

end Runs
end WgKotlin
