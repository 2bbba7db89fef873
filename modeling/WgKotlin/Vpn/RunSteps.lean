import WgKotlin.Vpn.Runs

/-!
# What the loops of a VPN can do

The step of a loop as a relation, and what it leaves alone.
-/

namespace WgKotlin

open Proto Library Crypto

namespace Runs

/-- What a step of a loop can be. -/
inductive Acts (s : Runs) (l : Loop) : LoopPhase → Runs → Prop
  | cleartextTakes {held : Tagged Bytes} {rest : List (Tagged Bytes)}
      (hphase : l.phase = .waiting) (h : s.tunIn = held :: rest) :
      Acts s l (.packet held) { s with tunIn := rest }
  | encryptedTakes {held : Tagged UdpDatagram} {rest : List (Tagged UdpDatagram)}
      (hphase : l.phase = .waiting) (h : s.networkIn = held :: rest) :
      Acts s l (.datagram held) { s with networkIn := rest }
  | sendTakes {held : Tagged UdpDatagram} {rest : List (Tagged UdpDatagram)}
      (hphase : l.phase = .waiting) (h : s.networkOut = held :: rest) :
      Acts s l (.datagram held) { s with networkOut := rest }
  | writerTakes {held : Tagged Bytes} {rest : List (Tagged Bytes)}
      (hphase : l.phase = .waiting) (h : s.tunOut = held :: rest) :
      Acts s l (.packet held) { s with tunOut := rest }
  | receives (datagram : UdpDatagram) (hphase : l.phase = .waiting)
      (hsocket : s.sockets = some l.run) : Acts s l (.putting [⟨datagram, [l.run]⟩] []) s
  | reads (packet : Bytes) (hphase : l.phase = .waiting) (hbridge : l.run ∉ s.closedBridges) :
      Acts s l (.putting [] [⟨packet, [l.run]⟩]) s
  | works {replies : Nat → Reply} {label : LoopLabel} {runs : List Nat}
      (hwork : workOn replies l.kind l.phase = some (label, runs)) :
      Acts s l (s.afterWork label runs) (s.worked label runs)
  | transmits {held : Tagged UdpDatagram} (hphase : l.phase = .datagram held)
      (hsocket : s.sockets = some l.run) :
      Acts s l .waiting { s with transmitted := (l.run, held) :: s.transmitted }
  | writes {held : Tagged Bytes} (hphase : l.phase = .packet held)
      (hbridge : l.run ∉ s.closedBridges) :
      Acts s l .waiting { s with written := (l.run, held) :: s.written }
  | putsNetworkOut {item : Tagged UdpDatagram} {network : List (Tagged UdpDatagram)}
      {tun : List (Tagged Bytes)} (hphase : l.phase = .putting (item :: network) tun) :
      Acts s l (resume network tun) { s with networkOut := s.networkOut ++ [item] }
  | putsTunOut {item : Tagged Bytes} {tun : List (Tagged Bytes)}
      (hphase : l.phase = .putting [] (item :: tun)) :
      Acts s l (resume [] tun) { s with tunOut := s.tunOut ++ [item] }
  | putsNetworkIn {item : Tagged UdpDatagram} {network : List (Tagged UdpDatagram)}
      {tun : List (Tagged Bytes)} (hphase : l.phase = .putting (item :: network) tun) :
      Acts s l (resume network tun) { s with networkIn := s.networkIn ++ [item] }
  | putsTunIn {item : Tagged Bytes} {network : List (Tagged UdpDatagram)}
      {tun : List (Tagged Bytes)} (hphase : l.phase = .putting network (item :: tun)) :
      Acts s l (resume network tun) { s with tunIn := s.tunIn ++ [item] }
  | ends (hbody : inBody l.phase = true) : Acts s l .ended s
  | calls (hbody : inBody l.phase = true) : Acts s l (.calling stopOrder) s
  | bridgeCalls (hbody : inBody l.phase = true) (hbridge : l.run ∉ s.closedBridges) :
      Acts s l (.calling (.interface :: stopOrder))
        { s with closedBridges := l.run :: s.closedBridges }
  | closes {part : Part} {parts : List Part} (hphase : l.phase = .calling (part :: parts)) :
      Acts s l (afterCall parts) (s.close (some l.run) part)

section Inversion

variable {s s' : Runs} {l : Loop} {phase : LoopPhase}

theorem takes_acts (hphase : l.phase = .waiting) (h : s.takes l.kind = some (phase, s')) :
    Acts s l phase s' := by
  unfold takes at h
  split at h
  · split at h
    · cases h
    next held rest hpipe =>
      cases h
      exact .cleartextTakes hphase hpipe
  · split at h
    · cases h
    next held rest hpipe =>
      cases h
      exact .encryptedTakes hphase hpipe
  · split at h
    · cases h
    next held rest hpipe =>
      cases h
      exact .sendTakes hphase hpipe
  · split at h
    · cases h
    next held rest hpipe =>
      cases h
      exact .writerTakes hphase hpipe
  · cases h
  · cases h
  · cases h
  · cases h

theorem puts_acts {network : List (Tagged UdpDatagram)} {tun : List (Tagged Bytes)}
    (hphase : l.phase = .putting network tun)
    (h : s.puts l.kind network tun = some (phase, s')) : Acts s l phase s' := by
  unfold puts at h
  split at h
  all_goals first
    | cases h
    | split at h
      · cases h
        first
          | exact .putsNetworkOut hphase
          | exact .putsTunOut hphase
          | exact .putsNetworkIn hphase
          | exact .putsTunIn hphase
      · cases h

theorem fails_acts (hbody : inBody l.phase = true) (h : s.fails l = (phase, s')) :
    Acts s l phase s' := by
  unfold fails at h
  split at h
  · split at h
    · cases h
      exact .ends hbody
    next hbridge =>
      cases h
      exact .bridgeCalls hbody hbridge
  · split at h
    · cases h
      exact .ends hbody
    next hbridge =>
      cases h
      exact .bridgeCalls hbody hbridge
  · cases h
    exact .calls hbody

theorem stepLoop_acts {action : Action} (h : s.stepLoop l action = some (phase, s')) :
    Acts s l phase s' := by
  unfold stepLoop at h
  split at h
  next hphase => exact takes_acts hphase h
  next datagram hkind hphase =>
    split at h
    next hsocket =>
      cases h
      exact .receives datagram hphase hsocket
    next => cases h
  next datagram hkind hphase =>
    split at h
    next hsocket =>
      cases h
      exact .receives datagram hphase hsocket
    next => cases h
  next packet hkind hphase =>
    split at h
    next => cases h
    next hbridge =>
      cases h
      exact .reads packet hphase hbridge
  next replies =>
    split at h
    next => cases h
    next label runs hwork =>
      cases h
      exact .works hwork
  next held hkind hphase =>
    split at h
    next hsocket =>
      cases h
      exact .transmits hphase hsocket
    next => cases h
  next held hkind hphase =>
    split at h
    next => cases h
    next hbridge =>
      cases h
      exact .writes hphase hbridge
  next network tun hphase => exact puts_acts hphase h
  next =>
    split at h
    next hcancel =>
      cases h
      exact .ends (Bool.and_eq_true_iff.mp hcancel).2
    next => cases h
  -- The five places where a loop throws are in its body.
  iterate 5
    next hphase => exact fails_acts (by rw [hphase]; rfl) (Option.some.inj h)
  next part parts hphase =>
    cases h
    exact .closes hphase
  next => cases h

/-- A loop that moves has not ended. -/
theorem Acts.alive (h : Acts s l phase s') : l.phase ≠ .ended := by
  intro hended
  cases h with
  | works hwork =>
      rw [hended] at hwork
      cases hkind : l.kind <;> rw [hkind] at hwork <;> cases hwork
  | ends hbody | calls hbody | bridgeCalls hbody =>
      rw [hended] at hbody
      cases hbody
  | receives _ hphase | reads _ hphase =>
      rw [hended] at hphase
      cases hphase
  | cleartextTakes hphase | encryptedTakes hphase | sendTakes hphase | writerTakes hphase
  | transmits hphase | writes hphase | putsNetworkOut hphase | putsTunOut hphase
  | putsNetworkIn hphase | putsTunIn hphase | closes hphase =>
      rw [hended] at hphase
      cases hphase

end Inversion

/-! ### What is left alone -/

/-- The caller, the loops and the number of the run. -/
structure Kept (s s' : Runs) : Prop where
  run : s'.run = s.run
  caller : s'.caller = s.caller
  loops : s'.loops = s.loops
  sessionsRun : s'.sessionsRun = s.sessionsRun

/-- The sockets, the bridge and what has been closed. -/
structure SameOwners (s s' : Runs) : Prop where
  sockets : s'.sockets = s.sockets
  bridge : s'.bridge = s.bridge
  closes : s'.closes = s.closes

/-- The pipes and what has left them for good. -/
structure SamePipes (s s' : Runs) : Prop where
  tunIn : s'.tunIn = s.tunIn
  tunOut : s'.tunOut = s.tunOut
  networkIn : s'.networkIn = s.networkIn
  networkOut : s'.networkOut = s.networkOut
  transmitted : s'.transmitted = s.transmitted
  written : s'.written = s.written

theorem close_kept (callback : Option Nat) (part : Part) (s : Runs) :
    Kept s (s.close callback part) := by
  cases part with
  | interface =>
      unfold close
      cases s.bridge <;> exact ⟨rfl, rfl, rfl, rfl⟩
  | sockets =>
      unfold close
      cases s.sockets <;> exact ⟨rfl, rfl, rfl, rfl⟩
  | sessions => exact ⟨rfl, rfl, rfl, rfl⟩

theorem close_pipes (callback : Option Nat) (part : Part) (s : Runs) :
    SamePipes s (s.close callback part) := by
  cases part with
  | interface =>
      unfold close
      cases s.bridge <;> exact ⟨rfl, rfl, rfl, rfl, rfl, rfl⟩
  | sockets =>
      unfold close
      cases s.sockets <;> exact ⟨rfl, rfl, rfl, rfl, rfl, rfl⟩
  | sessions => exact ⟨rfl, rfl, rfl, rfl, rfl, rfl⟩

/-- What is there after a close was there before. -/
theorem close_sockets (callback : Option Nat) (part : Part) {s : Runs} {owner : Nat}
    (h : (s.close callback part).sockets = some owner) : s.sockets = some owner := by
  cases part with
  | interface =>
      unfold close at h
      cases hbridge : s.bridge <;> rw [hbridge] at h <;> exact h
  | sockets =>
      unfold close at h
      cases hsockets : s.sockets <;> simp [hsockets] at h
  | sessions => exact h

theorem close_bridge (callback : Option Nat) (part : Part) {s : Runs} {owner : Nat}
    (h : (s.close callback part).bridge = some owner) : s.bridge = some owner := by
  cases part with
  | interface =>
      unfold close at h
      cases hbridge : s.bridge <;> simp [hbridge] at h
  | sockets =>
      unfold close at h
      cases hsockets : s.sockets <;> rw [hsockets] at h <;> exact h
  | sessions => exact h

/-- A close is recorded with its callback and with the run of what was there. -/
theorem close_closes (callback : Option Nat) (part : Part) {s : Runs} {c : Close}
    (h : c ∈ (s.close callback part).closes) :
    c ∈ s.closes ∨ (c.callback = callback ∧
      (s.bridge = some c.owner ∨ s.sockets = some c.owner ∨ s.sessionsRun = c.owner)) := by
  cases part with
  | interface =>
      unfold close at h
      cases hbridge : s.bridge with
      | none =>
          rw [hbridge] at h
          exact Or.inl h
      | some owner =>
          rw [hbridge] at h
          rcases List.mem_cons.mp h with rfl | h
          · exact Or.inr ⟨rfl, Or.inl rfl⟩
          · exact Or.inl h
  | sockets =>
      unfold close at h
      cases hsockets : s.sockets with
      | none =>
          rw [hsockets] at h
          exact Or.inl h
      | some owner =>
          rw [hsockets] at h
          rcases List.mem_cons.mp h with rfl | h
          · exact Or.inr ⟨rfl, Or.inr (Or.inl rfl)⟩
          · exact Or.inl h
  | sessions =>
      simp only [close] at h
      split at h
      · exact Or.inl h
      · rcases List.mem_cons.mp h with rfl | h
        · exact Or.inr ⟨rfl, Or.inr (Or.inr rfl)⟩
        · exact Or.inl h

theorem Acts.kept {s s' : Runs} {l : Loop} {phase : LoopPhase} (h : Acts s l phase s') :
    Kept s s' := by
  cases h with
  | closes => exact close_kept _ _ _
  | _ => exact ⟨rfl, rfl, rfl, rfl⟩

/-- Only the callback of a loop closes something. -/
theorem Acts.owners {s s' : Runs} {l : Loop} {phase : LoopPhase} (h : Acts s l phase s') :
    SameOwners s s' ∨ ∃ part, s' = s.close (some l.run) part := by
  cases h with
  | closes => exact Or.inr ⟨_, rfl⟩
  | _ => exact Or.inl ⟨rfl, rfl, rfl⟩

/-! ### The caller -/

/-- What a step of the caller can be. -/
inductive CallerActs (s : Runs) : CallerLabel → Runs → Prop
  | opens (config : ParsedVpnConfiguration) :
      CallerActs s (.openVpn config) { s with caller := .closing none stopOrder (some config) }
  | stops : CallerActs s .stop { s with caller := .closing none stopOrder none }
  | closes {callback : Option Nat} {part : Part} {parts : List Part}
      {next : Option ParsedVpnConfiguration}
      (hcaller : s.caller = .closing callback (part :: parts) next) :
      CallerActs s .close
        { s.close callback part with caller := afterClose callback next parts }
  | reconciles (factory : String → FactoryReply) {config : ParsedVpnConfiguration}
      (hcaller : s.caller = .reconciling config) :
      CallerActs s (.reconcile factory)
        { s with
          run := s.run + 1
          sessionsRun := s.run + 1
          world := reconcileSessions factory config s.world
          caller := afterReconcile (reconcileSessions factory config s.world).outcome }
  | launches :
      CallerActs s .launch
        { s.launchAll cryptoLoops with
          scope := some s.run
          world := clearStats s.world
          caller := .binding }
  | binds (ipv4 ipv6 : Bool) :
      CallerActs s (.bind ipv4 ipv6)
        { (s.close none .sockets).launchAll (socketLoops ipv4 ipv6) with
          sockets := some (s.close none .sockets).run
          caller := .opening }
  | bindFails (ipv4 ipv6 : Bool) :
      CallerActs s (.bind ipv4 ipv6) { s.close none .sockets with caller := .idle }
  | opensSession (accepted : Bool) :
      CallerActs s (.openSession accepted)
        { (s.close none .interface).launchAll bridgeLoops with caller := .storing }
  | rejected (accepted : Bool) :
      CallerActs s (.openSession accepted)
        { s.close none .interface with
          caller := .closing (some (s.close none .interface).run) stopOrder none }
  | stores : CallerActs s .store { s with bridge := some s.run, caller := .idle }

theorem stepCaller_acts {s s' : Runs} {label : CallerLabel} (h : s.stepCaller label = some s') :
    CallerActs s label s' := by
  unfold stepCaller at h
  split at h
  next config hcaller =>
    cases h
    exact .opens config
  next hcaller =>
    cases h
    exact .stops
  next callback part parts next hcaller =>
    cases h
    exact .closes hcaller
  next factory config hcaller =>
    cases h
    exact .reconciles factory hcaller
  next hcaller =>
    cases h
    exact .launches
  next ipv4 ipv6 hcaller =>
    simp only at h
    split at h
    next =>
      cases h
      exact .binds ipv4 ipv6
    next =>
      cases h
      exact .bindFails ipv4 ipv6
  next accepted hcaller =>
    simp only at h
    split at h
    next =>
      cases h
      exact .opensSession accepted
    next =>
      cases h
      exact .rejected accepted
  next hcaller =>
    cases h
    exact .stores
  next => cases h

/-- What a step of the system can be. -/
theorem step_cases {s s' : Runs} {label : Label} (h : step s label = some s') :
    (∃ callerLabel, label = .caller callerLabel ∧ CallerActs s callerLabel s') ∨
      ∃ index action l phase mid, label = .loop index action ∧ s.loops[index]? = some l ∧
        Acts s l phase mid ∧ s' = mid.setPhase index l phase := by
  cases label with
  | caller callerLabel => exact Or.inl ⟨callerLabel, rfl, stepCaller_acts h⟩
  | loop index action =>
      rw [step] at h
      split at h
      next => cases h
      next l hl =>
        split at h
        next => cases h
        next phase mid hstep =>
          cases h
          exact Or.inr ⟨index, action, l, phase, mid, rfl, hl, stepLoop_acts hstep, rfl⟩

end Runs
end WgKotlin
