import WgKotlin.Vpn.Stop

/-!
# The flow through an open VPN

Between the TUN and the network lie four bounded pipes and the loops around them, and
a loop that has something to put waits until there is room.  The pipes form no cycle,
so the loops do not wait for each other: when nothing more comes in, what has come in
is worked on and leaves, unless a session fails.  One datagram can become up to 256
packets, which is what the flush limit allows.
-/

namespace WgKotlin

open Proto Library Crypto

/-! ### What an iteration leaves to send -/

namespace Crypto

def Iteration.pending (it : Iteration) : Nat := it.pendingNetwork.length + it.pendingTun.length

theorem pending_handleAction (operation : String) (forwardsToTun : Bool)
    (entry : PeerSessionEntry) (action : PacketAction) (it : Iteration) :
    (handleAction operation forwardsToTun entry action it).1.pending ≤ it.pending + 1 := by
  cases action with
  | writeToNetwork packet =>
      unfold handleAction
      cases peerEndpoint entry with
      | error throwable => exact Nat.le_succ _
      | ok endpoint =>
          simp only [Iteration.pending, List.length_append, List.length_singleton]
          show it.pendingNetwork.length + 1 + it.pendingTun.length ≤ _
          omega
  | writeToTunIpv4 packet | writeToTunIpv6 packet =>
      cases forwardsToTun with
      | false => exact Nat.le_succ _
      | true =>
          simp only [handleAction, if_true, Iteration.pending, List.length_append,
            List.length_singleton]
          omega
  | _ => exact Nat.le_succ _

theorem pending_of_handleAction {operation : String} {forwardsToTun : Bool}
    {entry : PeerSessionEntry} {action : PacketAction} {it it' : Iteration}
    {result : Except Throwable Unit}
    (h : handleAction operation forwardsToTun entry action it = (it', result)) :
    it'.pending ≤ it.pending + 1 := by
  have hle := pending_handleAction operation forwardsToTun entry action it
  rw [h] at hle
  exact hle

/-- Each turn of the flush adds one packet at most. -/
theorem pending_flush {selected : PeerSessionEntry} {replies : Nat → Reply} {left handled : Nat}
    {action : PacketAction} {it : Iteration} :
    (flush selected replies left handled action it).1.pending ≤ it.pending + left := by
  fun_induction flush selected replies left handled action it with
  | case1 | case2 => exact Nat.le_add_right _ _
  | case3 _ _ _ _ _ _ _ hhandle | case4 _ _ _ _ _ hhandle | case5 _ _ _ _ _ _ hhandle =>
      exact (pending_of_handleAction hhandle).trans (Nat.add_le_add_left (Nat.le_add_left 1 _) _)
  | case6 _ _ _ _ _ next hhandle _ called _ _ ih =>
      have hle := pending_of_handleAction hhandle
      have hcall : called.pending = next.pending := rfl
      omega

theorem pending_cleartextIteration (packet : Bytes) (reply : Reply) (guarded : Guarded) :
    (cleartextIteration packet reply guarded).1.pending ≤ 1 := by
  unfold cleartextIteration
  simp only
  split
  · exact Nat.zero_le 1
  · exact Nat.zero_le 1
  · split
    · exact Nat.zero_le 1
    · exact pending_handleAction _ _ _ _ _

theorem pending_encryptedIteration (datagram : UdpDatagram) (replies : Nat → Reply)
    (guarded : Guarded) :
    (encryptedIteration datagram replies guarded).1.pending ≤ defaultMaxFlushIterations := by
  unfold encryptedIteration
  simp only
  split
  · exact Nat.zero_le _
  · exact Nat.zero_le _
  · split
    · exact Nat.zero_le _
    · exact pending_flush.trans (Nat.le_of_eq (Nat.zero_add _))

end Crypto

namespace Runs

/-! ### Where the loops stand -/

def LoopKind.isCrypto : LoopKind → Bool
  | .cleartext | .encrypted | .periodic => true
  | _ => false

/-- Where a loop can stand, by its kind. -/
def Fits : LoopKind → LoopPhase → Prop
  | _, .waiting | _, .calling _ | _, .ended => True
  | .cleartext, .packet _ | .encrypted, .datagram _ | .send, .datagram _
  | .bridgeWriter, .packet _ => True
  | .cleartext, .putting network tun | .encrypted, .putting network tun
  | .periodic, .putting network tun => network ≠ [] ∨ tun ≠ []
  | .receiveIpv4, .putting network tun | .receiveIpv6, .putting network tun =>
    network.length = 1 ∧ tun = []
  | .bridgeReader, .putting network tun => network = [] ∧ tun.length = 1
  | _, _ => False

section Fits

variable {s s' : Runs} {l : Loop} {kind : LoopKind} {phase : LoopPhase}

theorem fits_waiting (kind : LoopKind) : Fits kind .waiting := by
  cases kind <;> trivial

theorem fits_calling (kind : LoopKind) (parts : List Part) : Fits kind (.calling parts) := by
  cases kind <;> trivial

theorem fits_ended (kind : LoopKind) : Fits kind .ended := by
  cases kind <;> trivial

theorem fits_putting (hkind : LoopKind.isCrypto kind = true)
    {network : List (Tagged UdpDatagram)} {tun : List (Tagged Bytes)}
    (h : network ≠ [] ∨ tun ≠ []) : Fits kind (.putting network tun) := by
  cases kind with
  | cleartext | encrypted | periodic => exact h
  | _ => cases hkind

theorem fits_resume (hkind : LoopKind.isCrypto kind = true) (network : List (Tagged UdpDatagram))
    (tun : List (Tagged Bytes)) : Fits kind (resume network tun) := by
  cases network with
  | nil =>
      cases tun with
      | nil => exact fits_waiting kind
      | cons packet tun => exact fits_putting hkind (Or.inr (List.cons_ne_nil packet tun))
  | cons datagram network => exact fits_putting hkind (Or.inl (List.cons_ne_nil datagram network))

theorem fits_afterWork (hkind : LoopKind.isCrypto kind = true) (s : Runs) (label : LoopLabel)
    (runs : List Nat) : Fits kind (s.afterWork label runs) := by
  unfold afterWork
  split
  · exact fits_calling kind _
  · exact fits_resume hkind _ _

theorem isCrypto_of_workOn {replies : Nat → Reply} {label : LoopLabel} {runs : List Nat}
    (h : workOn replies kind phase = some (label, runs)) : LoopKind.isCrypto kind = true := by
  unfold workOn at h
  split at h
  · rfl
  · rfl
  · rfl
  · cases h

theorem fits_takes (h : s.takes kind = some (phase, s')) : Fits kind phase := by
  unfold takes at h
  split at h
  iterate 4
    split at h
    · cases h
    · cases h
      trivial
  all_goals cases h

theorem fits_puts {network : List (Tagged UdpDatagram)} {tun : List (Tagged Bytes)}
    (hfits : Fits kind (.putting network tun)) (h : s.puts kind network tun = some (phase, s')) :
    Fits kind phase := by
  unfold puts at h
  split at h
  iterate 6
    split at h
    · cases h
      exact fits_resume rfl _ _
    · cases h
  iterate 2
    split at h
    · cases h
      obtain ⟨hone, rfl⟩ := hfits
      rw [List.length_eq_zero_iff.mp (Nat.succ.inj hone)]
      exact fits_waiting _
    · cases h
  · split at h
    · cases h
      obtain ⟨rfl, hone⟩ := hfits
      rw [List.length_eq_zero_iff.mp (Nat.succ.inj hone)]
      exact fits_waiting _
    · cases h
  · cases h

theorem fits_fails (h : s.fails l = (phase, s')) : Fits kind phase := by
  unfold fails at h
  split at h
  · split at h <;> cases h
    · exact fits_ended kind
    · exact fits_calling kind _
  · split at h <;> cases h
    · exact fits_ended kind
    · exact fits_calling kind _
  · cases h
    exact fits_calling kind _

theorem stepLoop_fits {action : Action} (hfits : Fits l.kind l.phase)
    (h : s.stepLoop l action = some (phase, s')) : Fits l.kind phase := by
  unfold stepLoop at h
  split at h
  next => exact fits_takes h
  next hkind _ =>
    split at h
    · cases h
      rw [hkind]
      exact ⟨rfl, rfl⟩
    · cases h
  next hkind _ =>
    split at h
    · cases h
      rw [hkind]
      exact ⟨rfl, rfl⟩
    · cases h
  next hkind _ =>
    split at h
    · cases h
    · cases h
      rw [hkind]
      exact ⟨rfl, rfl⟩
  next =>
    split at h
    · cases h
    next hwork =>
      cases h
      exact fits_afterWork (isCrypto_of_workOn hwork) _ _ _
  next =>
    split at h
    · cases h
      exact fits_waiting _
    · cases h
  next =>
    split at h
    · cases h
    · cases h
      exact fits_waiting _
  next hphase =>
    rw [hphase] at hfits
    exact fits_puts hfits h
  next =>
    split at h
    · cases h
      exact fits_ended _
    · cases h
  iterate 5
    next => exact fits_fails (Option.some.inj h)
  next parts _ =>
    cases h
    cases parts with
    | nil => exact fits_ended _
    | cons part parts => exact fits_calling _ _
  next => cases h

theorem fits_step {label : Label} (h : ∀ l ∈ s.loops, Fits l.kind l.phase)
    (hstep : step s label = some s') : ∀ l ∈ s'.loops, Fits l.kind l.phase := by
  have hlaunch : ∀ (kinds : List LoopKind) (t : Runs), t.loops = s.loops →
      ∀ l ∈ (t.launchAll kinds).loops, Fits l.kind l.phase := by
    intro kinds t ht l hl
    rcases List.mem_append.mp hl with hl | hl
    · exact h l (ht ▸ hl)
    · obtain ⟨kind, _, rfl⟩ := List.mem_map.mp hl
      exact fits_waiting kind
  have hclose : ∀ callback part, (s.close callback part).loops = s.loops :=
    fun callback part => (close_kept callback part s).loops
  cases label with
  | caller label =>
      cases stepCaller_acts hstep with
      | opens _ | stops | reconciles _ _ | stores => exact h
      | closes _ | bindFails _ _ | rejected _ =>
          intro l hl
          exact h l (hclose _ _ ▸ hl)
      | launches => exact hlaunch cryptoLoops s rfl
      | binds ipv4 ipv6 => exact hlaunch (socketLoops ipv4 ipv6) _ (hclose _ _)
      | opensSession _ => exact hlaunch bridgeLoops _ (hclose _ _)
  | loop index action =>
      obtain ⟨l, phase, mid, hl, hloop, rfl⟩ := stepLoops_eq_some hstep
      intro k hk
      rcases List.mem_or_eq_of_mem_set hk with hk | rfl
      · exact h k ((stepLoop_acts hloop).kept.loops ▸ hk)
      · exact (stepLoop_fits (h l (List.mem_of_getElem? hl)) hloop :)

theorem fits_of_reachable (hs : Reachable step start s) : ∀ l ∈ s.loops, Fits l.kind l.phase :=
  reachable_invariant (I := fun s => ∀ l ∈ s.loops, Fits l.kind l.phase)
    (fun l hl => (by cases hl)) (fun _ _ _ h hstep => fits_step h hstep) hs

end Fits

/-! ### An open VPN that is left alone -/

/-- The steps that bring something in, and those that take the VPN down. -/
def disturbs : LoopKind → Action → Bool
  | _, .receiveDatagram _ | _, .readPacket _ | .periodic, .work _ | _, .throw | _, .close => true
  | _, _ => false

def stepFlow (s : Runs) (label : Nat × Action) : Option Runs :=
  match s.loops[label.1]? with
  | none => none
  | some l => if disturbs l.kind label.2 then none else stepLoops s label

/-- The steps that carry something further. -/
def carries (_ : Runs) : Nat × Action → Bool
  | (_, .cancel) => false
  | _ => true

/-- The sockets, the sessions and the bridge are those of the current run, and its loops are
at work. -/
structure Serving (s : Runs) : Prop where
  scope : s.scope = some s.run
  sockets : s.sockets = some s.run
  bridge : s.run ∉ s.closedBridges
  loops : ∀ kind ∈ [LoopKind.cleartext, .encrypted, .send, .bridgeWriter],
    ∃ l ∈ s.loops, l.kind = kind ∧ l.run = s.run
  alive : ∀ l ∈ s.loops, l.run = s.run → inBody l.phase = true

instance (s : Runs) : Decidable (Serving s) :=
  decidable_of_iff (s.scope = some s.run ∧ s.sockets = some s.run ∧ s.run ∉ s.closedBridges ∧
      (∀ kind ∈ [LoopKind.cleartext, .encrypted, .send, .bridgeWriter],
        ∃ l ∈ s.loops, l.kind = kind ∧ l.run = s.run) ∧
      ∀ l ∈ s.loops, l.run = s.run → inBody l.phase = true)
    ⟨fun h => ⟨h.1, h.2.1, h.2.2.1, h.2.2.2.1, h.2.2.2.2⟩,
      fun h => ⟨h.scope, h.sockets, h.bridge, h.loops, h.alive⟩⟩

/-- A loop of the current run has met an error. -/
def Failed (s : Runs) : Prop := ∃ l ∈ s.loops, l.run = s.run ∧ ∃ parts, l.phase = .calling parts

/-- Nothing is on its way. -/
structure Emptied (s : Runs) : Prop where
  tunIn : s.tunIn = []
  tunOut : s.tunOut = []
  networkIn : s.networkIn = []
  networkOut : s.networkOut = []
  loops : ∀ l ∈ s.loops, l.run = s.run → l.phase = .waiting

/-! ### How far everything has to go -/

/-- The steps that what a loop holds has still to take, and all that may come of it. -/
def phaseLoad : LoopKind → LoopPhase → Nat
  | .send, .datagram _ | .bridgeWriter, .packet _ => 1
  | .cleartext, .packet _ => 4
  | .encrypted, .datagram _ => 769
  | .cleartext, .putting network tun | .encrypted, .putting network tun
  | .periodic, .putting network tun => 3 * (network.length + tun.length)
  | .bridgeReader, .putting _ _ => 6
  | .receiveIpv4, .putting _ _ | .receiveIpv6, .putting _ _ => 771
  | _, _ => 0

def pipeLoad (s : Runs) : Nat :=
  2 * s.networkOut.length + 2 * s.tunOut.length + 5 * s.tunIn.length + 770 * s.networkIn.length

def load (s : Runs) : Nat := (s.loops.map fun l => phaseLoad l.kind l.phase).sum + s.pipeLoad

section Flow

variable {s s' : Runs} {l : Loop} {kind : LoopKind} {phase : LoopPhase}

theorem phaseLoad_waiting (kind : LoopKind) : phaseLoad kind .waiting = 0 := by
  cases kind <;> rfl

theorem phaseLoad_calling (kind : LoopKind) (parts : List Part) :
    phaseLoad kind (.calling parts) = 0 := by
  cases kind <;> rfl

theorem phaseLoad_ended (kind : LoopKind) : phaseLoad kind .ended = 0 := by
  cases kind <;> rfl

theorem phaseLoad_resume (hkind : LoopKind.isCrypto kind = true)
    (network : List (Tagged UdpDatagram)) (tun : List (Tagged Bytes)) :
    phaseLoad kind (resume network tun) = 3 * (network.length + tun.length) := by
  cases network with
  | nil =>
      cases tun with
      | nil => exact phaseLoad_waiting kind
      | cons packet tun =>
          cases kind with
          | cleartext | encrypted | periodic => rfl
          | _ => cases hkind
  | cons datagram network =>
      cases kind with
      | cleartext | encrypted | periodic => rfl
      | _ => cases hkind

theorem takes_load (h : s.takes kind = some (phase, s')) :
    phaseLoad kind phase + s'.pipeLoad < s.pipeLoad := by
  unfold takes at h
  split at h
  iterate 4
    split at h
    · cases h
    next hpipe =>
      cases h
      simp only [phaseLoad, pipeLoad, hpipe, List.length_cons]
      omega
  all_goals cases h

theorem puts_load {network : List (Tagged UdpDatagram)} {tun : List (Tagged Bytes)}
    (hfits : Fits kind (.putting network tun)) (h : s.puts kind network tun = some (phase, s')) :
    phaseLoad kind phase + s'.pipeLoad < phaseLoad kind (.putting network tun) + s.pipeLoad := by
  unfold puts at h
  split at h
  iterate 6
    split at h
    · cases h
      rw [phaseLoad_resume rfl]
      simp only [phaseLoad, pipeLoad, List.length_append, List.length_cons, List.length_nil]
      omega
    · cases h
  iterate 2
    split at h
    · cases h
      obtain ⟨hone, rfl⟩ := hfits
      rw [List.length_eq_zero_iff.mp (Nat.succ.inj hone)]
      simp only [resume, phaseLoad, pipeLoad, List.length_append, List.length_singleton]
      omega
    · cases h
  · split at h
    · cases h
      obtain ⟨rfl, hone⟩ := hfits
      rw [List.length_eq_zero_iff.mp (Nat.succ.inj hone)]
      simp only [resume, phaseLoad, pipeLoad, List.length_append, List.length_singleton]
      omega
    · cases h
  · cases h

theorem phaseLoad_afterWork (hkind : LoopKind.isCrypto kind = true) (label : LoopLabel)
    (runs : List Nat) :
    phaseLoad kind (s.afterWork label runs) ≤ 3 * (label.iteration s.world.guarded).1.pending := by
  unfold afterWork
  split
  · rw [phaseLoad_calling]
    exact Nat.zero_le _
  next it hit =>
    rw [phaseLoad_resume hkind, hit, List.length_map, List.length_map]
    exact Nat.le_refl _

/-- An iteration makes at most as much as was put down for it. -/
theorem work_load {replies : Nat → Reply} {label : LoopLabel} {runs : List Nat}
    (hkind : kind ≠ .periodic) (h : workOn replies kind phase = some (label, runs)) :
    phaseLoad kind (s.afterWork label runs) < phaseLoad kind phase := by
  have hle := phaseLoad_afterWork (s := s) (isCrypto_of_workOn h) label runs
  unfold workOn at h
  split at h
  next held =>
    cases h
    have hone := pending_cleartextIteration held.value (replies 0) s.world.guarded
    simp only [LoopLabel.iteration] at hle
    simp only [phaseLoad] at hle ⊢
    omega
  next held =>
    cases h
    have hbound := pending_encryptedIteration held.value replies s.world.guarded
    simp only [LoopLabel.iteration, defaultMaxFlushIterations] at hle hbound
    simp only [phaseLoad] at hle ⊢
    omega
  next => exact absurd rfl hkind
  next => cases h

theorem inBody_resume (network : List (Tagged UdpDatagram)) (tun : List (Tagged Bytes)) :
    inBody (resume network tun) = true := by
  unfold resume
  split <;> rfl

theorem inBody_puts {network : List (Tagged UdpDatagram)} {tun : List (Tagged Bytes)}
    (h : s.puts kind network tun = some (phase, s')) : inBody phase = true := by
  unfold puts at h
  split at h
  all_goals first
    | cases h
    | split at h
      · cases h
        exact inBody_resume _ _
      · cases h

theorem inBody_takes (h : s.takes kind = some (phase, s')) : inBody phase = true := by
  unfold takes at h
  split at h
  iterate 4
    split at h
    · cases h
    · cases h
      rfl
  all_goals cases h

theorem afterWork_cases (s : Runs) (label : LoopLabel) (runs : List Nat) :
    inBody (s.afterWork label runs) = true ∨ ∃ parts, s.afterWork label runs = .calling parts := by
  unfold afterWork
  split
  · exact Or.inr ⟨_, rfl⟩
  · exact Or.inl (inBody_resume _ _)

/-- What is carried further has less to go, and the loop goes on or has met an error. -/
theorem stepLoop_carries {action : Action} (hfits : Fits l.kind l.phase)
    (hundisturbed : disturbs l.kind action = false) (hcancel : action ≠ .cancel)
    (h : s.stepLoop l action = some (phase, s')) :
    phaseLoad l.kind phase + s'.pipeLoad < phaseLoad l.kind l.phase + s.pipeLoad ∧
      (inBody phase = true ∨ ∃ parts, phase = .calling parts) := by
  cases action with
  | take =>
      cases hphase : l.phase with
      | waiting =>
          simp only [stepLoop, hphase] at h
          rw [phaseLoad_waiting, Nat.zero_add]
          exact ⟨takes_load h, Or.inl (inBody_takes h)⟩
      | _ => simp [stepLoop, hphase] at h
  | work replies =>
      simp only [stepLoop] at h
      split at h
      next => cases h
      next label runs hwork =>
        cases h
        have hkind : l.kind ≠ .periodic := by
          intro hkind
          simp [disturbs, hkind] at hundisturbed
        exact ⟨Nat.add_lt_add_right (work_load hkind hwork) _, afterWork_cases s label runs⟩
  | put =>
      cases hphase : l.phase with
      | putting network tun =>
          simp only [stepLoop, hphase] at h
          rw [hphase] at hfits
          exact ⟨puts_load hfits h, Or.inl (inBody_puts h)⟩
      | _ => simp [stepLoop, hphase] at h
  | transmit =>
      unfold stepLoop at h
      split at h <;> try contradiction
      next held hkind hphase =>
        split at h
        · cases h
          rw [hkind, hphase]
          exact ⟨Nat.add_lt_add_right Nat.zero_lt_one s.pipeLoad, Or.inl rfl⟩
        · cases h
  | write =>
      unfold stepLoop at h
      split at h <;> try contradiction
      next held hkind hphase =>
        split at h
        · cases h
        · cases h
          rw [hkind, hphase]
          exact ⟨Nat.add_lt_add_right Nat.zero_lt_one s.pipeLoad, Or.inl rfl⟩
  | cancel => exact absurd rfl hcancel
  | _ => simp [disturbs] at hundisturbed

theorem stepFlow_eq_some {index : Nat} {action : Action}
    (h : stepFlow s (index, action) = some s') :
    ∃ l phase mid, s.loops[index]? = some l ∧ disturbs l.kind action = false ∧
      s.stepLoop l action = some (phase, mid) ∧ s' = mid.setPhase index l phase := by
  simp only [stepFlow] at h
  split at h
  next => cases h
  next l hl =>
    split at h
    next => cases h
    next hundisturbed =>
      obtain ⟨l', phase, mid, hl', hloop, hs'⟩ := stepLoops_eq_some h
      rw [hl] at hl'
      cases hl'
      exact ⟨l, phase, mid, hl, eq_false_of_ne_true hundisturbed, hloop, hs'⟩

theorem load_setPhase {mid : Runs} {index : Nat} (phase : LoopPhase) (hloops : mid.loops = s.loops)
    (hl : s.loops[index]? = some l) :
    (mid.setPhase index l phase).load + phaseLoad l.kind l.phase + s.pipeLoad =
      s.load + phaseLoad l.kind phase + mid.pipeLoad := by
  have hsum := sum_map_set (fun l => phaseLoad l.kind l.phase) { l with phase := phase } hl
  have hmid : (mid.setPhase index l phase).load =
      ((s.loops.set index { l with phase := phase }).map
        fun l => phaseLoad l.kind l.phase).sum + mid.pipeLoad := by
    rw [← hloops]
    rfl
  have hs : s.load = (s.loops.map fun l => phaseLoad l.kind l.phase).sum + s.pipeLoad := rfl
  simp only at hsum
  omega

theorem stepFlow_spends {label : Nat × Action} (hfits : ∀ l ∈ s.loops, Fits l.kind l.phase)
    (hcarries : carries s label = true) (hstep : stepFlow s label = some s') :
    s'.load < s.load := by
  obtain ⟨index, action⟩ := label
  obtain ⟨l, phase, mid, hl, hundisturbed, hloop, rfl⟩ := stepFlow_eq_some hstep
  have hcancel : action ≠ .cancel := by
    rintro rfl
    cases hcarries
  have hless := (stepLoop_carries (hfits l (List.mem_of_getElem? hl)) hundisturbed hcancel hloop).1
  have hload := load_setPhase phase (stepLoop_acts hloop).kept.loops hl
  omega

theorem stepFlow_waits {label : Nat × Action} (hcarries : carries s label = false)
    (hstep : stepFlow s label = some s') : s'.load ≤ s.load := by
  obtain ⟨index, action⟩ := label
  obtain ⟨l, phase, mid, hl, hundisturbed, hloop, rfl⟩ := stepFlow_eq_some hstep
  cases action with
  | cancel =>
      simp only [stepLoop] at hloop
      split at hloop
      next =>
        cases hloop
        have hload := load_setPhase (s := s) .ended rfl hl
        rw [phaseLoad_ended] at hload
        omega
      next => cases hloop
  | _ => cases hcarries

/-! ### What an undisturbed step keeps -/

/-- The sockets, the sessions and the bridges. -/
structure Undisturbed (s s' : Runs) : Prop where
  run : s'.run = s.run
  scope : s'.scope = s.scope
  sockets : s'.sockets = s.sockets
  closedBridges : s'.closedBridges = s.closedBridges

theorem PipesOnly.undisturbed (h : PipesOnly s s') : Undisturbed s s' :=
  ⟨h.run, h.scope, h.sockets, h.closedBridges⟩

theorem stepLoop_undisturbed {action : Action} (hundisturbed : disturbs l.kind action = false)
    (h : s.stepLoop l action = some (phase, s')) : Undisturbed s s' := by
  cases action with
  | take =>
      cases hphase : l.phase with
      | waiting =>
          simp only [stepLoop, hphase] at h
          exact (takes_pipesOnly h).undisturbed
      | _ => simp [stepLoop, hphase] at h
  | put =>
      cases hphase : l.phase with
      | putting network tun =>
          simp only [stepLoop, hphase] at h
          exact (puts_pipesOnly h).undisturbed
      | _ => simp [stepLoop, hphase] at h
  | work replies =>
      simp only [stepLoop] at h
      split at h
      · cases h
      · cases h
        exact ⟨rfl, rfl, rfl, rfl⟩
  | transmit =>
      unfold stepLoop at h
      split at h <;> try contradiction
      split at h
      · cases h
        exact ⟨rfl, rfl, rfl, rfl⟩
      · cases h
  | write =>
      unfold stepLoop at h
      split at h <;> try contradiction
      split at h
      · cases h
      · cases h
        exact ⟨rfl, rfl, rfl, rfl⟩
  | cancel =>
      simp only [stepLoop] at h
      split at h
      · cases h
        exact ⟨rfl, rfl, rfl, rfl⟩
      · cases h
  | _ => simp [disturbs] at hundisturbed

/-- The loops of the current run are not cancelled. -/
theorem Serving.not_cancelled (h : Serving s) (hrun : l.run = s.run) : s.cancelled l = false := by
  unfold cancelled
  cases l.kind with
  | cleartext | encrypted | periodic => simp [h.scope, hrun]
  | receiveIpv4 | receiveIpv6 | send => simp [h.sockets, hrun]
  | bridgeReader | bridgeWriter => simp [h.bridge, hrun]

theorem Serving.step {label : Nat × Action} (h : Serving s)
    (hfits : ∀ l ∈ s.loops, Fits l.kind l.phase) (hstep : stepFlow s label = some s') :
    Serving s' ∨ Failed s' := by
  obtain ⟨index, action⟩ := label
  obtain ⟨l, phase, mid, hl, hundisturbed, hloop, rfl⟩ := stepFlow_eq_some hstep
  have hsame := stepLoop_undisturbed hundisturbed hloop
  have hloops := (stepLoop_acts hloop).kept.loops
  have hmem := List.mem_of_getElem? hl
  have hindex : index < mid.loops.length := by
    rw [hloops]
    exact (List.getElem?_eq_some_iff.mp hl).1
  have hself : { l with phase := phase } ∈ (mid.setPhase index l phase).loops :=
    List.mem_set hindex _
  -- A loop of this run goes on, or its error is the failure.
  by_cases hgoes : l.run = s.run → inBody phase = true
  · refine Or.inl ⟨?_, ?_, ?_, ?_, ?_⟩
    · exact hsame.scope.trans (h.scope.trans (congrArg some hsame.run.symm))
    · exact hsame.sockets.trans (h.sockets.trans (congrArg some hsame.run.symm))
    · show mid.run ∉ mid.closedBridges
      rw [hsame.run, hsame.closedBridges]
      exact h.bridge
    · intro kind hkind
      obtain ⟨k, hk, hkkind, hkrun⟩ := h.loops kind hkind
      show ∃ k ∈ mid.loops.set index { l with phase := phase }, k.kind = kind ∧ k.run = mid.run
      rw [hloops, hsame.run]
      obtain ⟨j, hj⟩ := List.getElem?_of_mem hk
      by_cases hij : index = j
      · subst hij
        rw [hl] at hj
        cases hj
        exact ⟨{ l with phase := phase }, hloops ▸ hself, hkkind, hkrun⟩
      · refine ⟨k, List.mem_of_getElem? (i := j) ?_, hkkind, hkrun⟩
        rw [List.getElem?_set_ne hij, hj]
    · intro k hk hkrun
      have hkrun : k.run = s.run := hkrun.trans hsame.run
      rcases List.mem_or_eq_of_mem_set hk with hk | rfl
      · exact h.alive k (hloops ▸ hk) hkrun
      · exact hgoes hkrun
  · obtain ⟨hrun, hbody⟩ := Classical.not_imp.mp hgoes
    have hcancel : action ≠ .cancel := by
      rintro rfl
      simp [stepLoop, h.not_cancelled hrun] at hloop
    rcases (stepLoop_carries (hfits l hmem) hundisturbed hcancel hloop).2 with hin | ⟨parts, hcalls⟩
    · exact absurd hin hbody
    · exact Or.inr ⟨_, hself, hrun.trans hsame.run.symm, parts, hcalls⟩

theorem stepLoop_calling {action : Action} {parts : List Part} (hphase : l.phase = .calling parts)
    (hundisturbed : disturbs l.kind action = false) : s.stepLoop l action = none := by
  cases action with
  | work replies =>
      have hnone : workOn replies l.kind l.phase = none := by
        rw [hphase]
        cases l.kind <;> rfl
      simp only [stepLoop, hnone]
  | cancel => simp [stepLoop, hphase, inBody]
  | take | put | transmit | write => simp [stepLoop, hphase]
  | _ => simp [disturbs] at hundisturbed

/-- A loop that has met an error stays there. -/
theorem Failed.step {label : Nat × Action} (h : Failed s) (hstep : stepFlow s label = some s') :
    Failed s' := by
  obtain ⟨index, action⟩ := label
  obtain ⟨l, phase, mid, hl, hundisturbed, hloop, rfl⟩ := stepFlow_eq_some hstep
  have hsame := stepLoop_undisturbed hundisturbed hloop
  have hloops := (stepLoop_acts hloop).kept.loops
  obtain ⟨k, hk, hrun, parts, hphase⟩ := h
  obtain ⟨j, hj⟩ := List.getElem?_of_mem hk
  have hne : index ≠ j := by
    rintro rfl
    rw [hl] at hj
    cases hj
    rw [stepLoop_calling hphase hundisturbed] at hloop
    cases hloop
  refine ⟨k, List.mem_of_getElem? (i := j) ?_, hrun.trans hsame.run.symm, parts, hphase⟩
  show (mid.loops.set index _)[j]? = some k
  rw [hloops, List.getElem?_set_ne hne, hj]

/-! ### There is always something to do -/

/-- There is room where the loop puts what it has. -/
def HasRoom (s : Runs) : LoopKind → Prop
  | .cleartext | .encrypted | .periodic =>
    s.networkOut.length < defaultCapacity ∧ s.tunOut.length < defaultCapacity
  | .receiveIpv4 | .receiveIpv6 => s.networkIn.length < defaultCapacity
  | .bridgeReader => s.tunIn.length < defaultCapacity
  | .send | .bridgeWriter => True

theorem stepFlow_isSome (action : Action) (hl : l ∈ s.loops)
    (hundisturbed : disturbs l.kind action = false) (hcancel : action ≠ .cancel)
    (h : (s.stepLoop l action).isSome = true) :
    ∃ label s', carries s label = true ∧ stepFlow s label = some s' := by
  obtain ⟨index, hindex⟩ := List.getElem?_of_mem hl
  obtain ⟨⟨phase, mid⟩, hstep⟩ := Option.isSome_iff_exists.mp h
  refine ⟨(index, action), mid.setPhase index l phase, ?_, ?_⟩
  · cases action with
    | cancel => exact absurd rfl hcancel
    | _ => rfl
  · simp only [stepFlow, hindex, hundisturbed, stepLoops, step, hstep]
    rfl

theorem puts_isSome {network : List (Tagged UdpDatagram)} {tun : List (Tagged Bytes)}
    (hfits : Fits kind (.putting network tun)) (hroom : HasRoom s kind) :
    (s.puts kind network tun).isSome = true := by
  cases kind with
  | cleartext | encrypted | periodic =>
      obtain ⟨hnetwork, htun⟩ := hroom
      cases network with
      | cons datagram network => simp [puts, hnetwork]
      | nil =>
          cases tun with
          | cons packet tun => simp [puts, htun]
          | nil => rcases hfits with hne | hne <;> exact absurd rfl hne
  | receiveIpv4 | receiveIpv6 =>
      obtain ⟨hone, rfl⟩ := hfits
      obtain ⟨datagram, rfl⟩ := List.length_eq_one_iff.mp hone
      have hroom : s.networkIn.length < defaultCapacity := hroom
      simp [puts, hroom]
  | bridgeReader =>
      obtain ⟨rfl, hone⟩ := hfits
      obtain ⟨packet, rfl⟩ := List.length_eq_one_iff.mp hone
      have hroom : s.tunIn.length < defaultCapacity := hroom
      simp [puts, hroom]
  | send | bridgeWriter => cases hfits

/-- A loop that holds something gets rid of it. -/
theorem Serving.busy_ready (h : Serving s) (hl : l ∈ s.loops) (hrun : l.run = s.run)
    (hfits : Fits l.kind l.phase) (hroom : HasRoom s l.kind) (hbusy : l.phase ≠ .waiting) :
    ∃ label s', carries s label = true ∧ stepFlow s label = some s' := by
  have hbody := h.alive l hl hrun
  cases hphase : l.phase with
  | waiting => exact absurd hphase hbusy
  | calling _ | ended =>
      rw [hphase] at hbody
      cases hbody
  | packet held =>
      rw [hphase] at hfits
      cases hkind : l.kind with
      | cleartext =>
          refine stepFlow_isSome (.work fun _ => .ok .done) hl ?_ (by simp) ?_
          · simp [disturbs, hkind]
          · simp [stepLoop, hkind, hphase, workOn]
      | bridgeWriter =>
          refine stepFlow_isSome .write hl ?_ (by simp) ?_
          · simp [disturbs]
          · simp [stepLoop, hkind, hphase, hrun, h.bridge]
      | _ =>
          rw [hkind] at hfits
          cases hfits
  | datagram held =>
      rw [hphase] at hfits
      cases hkind : l.kind with
      | encrypted =>
          refine stepFlow_isSome (.work fun _ => .ok .done) hl ?_ (by simp) ?_
          · simp [disturbs, hkind]
          · simp [stepLoop, hkind, hphase, workOn]
      | send =>
          refine stepFlow_isSome .transmit hl ?_ (by simp) ?_
          · simp [disturbs]
          · simp [stepLoop, hkind, hphase, hrun, h.sockets]
      | _ =>
          rw [hkind] at hfits
          cases hfits
  | putting network tun =>
      refine stepFlow_isSome .put hl ?_ (by simp) ?_
      · simp [disturbs]
      · simp only [stepLoop, hphase]
        rw [hphase] at hfits
        exact puts_isSome hfits hroom

/-- A loop that waits takes what is on its pipe. -/
theorem waiting_ready (hl : l ∈ s.loops) (hwaiting : l.phase = .waiting)
    (h : (s.takes l.kind).isSome = true) :
    ∃ label s', carries s label = true ∧ stepFlow s label = some s' := by
  refine stepFlow_isSome .take hl ?_ (by simp) ?_
  · simp [disturbs]
  · simp only [stepLoop, hwaiting]
    exact h

/-- What is on a pipe is taken, or the loop that takes it gets rid of what it holds. -/
theorem Serving.pipe_ready (h : Serving s) (hfits : ∀ l ∈ s.loops, Fits l.kind l.phase)
    (kind : LoopKind) (hkind : kind ∈ [LoopKind.cleartext, .encrypted, .send, .bridgeWriter])
    (hroom : HasRoom s kind) (htakes : (s.takes kind).isSome = true) :
    ∃ label s', carries s label = true ∧ stepFlow s label = some s' := by
  obtain ⟨l, hl, rfl, hrun⟩ := h.loops kind hkind
  by_cases hwaiting : l.phase = .waiting
  · exact waiting_ready hl hwaiting htakes
  · exact h.busy_ready hl hrun (hfits l hl) hroom hwaiting

theorem Serving.ready (h : Serving s) (hfits : ∀ l ∈ s.loops, Fits l.kind l.phase)
    (hover : ¬ Emptied s) : ∃ label s', carries s label = true ∧ stepFlow s label = some s' := by
  have hcapacity : 0 < defaultCapacity := by decide
  -- The pipes are looked at from the network and the TUN inwards: one that is empty has room.
  cases hnetworkOut : s.networkOut with
  | cons item rest =>
      exact h.pipe_ready hfits .send (by simp) trivial (by simp [takes, hnetworkOut])
  | nil =>
  cases htunOut : s.tunOut with
  | cons item rest =>
      exact h.pipe_ready hfits .bridgeWriter (by simp) trivial (by simp [takes, htunOut])
  | nil =>
  have hroom : s.networkOut.length < defaultCapacity ∧ s.tunOut.length < defaultCapacity := by
    rw [hnetworkOut, htunOut]
    exact ⟨hcapacity, hcapacity⟩
  cases hnetworkIn : s.networkIn with
  | cons item rest =>
      exact h.pipe_ready hfits .encrypted (by simp) hroom (by simp [takes, hnetworkIn])
  | nil =>
  cases htunIn : s.tunIn with
  | cons item rest =>
      exact h.pipe_ready hfits .cleartext (by simp) hroom (by simp [takes, htunIn])
  | nil =>
      have hall : ∀ kind, HasRoom s kind := by
        intro kind
        cases kind with
        | cleartext | encrypted | periodic => exact hroom
        | receiveIpv4 | receiveIpv6 =>
            show s.networkIn.length < _
            rw [hnetworkIn]
            exact hcapacity
        | bridgeReader =>
            show s.tunIn.length < _
            rw [htunIn]
            exact hcapacity
        | send | bridgeWriter => trivial
      by_cases hloops : ∀ l ∈ s.loops, l.run = s.run → l.phase = .waiting
      · exact absurd ⟨htunIn, htunOut, hnetworkIn, hnetworkOut, hloops⟩ hover
      · simp only [not_forall] at hloops
        obtain ⟨l, hl, hrun, hbusy⟩ := hloops
        exact h.busy_ready hl hrun (hfits l hl) (hall l.kind) hbusy

/-- The VPN is open or a loop has met an error. -/
structure Flowing (s : Runs) : Prop where
  fits : ∀ l ∈ s.loops, Fits l.kind l.phase
  serving : Serving s ∨ Failed s

theorem Flowing.step {label : Nat × Action} (h : Flowing s) (hstep : stepFlow s label = some s') :
    Flowing s' := by
  obtain ⟨index, action⟩ := label
  have hloop : Runs.step s (.loop index action) = some s' := by
    obtain ⟨l, phase, mid, hl, _, hstepped, rfl⟩ := stepFlow_eq_some hstep
    simp only [Runs.step, hl, hstepped]
  refine ⟨fits_step h.fits hloop, ?_⟩
  rcases h.serving with hserving | hfailed
  · exact hserving.step h.fits hstep
  · exact Or.inr (hfailed.step hstep)

theorem flow_windsDown :
    WindsDown stepFlow Flowing carries (fun s => Emptied s ∨ Failed s) load where
  keeps := fun h hstep => h.step hstep
  ready := by
    intro s h hover
    obtain ⟨hemptied, hfailed⟩ := not_or.mp hover
    exact (h.serving.resolve_right hfailed).ready h.fits hemptied
  spends := fun h hcarries hstep => stepFlow_spends h.fits hcarries hstep
  waits := fun _ hcarries hstep => stepFlow_waits hcarries hstep

end Flow

/-- While a VPN is open its loops do not wait for each other: when nothing more comes in and
no session fails, each packet on the way is carried further until there is none left, in at
most as many steps as `load` counts. -/
theorem data_plane_drains {s : Runs} (hs : Reachable step start s) (hserving : Serving s) :
    (∀ labels t, Library.run stepFlow s labels = some t →
      ownSteps stepFlow carries s labels ≤ s.load ∧
        (Emptied t ∨ Failed t ∨
          ∃ label u, carries t label = true ∧ stepFlow t label = some u)) ∧
    ∃ labels t, Library.run stepFlow s labels = some t ∧ (Emptied t ∨ Failed t) := by
  have hflowing : Flowing s := ⟨fits_of_reachable hs, Or.inl hserving⟩
  refine ⟨?_, ?_⟩
  · intro labels t hrun
    have hspent := flow_windsDown.ownSteps_le hflowing hrun
    refine ⟨by omega, ?_⟩
    by_cases hover : Emptied t ∨ Failed t
    · rcases hover with hemptied | hfailed
      · exact Or.inl hemptied
      · exact Or.inr (Or.inl hfailed)
    · exact Or.inr (Or.inr (flow_windsDown.ready (flow_windsDown.keeps_run hflowing hrun) hover))
  · obtain ⟨labels, t, hrun, _, hover⟩ := flow_windsDown.completes hflowing
    exact ⟨labels, t, hrun, hover⟩

/-- A second packet has been read and waits for the first one. -/
def flowingLabels : List Label :=
  openLabels "a" ++ readLabels 0 ++ (sendLabels 0).take 2 ++ readLabels 0

theorem data_plane_drains_flowing :
    ∃ s, Library.run step start flowingLabels = some s ∧ s.tunIn.length = 1 ∧ s.load = 8 ∧
      ∃ labels t, Library.run stepFlow s labels = some t ∧ (Emptied t ∨ Failed t) := by
  have hend : (Library.run step start flowingLabels).map (fun s =>
      (decide (Serving s), s.tunIn.length, s.load)) = some (true, 1, 8) := by
    decide +kernel
  obtain ⟨s, hrun, hs⟩ := Option.map_eq_some_iff.mp hend
  simp only [Prod.mk.injEq] at hs
  obtain ⟨hserving, htunIn, hload⟩ := hs
  exact ⟨s, hrun, htunIn, hload,
    (data_plane_drains ⟨_, hrun⟩ (of_decide_eq_true hserving)).2⟩

end Runs
end WgKotlin
