import WgKotlin.Crypto.Manager
import WgKotlin.Translate

/-!
# The three managers of a VPN

`CryptoSessionManagerImpl`, `SocketManagerImpl` and `JvmInterfaceManager` as `Vpn`
starts and stops them, one call after the other.  A call of `reconcileSessions` is
the run of its steps with nothing in between.
-/

namespace WgKotlin

open Proto Library Crypto

/-! ### Sessions -/

/-- What the factory is given at this point of a call. -/
def replyFor (factory : String → FactoryReply) (call : Call) : FactoryReply :=
  match call.phase with
  | .creating (publicKey :: _) => factory publicKey
  -- There is no call of the factory in the other phases.
  | _ => .threw .indexOutOfBounds

/-- At most that many steps are left of a call. -/
def remainingSteps (call : Call) : Nat :=
  match call.phase with
  | .creating remaining =>
    2 * remaining.length + call.createdSessions.length + call.previousSessions.entries.length + 3
  | .rollback remaining _ => remaining.length + 1
  | .closing remaining => remaining.length + 1

/-- The steps of a call one after the other. -/
def finishCall (factory : String → FactoryReply) : Nat → World → World
  | 0, w => w
  | fuel + 1, w =>
    match w.call with
    | none => w
    | some call => finishCall factory fuel (advance w call (replyFor factory call))

/-- `reconcileSessions` -/
def reconcileSessions (factory : String → FactoryReply) (config : ParsedVpnConfiguration)
    (w : World) : World :=
  -- Calls come one after the other: none is left of an earlier one.
  let w := startCall { w with call := none } config
  match w.call with
  | none => w
  | some call => finishCall factory (remainingSteps call) w

/-- Every step of a call brings it closer to its end, where it has an outcome. -/
theorem remainingSteps_advance (w : World) (call : Call) (reply : FactoryReply) :
    ((advance w call reply).call = none ∧ ∃ r, (advance w call reply).outcome = some r) ∨
      ∃ call', (advance w call reply).call = some call' ∧
        remainingSteps call' < remainingSteps call := by
  unfold advance
  cases hphase : call.phase with
  | creating remaining =>
      right
      cases remaining with
      | nil =>
          refine ⟨_, rfl, ?_⟩
          simp only [remainingSteps, hphase]
          omega
      | cons publicKey remaining =>
          have hsteps : remainingSteps call = 2 * remaining.length + 2 +
              call.createdSessions.length + call.previousSessions.entries.length + 3 := by
            simp only [remainingSteps, hphase, List.length_cons]
            omega
          have hstep := reconcilePeer_step w call publicKey remaining reply
          simp only
          generalize reconcilePeer w call publicKey remaining reply = w' at hstep
          cases hstep with
          | threw throwable =>
              refine ⟨_, rfl, ?_⟩
              rw [hsteps]
              simp only [remainingSteps]
              omega
          | inactive session throwable =>
              refine ⟨_, rfl, ?_⟩
              rw [hsteps]
              simp only [remainingSteps]
              omega
          | reused previous hprevious hwants hactive =>
              refine ⟨_, rfl, ?_⟩
              rw [hsteps]
              simp only [remainingSteps, Call.keep]
              omega
          | created peer peerIndex entry hentry hwants =>
              refine ⟨_, rfl, ?_⟩
              rw [hsteps]
              simp only [remainingSteps, Call.keep, Call.addCreated, List.length_append,
                List.length_singleton]
              omega
  | rollback remaining throwable =>
      cases remaining with
      | nil => exact Or.inl ⟨rfl, _, rfl⟩
      | cons entry remaining =>
          refine Or.inr ⟨_, rfl, ?_⟩
          simp only [remainingSteps, hphase, List.length_cons]
          omega
  | closing remaining =>
      cases remaining with
      | nil => exact Or.inl ⟨rfl, _, rfl⟩
      | cons previous remaining =>
          refine Or.inr ⟨_, rfl, ?_⟩
          simp only [remainingSteps, hphase, List.length_cons]
          omega

theorem remainingSteps_pos (call : Call) : 0 < remainingSteps call := by
  unfold remainingSteps
  split
  · omega
  · omega
  · omega

/-- With that many steps a call returns, and what each of its steps keeps holds then. -/
theorem finishCall_invariant {factory : String → FactoryReply} {P : World → Prop}
    (hstep : ∀ w call, P w → w.call = some call → P (advance w call (replyFor factory call)))
    {fuel : Nat} {w : World} (hw : P w)
    (hfuel : ∀ call, w.call = some call → remainingSteps call ≤ fuel) :
    P (finishCall factory fuel w) ∧ (finishCall factory fuel w).call = none := by
  induction fuel generalizing w with
  | zero =>
      cases hcall : w.call with
      | none => exact ⟨hw, hcall⟩
      | some call =>
          exact absurd (hfuel call hcall) (Nat.not_le_of_lt (remainingSteps_pos call))
  | succ fuel ih =>
      rw [finishCall]
      cases hcall : w.call with
      | none => exact ⟨hw, hcall⟩
      | some call =>
          refine ih (hstep w call hw hcall) fun call' hcall' => ?_
          have hle := hfuel call hcall
          rcases remainingSteps_advance w call (replyFor factory call) with
            ⟨hend, _⟩ | ⟨next, hnext, hlt⟩
          · rw [hend] at hcall'
            cases hcall'
          · rw [hnext, Option.some.injEq] at hcall'
            subst hcall'
            omega

theorem reconcileSessions_invariant {factory : String → FactoryReply} {P : World → Prop}
    (hstep : ∀ w call, P w → w.call = some call → P (advance w call (replyFor factory call)))
    {config : ParsedVpnConfiguration} {w : World}
    (hstart : P (startCall { w with call := none } config)) :
    P (reconcileSessions factory config w) ∧
      (reconcileSessions factory config w).call = none := by
  unfold reconcileSessions
  simp only
  split
  next hnone => exact ⟨hstart, hnone⟩
  next call hcall =>
    refine finishCall_invariant hstep hstart fun call' hcall' => ?_
    rw [hcall, Option.some.injEq] at hcall'
    rw [hcall']

/-- `reconcileSessions` returns or throws. -/
theorem reconcileSessions_returns (factory : String → FactoryReply)
    (config : ParsedVpnConfiguration) (w : World) :
    (reconcileSessions factory config w).call = none ∧
      ∃ r, (reconcileSessions factory config w).outcome = some r := by
  have hreturns : ((reconcileSessions factory config w).call = none →
      ∃ r, (reconcileSessions factory config w).outcome = some r) ∧
        (reconcileSessions factory config w).call = none := by
    refine reconcileSessions_invariant (P := fun w => w.call = none → ∃ r, w.outcome = some r)
      (fun w call _ _ hend => ?_) ?_
    · rcases remainingSteps_advance w call (replyFor factory call) with ⟨_, h⟩ | ⟨_, hnext, _⟩
      · exact h
      · rw [hnext] at hend
        cases hend
    · unfold startCall
      split
      · exact fun _ => ⟨_, rfl⟩
      · exact fun h => (by cases h)
  exact ⟨hreturns.2, hreturns.1 hreturns.2⟩

/-- The sessions and the loops that work with them. -/
structure CryptoManager where
  world : World
  /-- The scope of the loops. -/
  scope : Bool

namespace CryptoManager

def hasActiveSessions (m : CryptoManager) : Bool :=
  m.world.sessionEntriesByPeer.values.any fun entry => m.world.isActive entry.session.id

/-- `start`, where the last argument tells whether the loops can be launched. -/
def start (m : CryptoManager) (launch : Except Throwable Unit) :
    CryptoManager × Except Throwable Unit :=
  let guarded := { m.world.guarded with peerStatsByPublicKey := LinkedMap.empty }
  ({ world := { m.world with guarded := guarded }, scope := true }, launch)

/-- The loop of `stop`, where a session may throw as it is closed. -/
def closeSessions (closes : Nat → Except Throwable Unit) :
    List PeerSessionEntry → World → World × Except Throwable Unit
  | [], w => (w, .ok ())
  | entry :: rest, w =>
    match closes entry.session.id with
    | .error throwable => (w.close entry.session, .error throwable)
    | .ok () => closeSessions closes rest (w.close entry.session)

def noSessions : Guarded :=
  { sessionEntriesByPeer := LinkedMap.empty, peerStatsByPublicKey := LinkedMap.empty }

def stop (closes : Nat → Except Throwable Unit) (m : CryptoManager) :
    CryptoManager × Except Throwable Unit :=
  match closeSessions closes m.world.sessionEntriesByPeer.values m.world with
  | (w, .error throwable) => ({ world := w, scope := false }, .error throwable)
  | (w, .ok ()) => ({ world := { w with guarded := noSessions }, scope := false }, .ok ())

theorem stop_scope (closes : Nat → Except Throwable Unit) (m : CryptoManager) :
    (m.stop closes).1.scope = false := by
  unfold stop
  split
  · rfl
  · rfl

end CryptoManager

/-! ### Sockets -/

/-- A bound socket, by the port of its local address. -/
structure Socket where
  port : Int32
  deriving DecidableEq, Repr

/-- What `bind` returns for the two unspecified addresses. -/
structure Udp where
  bindIpv6 : Int32 → Except Throwable Socket
  bindIpv4 : Int32 → Except Throwable Socket

structure SocketManager where
  running : Bool
  ipv4Socket : Option Socket
  ipv6Socket : Option Socket
  selectorManager : Bool
  scope : Bool
  deriving DecidableEq, Repr

namespace SocketManager

def stopped : SocketManager where
  running := false
  ipv4Socket := none
  ipv6Socket := none
  selectorManager := false
  scope := false

/-- `stop`, where the selector may throw as it is closed. -/
def stop (closes : Except Throwable Unit) (m : SocketManager) :
    SocketManager × Except Throwable Unit :=
  if !m.running then (m, .ok ())
  else
    match if m.selectorManager then closes else .ok () with
    | .error throwable => ({ m with running := false }, .error throwable)
    | .ok () => (stopped, .ok ())

/-- The port of the IPv4 socket follows the one that the system has chosen. -/
def ipv4Port (listenPort : Int32) : Option Socket → Int32
  | some socket => if listenPort = 0 then socket.port else listenPort
  | none => listenPort

/-- A socket that cannot be bound leaves the field as it was. -/
def bound (field : Option Socket) : Except Throwable Socket → Option Socket
  | .ok socket => some socket
  | .error _ => field

def start (udp : Udp) (listenPort : Int32) (closes : Except Throwable Unit) (m : SocketManager) :
    SocketManager × Except Throwable Unit :=
  match m.stop closes with
  | (m, .error throwable) => (m, .error throwable)
  | (m, .ok ()) =>
    let ipv6Socket := bound m.ipv6Socket (udp.bindIpv6 listenPort)
    let ipv4Socket := bound m.ipv4Socket (udp.bindIpv4 (ipv4Port listenPort ipv6Socket))
    let m := { m with ipv4Socket := ipv4Socket, ipv6Socket := ipv6Socket }
    if ipv4Socket.isNone && ipv6Socket.isNone then
      (m, .error (.illegalState "Failed to bind UDP socket for IPv4 and IPv6"))
    else ({ m with running := true, selectorManager := true, scope := true }, .ok ())

end SocketManager

/-! ### The interface -/

structure InterfaceManager where
  activeBridge : Bool
  currentConfig : Option TunSessionConfig

namespace InterfaceManager

def stopped : InterfaceManager := { activeBridge := false, currentConfig := none }

def isRunning (m : InterfaceManager) : Bool := m.activeBridge

end InterfaceManager

end WgKotlin
