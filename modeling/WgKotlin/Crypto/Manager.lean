import WgKotlin.Crypto.Loops
import WgKotlin.Library.Run
import WgKotlin.Library.Ledger

/-!
# The session manager

`CryptoSessionManagerImpl` as a labelled transition system.  A call of
`reconcileSessions` takes one step per peer, one step for the swap under
`reconcileMutex` and one step per session it closes, and iterations of the loops
may come between any two of them.  The environment decides what the factory
does, what sessions answer and when a session stops being active.
-/

namespace WgKotlin
namespace Crypto

open Proto Util Kotlin Library

/-! ### The plan of a call -/

def resolvePeer (peer : ParsedVpnPeer) : Except Throwable ParsedVpnPeer :=
  if peer.endpointAddress.isSome then .ok peer
  else Kotlin.error ("Peer `" ++ peer.publicKey ++ "` has no endpoint address")

/-- `keys.sorted()` -/
def sortedKeys (keys : List String) : List String := sortedBy id keys

structure Plan where
  desiredPeers : LinkedMap String ParsedVpnPeer
  desiredIndexes : LinkedMap String Nat
  deriving DecidableEq

/-- `reconcileSessions` up to its snapshot of the sessions. -/
def plan (config : ParsedVpnConfiguration) : Except Throwable Plan := do
  requireUniqueParsedPeerPublicKeys config.peers
  requireUserspacePeerEndpoints config.peers
  requireDistinctAllowedIpOwnership config.peers
  let resolvedPeers ← mapAll resolvePeer config.peers
  let desiredPeers := LinkedMap.empty.putAll (resolvedPeers.map fun peer => (peer.publicKey, peer))
  let desiredIndexes := LinkedMap.empty.putAll ((sortedKeys desiredPeers.keys).zipIdx 1)
  .ok { desiredPeers := desiredPeers, desiredIndexes := desiredIndexes }

def getValue {ν : Type} (m : LinkedMap String ν) (key : String) : Except Throwable ν :=
  match m.get key with
  | some v => .ok v
  | none => .error (.noSuchElement ("Key " ++ key ++ " is missing in the map."))

/-! ### States -/

/-- Where a call stands: at a peer of the creation loop, in the handler that
closes what it created, or past the swap with sessions left to look at. -/
inductive Phase
  | creating (remaining : List String)
  | rollback (remaining : List PeerSessionEntry) (throwable : Throwable)
  | closing (remaining : List (String × PeerSessionEntry))
  deriving DecidableEq

/-- A running call of `reconcileSessions` with its local variables. -/
structure Call where
  config : ParsedVpnConfiguration
  plan : Plan
  previousSessions : LinkedMap String PeerSessionEntry
  nextSessions : LinkedMap String PeerSessionEntry := LinkedMap.empty
  createdSessions : List PeerSessionEntry := []
  phase : Phase
  deriving DecidableEq

inductive Event
  | created (session : PeerSession) (isActive : Bool)
  | closed (session : PeerSession)
  | called (session : PeerSession)
  deriving DecidableEq

/-- The manager, the sessions that exist and the history, last event first.
`outcome` is how the last call ended. -/
structure World where
  guarded : Guarded
  call : Option Call
  outcome : Option (Except Throwable Unit)
  isActive : Nat → Bool
  nextId : Nat
  trace : List Event

namespace World

def init : World where
  guarded := { sessionEntriesByPeer := LinkedMap.empty, peerStatsByPublicKey := LinkedMap.empty }
  call := none
  outcome := none
  isActive := fun _ => false
  nextId := 0
  trace := []

def sessionEntriesByPeer (w : World) : LinkedMap String PeerSessionEntry :=
  w.guarded.sessionEntriesByPeer

def setActive (w : World) (id : Nat) (active : Bool) : World :=
  { w with isActive := fun i => if i = id then active else w.isActive i }

/-- `session.close()` -/
def close (w : World) (session : PeerSession) : World :=
  { w.setActive session.id false with trace := .closed session :: w.trace }

end World

/-- What `PeerSessionFactory.create` does when it is called. -/
inductive FactoryReply
  | threw (throwable : Throwable)
  | returned (isActive : Bool)

inductive Label
  | reconcile (config : ParsedVpnConfiguration)
  | advance (reply : FactoryReply)
  | loop (label : LoopLabel)
  | expire (id : Nat)

/-! ### Steps of a call -/

def startCall (w : World) (config : ParsedVpnConfiguration) : World :=
  match plan config with
  | .error throwable => { w with outcome := some (.error throwable) }
  | .ok plan =>
    let call : Call :=
      { config := config
        plan := plan
        previousSessions := w.sessionEntriesByPeer
        phase := .creating (sortedKeys plan.desiredPeers.keys) }
    { w with call := some call, outcome := none }

/-- The reuse test. -/
def reusable (isActive : Nat → Bool) (desiredPeer : ParsedVpnPeer) (desiredIndex : Nat)
    (previous : PeerSessionEntry) : Bool :=
  decide (previous.peer = desiredPeer) && decide (previous.session.peerIndex = desiredIndex) &&
    isActive previous.session.id

/-- A throw inside the `try` block. -/
def throwInCall (w : World) (call : Call) (throwable : Throwable) : World :=
  { w with call := some { call with phase := .rollback call.createdSessions throwable } }

/-- The session that the factory makes for a peer.  It keeps the key and the
index it was asked for. -/
def newSession (w : World) (call : Call) (peer : ParsedVpnPeer) (peerIndex : Nat) :
    PeerSession where
  id := w.nextId
  peerPublicKey := peer.publicKey
  peerIndex := peerIndex
  createdBy := { config := call.config, peer := peer, peerIndex := peerIndex }

def recordCreation (w : World) (session : PeerSession) (isActive : Bool) : World :=
  { w.setActive session.id isActive with
    nextId := w.nextId + 1
    trace := .created session isActive :: w.trace }

/-- `nextSessions[publicKey] = entry` at the end of a pass of the loop. -/
def Call.keep (call : Call) (publicKey : String) (remaining : List String)
    (entry : PeerSessionEntry) : Call :=
  { call with
    nextSessions := call.nextSessions.put publicKey entry
    phase := .creating remaining }

/-- `createdSessions += entry` -/
def Call.addCreated (call : Call) (entry : PeerSessionEntry) : Call :=
  { call with createdSessions := call.createdSessions ++ [entry] }

/-- `peerSessionFactory.create` and the lines after it. -/
def createSession (w : World) (call : Call) (publicKey : String) (remaining : List String)
    (desiredPeer : ParsedVpnPeer) (desiredIndex : Nat) (reply : FactoryReply) : World :=
  match reply with
  | .threw throwable => throwInCall w call throwable
  | .returned isActive =>
    let session := newSession w call desiredPeer desiredIndex
    let created := recordCreation w session isActive
    match isActive with
    | false =>
      throwInCall created call (.illegalArgument "Session factory must return active peer sessions")
    | true =>
      let entry : PeerSessionEntry := { peer := desiredPeer, session := session }
      { created with call := some ((call.addCreated entry).keep publicKey remaining entry) }

/-- The body of the creation loop for one key. -/
def reconcilePeer (w : World) (call : Call) (publicKey : String) (remaining : List String)
    (reply : FactoryReply) : World :=
  match getValue call.plan.desiredPeers publicKey with
  | .error throwable => throwInCall w call throwable
  | .ok desiredPeer =>
    match getValue call.plan.desiredIndexes publicKey with
    | .error throwable => throwInCall w call throwable
    | .ok desiredIndex =>
      match (call.previousSessions.get publicKey).filter
          (reusable w.isActive desiredPeer desiredIndex) with
      | some previous => { w with call := some (call.keep publicKey remaining previous) }
      | none => createSession w call publicKey remaining desiredPeer desiredIndex reply

def removeStats (stats : LinkedMap String MutablePeerStats) (keys : List String) :
    LinkedMap String MutablePeerStats :=
  keys.foldl LinkedMap.remove stats

/-- The block under `reconcileMutex`. -/
def swap (w : World) (call : Call) : World :=
  let gone := call.previousSessions.keys.filter fun key => (call.nextSessions.get key).isNone
  let guarded : Guarded :=
    { sessionEntriesByPeer := call.nextSessions
      peerStatsByPublicKey := removeStats w.guarded.peerStatsByPublicKey gone }
  let call' : Call := { call with phase := .closing call.previousSessions.entries }
  { w with guarded := guarded, call := some call' }

/-- `nextSessions[publicKey] !== entry`.  A new entry holds a new session, so
two entries are the same object if and only if they are equal. -/
def replaced (call : Call) (previous : String × PeerSessionEntry) : Bool :=
  decide (call.nextSessions.get previous.1 ≠ some previous.2)

def advance (w : World) (call : Call) (reply : FactoryReply) : World :=
  match call.phase with
  | .creating (publicKey :: remaining) => reconcilePeer w call publicKey remaining reply
  | .creating [] => swap w call
  | .rollback (entry :: remaining) throwable =>
    { w.close entry.session with
      call := some { call with phase := .rollback remaining throwable } }
  | .rollback [] throwable => { w with call := none, outcome := some (.error throwable) }
  | .closing (previous :: remaining) =>
    let w' := if replaced call previous then w.close previous.2.session else w
    { w' with call := some { call with phase := .closing remaining } }
  | .closing [] => { w with call := none, outcome := some (.ok ()) }

/-! ### Steps of the system -/

/-- What an iteration writes to the fields under the lock. -/
def loopEffect (guarded : Guarded) (label : LoopLabel) : Guarded :=
  { guarded with peerStatsByPublicKey := (label.iteration guarded).1.peerStatsByPublicKey }

def loopStep (w : World) (label : LoopLabel) : World :=
  { w with
    guarded := loopEffect w.guarded label
    trace := (label.iteration w.guarded).1.called.map Event.called ++ w.trace }

/-- Calls come one after another.  The loops run at any time. -/
def step (w : World) : Label → Option World
  | .reconcile config =>
    match w.call with
    | some _ => none
    | none => some (startCall w config)
  | .advance reply =>
    match w.call with
    | some call => some (advance w call reply)
    | none => none
  | .loop label => some (loopStep w label)
  | .expire id => some (w.setActive id false)

/-- What a step can be. -/
theorem step_cases {w w' : World} {label : Label} (h : step w label = some w') :
    (∃ config, label = .reconcile config ∧ w.call = none ∧ w' = startCall w config) ∨
      (∃ reply call, label = .advance reply ∧ w.call = some call ∧ w' = advance w call reply) ∨
      (∃ loop, label = .loop loop ∧ w' = loopStep w loop) ∨
      ∃ id, label = .expire id ∧ w' = w.setActive id false := by
  cases label with
  | reconcile config =>
      simp only [step] at h
      split at h
      · cases h
      next hidle =>
        cases h
        exact Or.inl ⟨config, rfl, hidle, rfl⟩
  | advance reply =>
      simp only [step] at h
      split at h
      next call hcall =>
        cases h
        exact Or.inr (Or.inl ⟨reply, call, rfl, hcall, rfl⟩)
      · cases h
  | loop label =>
      cases h
      exact Or.inr (Or.inr (Or.inl ⟨label, rfl, rfl⟩))
  | expire id =>
      cases h
      exact Or.inr (Or.inr (Or.inr ⟨id, rfl, rfl⟩))

/-- An entry that a plan accepts under a key. -/
structure Plan.Wants (plan : Plan) (key : String) (entry : PeerSessionEntry) : Prop where
  peer : plan.desiredPeers.get key = some entry.peer
  index : plan.desiredIndexes.get key = some entry.session.peerIndex

/-- What a pass of the creation loop can do. -/
inductive PeerStep (w : World) (call : Call) (publicKey : String) (remaining : List String) :
    World → Prop
  | threw (throwable : Throwable) :
    PeerStep w call publicKey remaining (throwInCall w call throwable)
  | inactive (session : PeerSession) (throwable : Throwable) :
    PeerStep w call publicKey remaining
      (throwInCall (recordCreation w session false) call throwable)
  | reused (previous : PeerSessionEntry)
    (hprevious : call.previousSessions.get publicKey = some previous)
    (hwants : call.plan.Wants publicKey previous)
    (hactive : w.isActive previous.session.id = true) :
    PeerStep w call publicKey remaining
      { w with call := some (call.keep publicKey remaining previous) }
  | created (peer : ParsedVpnPeer) (peerIndex : Nat) (entry : PeerSessionEntry)
    (hentry : entry = { peer := peer, session := newSession w call peer peerIndex })
    (hwants : call.plan.Wants publicKey entry) :
    PeerStep w call publicKey remaining
      { recordCreation w entry.session true with
        call := some ((call.addCreated entry).keep publicKey remaining entry) }

theorem getValue_eq_ok {ν : Type} {m : LinkedMap String ν} {key : String} {v : ν}
    (h : getValue m key = .ok v) : m.get key = some v := by
  unfold getValue at h
  split at h
  · cases h
    assumption
  · cases h

theorem reconcilePeer_step (w : World) (call : Call) (publicKey : String)
    (remaining : List String) (reply : FactoryReply) :
    PeerStep w call publicKey remaining (reconcilePeer w call publicKey remaining reply) := by
  unfold reconcilePeer
  split
  · exact PeerStep.threw _
  next desiredPeer hpeer =>
    split
    · exact PeerStep.threw _
    next desiredIndex hindex =>
      have hpeer := getValue_eq_ok hpeer
      have hindex := getValue_eq_ok hindex
      split
      next previous hreuse =>
        obtain ⟨hprevious, htest⟩ := Option.filter_eq_some_iff.mp hreuse
        simp only [reusable, Bool.and_eq_true, decide_eq_true_eq] at htest
        obtain ⟨⟨rfl, rfl⟩, hactive⟩ := htest
        exact PeerStep.reused previous hprevious ⟨hpeer, hindex⟩ hactive
      next =>
        cases reply with
        | threw throwable => exact PeerStep.threw throwable
        | returned isActive =>
            cases isActive with
            | false => exact PeerStep.inactive _ _
            | true => exact PeerStep.created desiredPeer desiredIndex _ rfl ⟨hpeer, hindex⟩

end Crypto
end WgKotlin
