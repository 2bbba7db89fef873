import WgKotlin.Vpn.Rejection
import WgKotlin.Crypto.Reconcile

/-!
# An `open` that fails

`open` starts the sessions, the loops, the sockets and the interface.  Only the interface
manager calls back when it cannot be started, so only there is a run that has begun taken
down again, as far as its closings do not throw.
-/

namespace WgKotlin

open Proto Kotlin Util Library Crypto

/-! ### Configurations that `reconcileSessions` accepts -/

theorem claimAllowedIps_total {publicKey : String} {seen : LinkedMap String String}
    {allowedIps : List Cidr} (hwell : ∀ c ∈ allowedIps, c.WellFormed)
    (howned : ∀ c ∈ allowedIps, ∀ key owner, normalizedKey c = .ok key →
      seen.get key = some owner → owner = publicKey) :
    ∃ seen', claimAllowedIps publicKey seen allowedIps = .ok seen' ∧
      ∀ key owner, seen'.get key = some owner → seen.get key = some owner ∨
        owner = publicKey ∧ ∃ c ∈ allowedIps, normalizedKey c = .ok key := by
  induction allowedIps generalizing seen with
  | nil => exact ⟨seen, rfl, fun _ _ hget => Or.inl hget⟩
  | cons allowedIp rest ih =>
      obtain ⟨key, hkey⟩ := normalizedKey_total (hwell allowedIp List.mem_cons_self)
      have hput : ∀ k owner, (seen.put key publicKey).get k = some owner →
          owner = publicKey ∧ k = key ∨ seen.get k = some owner := by
        intro k owner hget
        rw [LinkedMap.get_put] at hget
        split at hget
        next heq => exact Or.inl ⟨(Option.some.inj hget).symm, heq.symm⟩
        next => exact Or.inr hget
      obtain ⟨seen', hclaim, hseen'⟩ := ih
        (fun c hc => hwell c (List.mem_cons_of_mem _ hc)) fun c hc k owner hk hget => by
          rcases hput k owner hget with h | h
          · exact h.1
          · exact howned c (List.mem_cons_of_mem _ hc) k owner hk h
      refine ⟨seen', ?_, fun k owner hget => ?_⟩
      · rw [claimAllowedIps, hkey, ok_bind]
        cases hprevious : seen.get key with
        | none => exact hclaim
        | some owner =>
            have hsame := howned allowedIp List.mem_cons_self key owner hkey hprevious
            simp only [hsame, ne_eq, not_true_eq_false, if_false]
            exact hclaim
      · rcases hseen' k owner hget with h | ⟨h, c, hc, hk⟩
        · rcases hput k owner h with ⟨hown, rfl⟩ | hold
          · exact Or.inr ⟨hown, allowedIp, List.mem_cons_self, hkey⟩
          · exact Or.inl hold
        · exact Or.inr ⟨h, c, List.mem_cons_of_mem _ hc, hk⟩

/-- Peers that share no network pass the check. -/
theorem claimPeers_total {seen : LinkedMap String String} {peers : List ParsedVpnPeer}
    (hwell : ∀ p ∈ peers, ∀ c ∈ p.allowedIps, c.WellFormed)
    (hdistinct : ∀ p ∈ peers, ∀ q ∈ peers, ∀ c ∈ p.allowedIps, ∀ d ∈ q.allowedIps,
      normalizedKey c = normalizedKey d → p.publicKey = q.publicKey)
    (hseen : ∀ p ∈ peers, ∀ c ∈ p.allowedIps, ∀ key owner, normalizedKey c = .ok key →
      seen.get key = some owner → owner = p.publicKey) :
    ∃ seen', claimPeers seen peers = .ok seen' := by
  induction peers generalizing seen with
  | nil => exact ⟨seen, rfl⟩
  | cons peer rest ih =>
      obtain ⟨mid, hmid, hclaims⟩ := claimAllowedIps_total (hwell peer List.mem_cons_self)
        (hseen peer List.mem_cons_self)
      obtain ⟨seen', hrest⟩ := ih
        (fun p hp => hwell p (List.mem_cons_of_mem _ hp))
        (fun p hp q hq => hdistinct p (List.mem_cons_of_mem _ hp) q (List.mem_cons_of_mem _ hq))
        fun p hp c hc key owner hkey hget => by
          rcases hclaims key owner hget with h | ⟨rfl, d, hd, hkey'⟩
          · exact hseen p (List.mem_cons_of_mem _ hp) c hc key owner hkey h
          · exact hdistinct peer List.mem_cons_self p (List.mem_cons_of_mem _ hp) d hd c hc
              (hkey'.trans hkey.symm)
      refine ⟨seen', ?_⟩
      rw [claimPeers, hmid]
      exact hrest

section Accepted

variable {getByName : String → Except Throwable Bytes} {interfaceName : String}
  {configuration : VpnConfiguration} {parsed : ParsedVpnConfiguration}

theorem parsed_publicKeys (hparse : toParsedVpnConfiguration getByName configuration = .ok parsed) :
    parsed.peers.map ParsedVpnPeer.publicKey = configuration.peers.map VpnPeer.publicKey := by
  have hall := mapAll_eq_ok.mp (parsedFrom_of_ok hparse).peers
  generalize parsed.peers = peers, configuration.peers = given at hall ⊢
  induction hall with
  | nil => rfl
  | cons hpeer _ ih =>
      obtain ⟨_, _, hpeer⟩ := bind_eq_ok.mp hpeer
      obtain ⟨_, _, hpeer⟩ := bind_eq_ok.mp hpeer
      cases hpeer
      rw [List.map_cons, List.map_cons, ih]

/-- The endpoint of a peer that has one is resolved. -/
theorem parsedPeer_endpoint {peer : VpnPeer} {p : ParsedVpnPeer}
    (hpeer : toParsedVpnPeer getByName peer = .ok p) (haddress : peer.endpointAddress ≠ none) :
    p.endpointAddress.isSome = true := by
  have hresolve := (toParsedVpnPeer_eq_ok hpeer).2
  cases hhost : peer.endpointAddress with
  | none => exact absurd hhost haddress
  | some host =>
      rw [hhost] at hresolve
      obtain ⟨ip, _, hresolve⟩ := bind_eq_ok.mp hresolve
      rw [← Except.ok.inj hresolve]
      rfl

theorem plan_accepts (hparse : toParsedVpnConfiguration getByName configuration = .ok parsed)
    (hnone : ∀ reason : Rejection, ¬ reason.Applies getByName interfaceName configuration) :
    ∃ p, plan parsed = .ok p := by
  have hpeers := (parsedFrom_of_ok hparse).peers
  have hendpoint : ∀ p ∈ parsed.peers,
      p.endpointAddress.isSome = true ∧ p.endpointPort.isSome = true := by
    intro p hp
    obtain ⟨peer, hpeer, hparsed⟩ := (mem_mapAll hpeers).mp hp
    have hmissing : ¬ (peer.endpointAddress = none ∨ peer.endpointPort = none) := fun h =>
      hnone .missingEndpoint ⟨peer, hpeer, h⟩
    refine ⟨parsedPeer_endpoint hparsed fun h => hmissing (Or.inl h), ?_⟩
    rw [(toParsedVpnPeer_endpoint hparsed).1, Option.isSome_iff_ne_none]
    exact fun h => hmissing (Or.inr h)
  have hunique : requireUniqueParsedPeerPublicKeys parsed.peers = .ok () := by
    rw [requireUniqueParsedPeerPublicKeys, requireUniqueKeys_eq_ok, parsed_publicKeys hparse]
    by_contra hkeys
    exact hnone .duplicateKeys hkeys
  have huserspace : requireUserspacePeerEndpoints parsed.peers = .ok () := by
    refine requireUserspacePeerEndpoints_eq_ok.mpr fun p hp => ⟨?_, (hendpoint p hp).2⟩
    rw [(hendpoint p hp).1]
    rfl
  have hwell : ∀ p ∈ parsed.peers, ∀ c ∈ p.allowedIps, c.WellFormed := by
    intro p hp c hc
    obtain ⟨peer, _, hparsed⟩ := (mem_mapAll hpeers).mp hp
    obtain ⟨text, _, htext⟩ := (mem_mapAll (toParsedVpnPeer_eq_ok hparsed).1).mp hc
    exact toCidr_wellFormed htext
  obtain ⟨seen, hseen⟩ : ∃ seen, claimPeers LinkedMap.empty parsed.peers = .ok seen := by
    refine claimPeers_total hwell ?_ fun p hp c hc key owner hkey hget => by cases hget
    intro p hp q hq c hc d hd hkey
    by_contra hne
    exact hnone .sharedAllowedIp ⟨parsed, hparse, p, hp, q, hq, hne, c, hc, d, hd, hkey⟩
  obtain ⟨resolved, hresolved⟩ : ∃ resolved, mapAll resolvePeer parsed.peers = .ok resolved :=
    exists_mapAll fun p hp => ⟨p, if_pos (hendpoint p hp).1⟩
  refine ⟨_, bind_eq_ok.mpr ⟨(), hunique, bind_eq_ok.mpr ⟨(), huserspace, bind_eq_ok.mpr
    ⟨(), ?_, bind_eq_ok.mpr ⟨resolved, hresolved, rfl⟩⟩⟩⟩⟩
  rw [requireDistinctAllowedIpOwnership, hseen]
  rfl

end Accepted

/-! ### A call that finds no sessions -/

/-- The sessions of the map, all of them active, have these numbers. -/
structure Crypto.World.Numbered (w : World) (ids : List Nat) : Prop where
  numbers : w.sessionEntriesByPeer.values.map (fun entry => entry.session.id) = ids
  active : ∀ id ∈ ids, w.isActive id = true

/-- A call that has found no sessions and has created some, numbered from `first` on. -/
structure FirstCall (first created : Nat) (w : World) (call : Call) (remaining : List String) :
    Prop where
  phase : call.phase = .creating remaining
  previous : call.previousSessions = LinkedMap.empty
  peer : ∀ key ∈ remaining, ∃ peer, call.plan.desiredPeers.get key = some peer
  index : ∀ key ∈ remaining, ∃ index, call.plan.desiredIndexes.get key = some index
  nodup : (call.nextSessions.keys ++ remaining).Nodup
  ids : call.nextSessions.values.map (fun entry => entry.session.id) =
    List.range' first created
  nextId : w.nextId = first + created
  active : ∀ id ∈ List.range' first created, w.isActive id = true

/-- How far such a call has come.  All replies of the factory are active sessions, or it fails. -/
inductive FirstRun (factory : String → FactoryReply) (first total : Nat) (all : Prop) :
    World → Prop
  | creating {w : World} {call : Call} {created : Nat} {remaining : List String}
      (hcall : w.call = some call) (h : FirstCall first created w call remaining)
      (htotal : created + remaining.length = total)
      (hall : all ↔ ∀ key ∈ remaining, factory key = .returned true) :
      FirstRun factory first total all w
  | closing {w : World} {call : Call} (hcall : w.call = some call)
      (hphase : call.phase = .closing []) (h : w.Numbered (List.range' first total))
      (hall : all) : FirstRun factory first total all w
  | failing {w : World} {call : Call} {sessions : List PeerSessionEntry} {throwable : Throwable}
      (hcall : w.call = some call) (hphase : call.phase = .rollback sessions throwable)
      (hall : ¬ all) : FirstRun factory first total all w
  | returned {w : World} (hcall : w.call = none) (houtcome : w.outcome = some (.ok ()))
      (h : w.Numbered (List.range' first total)) (hall : all) : FirstRun factory first total all w
  | threw {w : World} {throwable : Throwable} (hcall : w.call = none)
      (houtcome : w.outcome = some (.error throwable)) (hall : ¬ all) :
      FirstRun factory first total all w

section FirstRun

variable {first created total : Nat} {w : World} {call : Call} {key : String}
  {remaining : List String} {factory : String → FactoryReply} {all : Prop}

theorem getValue_of_get {ν : Type} {m : LinkedMap String ν} {v : ν} (h : m.get key = some v) :
    getValue m key = .ok v := by
  rw [getValue, h]

/-- There is nothing to reuse, so the factory is called. -/
theorem FirstCall.advance_eq (factory : String → FactoryReply)
    (h : FirstCall first created w call (key :: remaining)) :
    ∃ peer index, advance w call (replyFor factory call) =
      createSession w call key remaining peer index (factory key) := by
  obtain ⟨peer, hpeer⟩ := h.peer key List.mem_cons_self
  obtain ⟨index, hindex⟩ := h.index key List.mem_cons_self
  have hreply : replyFor factory call = factory key := by rw [replyFor, h.phase]
  have hget : (call.previousSessions.get key).filter (reusable w.isActive peer index) = none := by
    rw [h.previous]
    rfl
  refine ⟨peer, index, ?_⟩
  rw [hreply, advance, h.phase]
  simp only [reconcilePeer, getValue_of_get hpeer, getValue_of_get hindex, hget]

theorem FirstCall.creates (h : FirstCall first created w call (key :: remaining))
    (peer : ParsedVpnPeer) (index : Nat) :
    ∃ call', (createSession w call key remaining peer index (.returned true)).call = some call' ∧
      FirstCall first (created + 1)
        (createSession w call key remaining peer index (.returned true)) call' remaining := by
  have hnew : key ∉ call.nextSessions.keys := by
    intro hmem
    exact (List.nodup_append.mp h.nodup).2.2 key hmem key List.mem_cons_self rfl
  have hkeys : ∀ entry, (call.nextSessions.put key entry).keys = call.nextSessions.keys ++ [key] :=
    fun entry => by rw [LinkedMap.keys_put, if_neg hnew]
  have hrange : List.range' first (created + 1) = List.range' first created ++ [w.nextId] := by
    rw [List.range'_concat, Nat.one_mul, h.nextId]
  refine ⟨_, rfl, rfl, h.previous, fun k hk => h.peer k (List.mem_cons_of_mem _ hk),
    fun k hk => h.index k (List.mem_cons_of_mem _ hk), ?_, ?_, ?_, ?_⟩
  · show ((call.nextSessions.put key _).keys ++ remaining).Nodup
    rw [hkeys, List.append_assoc]
    exact h.nodup
  · show (call.nextSessions.put key _).values.map _ = _
    rw [LinkedMap.values, LinkedMap.entries_put_of_notMem hnew, List.map_append,
      List.map_append, hrange]
    exact congrArg (· ++ [w.nextId]) h.ids
  · show w.nextId + 1 = _
    rw [h.nextId, Nat.add_assoc]
  · intro id hid
    show (if id = w.nextId then true else w.isActive id) = true
    rw [hrange, List.mem_append, List.mem_singleton] at hid
    split
    · rfl
    next hne => exact h.active id (hid.resolve_right hne)

theorem FirstRun.step (h : FirstRun factory first total all w) (hcall : w.call = some call) :
    FirstRun factory first total all (advance w call (replyFor factory call)) := by
  cases h with
  | returned hnone _ _ _ | threw hnone _ _ =>
      rw [hnone] at hcall
      cases hcall
  | closing hsome hphase h hall =>
      rw [hsome, Option.some.injEq] at hcall
      subst hcall
      rw [advance, hphase]
      exact .returned rfl rfl ⟨h.numbers, h.active⟩ hall
  | @failing _ sessions throwable hsome hphase hall =>
      rw [hsome, Option.some.injEq] at hcall
      subst hcall
      rw [advance, hphase]
      cases sessions with
      | nil => exact .threw rfl rfl hall
      | cons entry sessions => exact .failing rfl rfl hall
  | @creating current created remaining hsome h htotal hall =>
      rw [hsome, Option.some.injEq] at hcall
      subst hcall
      cases remaining with
      | nil =>
          have hclosing : current.previousSessions.entries = [] := by rw [h.previous]; rfl
          rw [advance, h.phase]
          refine .closing rfl (congrArg Phase.closing hclosing) ?_ (hall.mpr fun _ h => by cases h)
          rw [← htotal]
          exact ⟨h.ids, h.active⟩
      | cons key remaining =>
          obtain ⟨peer, index, hadvance⟩ := h.advance_eq factory
          rw [hadvance]
          rw [List.forall_mem_cons] at hall
          cases hreply : factory key with
          | threw throwable =>
              exact .failing rfl rfl fun h => (by cases hreply.symm.trans (hall.mp h).1)
          | returned active =>
              cases active with
              | false => exact .failing rfl rfl fun h => (by cases hreply.symm.trans (hall.mp h).1)
              | true =>
                  obtain ⟨call', hcall', hnext⟩ := h.creates peer index
                  refine .creating hcall' hnext ?_ (hall.trans (and_iff_right hreply))
                  rw [← htotal, List.length_cons]
                  omega

end FirstRun

section Reconciled

variable {parsed : ParsedVpnConfiguration} {p : Plan} {w : World}

theorem desiredPeer_of_key (hspec : PlanSpec parsed p) {key : String}
    (hkey : key ∈ sortedKeys p.desiredPeers.keys) :
    (∃ peer, p.desiredPeers.get key = some peer) ∧
      ∃ index, p.desiredIndexes.get key = some index := by
  have hmem : key ∈ p.desiredPeers.keys := (mem_sortedBy id).mp hkey
  refine ⟨LinkedMap.mem_keys_iff.mp hmem, LinkedMap.mem_keys_iff.mp ?_⟩
  rw [LinkedMap.keys, hspec.desiredIndexes, List.zipIdx_map_fst]
  rw [hspec.keys] at hkey
  exact hkey

/-- Without earlier sessions, a factory that makes an active session for every peer numbers
them on from the last one, and any other makes the call throw. -/
theorem reconcileSessions_first (factory : String → FactoryReply) (hplan : plan parsed = .ok p)
    (hnone : w.sessionEntriesByPeer = LinkedMap.empty) :
    FirstRun factory w.nextId (sortedKeys p.desiredPeers.keys).length
        (∀ key ∈ sortedKeys p.desiredPeers.keys, factory key = .returned true)
        (reconcileSessions factory parsed w) ∧
      (reconcileSessions factory parsed w).call = none := by
  have hspec := plan_spec hplan
  refine reconcileSessions_invariant (fun w call h hcall => h.step hcall) ?_
  unfold startCall
  rw [hplan]
  refine .creating rfl ⟨rfl, hnone, fun key hkey => (desiredPeer_of_key hspec hkey).1,
    fun key hkey => (desiredPeer_of_key hspec hkey).2, ?_, rfl, rfl, fun _ hid => by cases hid⟩
    (Nat.zero_add _) Iff.rfl
  show ([] ++ sortedKeys p.desiredPeers.keys).Nodup
  exact sortedKeys_nodup p.desiredPeers.nodup

end Reconciled

/-! ### Closings that throw -/

namespace CryptoManager

variable {closes : Nat → Except Throwable Unit} {entries : List PeerSessionEntry} {w : World}

theorem closeSessions_guarded (closes : Nat → Except Throwable Unit)
    (entries : List PeerSessionEntry) (w : World) :
    (closeSessions closes entries w).1.guarded = w.guarded ∧
      (closeSessions closes entries w).1.nextId = w.nextId := by
  induction entries generalizing w with
  | nil => exact ⟨rfl, rfl⟩
  | cons entry rest ih =>
      rw [closeSessions]
      split
      · exact ⟨rfl, rfl⟩
      · exact ih (w.close entry.session)

theorem closeSessions_inactive {id : Nat} (h : w.isActive id = false) :
    (closeSessions closes entries w).1.isActive id = false := by
  induction entries generalizing w with
  | nil => exact h
  | cons entry rest ih =>
      have hclose : (w.close entry.session).isActive id = false := by
        show (if id = entry.session.id then false else w.isActive id) = false
        rw [h, ite_self]
      rw [closeSessions]
      split
      · exact hclose
      · exact ih hclose

/-- No session is left active exactly when none but the last throws as it is closed. -/
theorem closeSessions_all_inactive (hnodup : (entries.map fun e => e.session.id).Nodup)
    (hactive : ∀ e ∈ entries, w.isActive e.session.id = true) :
    ((closeSessions closes entries w).2 = .ok () ∨
        ∀ e ∈ entries, (closeSessions closes entries w).1.isActive e.session.id = false) ↔
      ∀ e ∈ entries.dropLast, closes e.session.id = .ok () := by
  induction entries generalizing w with
  | nil => exact ⟨fun _ e he => (by cases he), fun _ => Or.inl rfl⟩
  | cons entry rest ih =>
      obtain ⟨hnew, hnodup⟩ := List.nodup_cons.mp hnodup
      have hself : (w.close entry.session).isActive entry.session.id = false := if_pos rfl
      have hothers : ∀ e ∈ rest, (w.close entry.session).isActive e.session.id = true := by
        intro e he
        have hne : e.session.id ≠ entry.session.id := fun heq =>
          hnew (List.mem_map.mpr ⟨e, he, heq⟩)
        show (if e.session.id = entry.session.id then false else w.isActive e.session.id) = true
        rw [if_neg hne]
        exact hactive e (List.mem_cons_of_mem _ he)
      cases rest with
      | nil =>
          refine ⟨fun _ e he => (by cases he), fun _ => ?_⟩
          rw [closeSessions]
          split
          · exact Or.inr fun e he => List.mem_singleton.mp he ▸ hself
          · exact Or.inl rfl
      | cons next rest =>
          rw [List.dropLast_cons_cons]
          cases hclose : closes entry.session.id with
          | error throwable =>
              -- The next one is still active.
              have hthrows : closeSessions closes (entry :: next :: rest) w =
                  (w.close entry.session, .error throwable) := by
                rw [closeSessions, hclose]
              rw [hthrows]
              constructor
              · intro h
                rcases h with h | h
                · cases h
                · have hnext := h next (List.mem_cons_of_mem _ List.mem_cons_self)
                  rw [hothers next List.mem_cons_self] at hnext
                  cases hnext
              · intro h
                have hentry := h entry List.mem_cons_self
                rw [hclose] at hentry
                cases hentry
          | ok _ =>
              have hgoes : closeSessions closes (entry :: next :: rest) w =
                  closeSessions closes (next :: rest) (w.close entry.session) := by
                rw [closeSessions, hclose]
              rw [hgoes]
              constructor
              · intro h
                refine List.forall_mem_cons.mpr ⟨hclose, (ih hnodup hothers).mp ?_⟩
                exact h.imp_right fun hall e he => hall e (List.mem_cons_of_mem _ he)
              · intro h
                refine ((ih hnodup hothers).mpr (List.forall_mem_cons.mp h).2).imp_right ?_
                exact fun hall => List.forall_mem_cons.mpr ⟨closeSessions_inactive hself, hall⟩

theorem stop_iff {m : CryptoManager} {ids : List Nat} (h : m.world.Numbered ids)
    (hnodup : ids.Nodup) (closes : Nat → Except Throwable Unit) :
    (m.stop closes).1.hasActiveSessions = false ↔
      ∀ id ∈ ids.dropLast, closes id = .ok () := by
  obtain ⟨rfl, hactive⟩ := h
  rw [← List.map_dropLast, List.forall_mem_map,
    ← closeSessions_all_inactive hnodup (List.forall_mem_map.mp hactive)]
  have hguarded := (closeSessions_guarded closes m.world.sessionEntriesByPeer.values m.world).1
  unfold stop
  split
  next w throwable hclose =>
    rw [hclose] at hguarded ⊢
    have hsame : w.sessionEntriesByPeer = m.world.sessionEntriesByPeer := by
      rw [World.sessionEntriesByPeer, hguarded]
      rfl
    simp [hasActiveSessions, hsame]
  next w hclose =>
    rw [hclose]
    exact ⟨fun _ => Or.inl rfl, fun _ => rfl⟩

end CryptoManager

namespace SocketManager

/-- What `stop` leaves when its selector does not throw or there is nothing to stop. -/
theorem stop_of_ok {closes : Except Throwable Unit} {m : SocketManager}
    (h : (m.stop closes).2 = .ok ()) :
    (m.stop closes).1 = if m.running then stopped else m := by
  unfold stop at h ⊢
  cases hrunning : m.running with
  | false => rfl
  | true =>
      rw [hrunning] at h
      simp only [Bool.not_true, Bool.false_eq_true, if_false] at h ⊢
      split at h
      next => cases h
      next => rfl

/-- A socket can be bound, or one is left of an earlier run. -/
def Bindable (udp : Udp) (listenPort : Int32) (m : SocketManager) : Prop :=
  (∃ socket, udp.bindIpv6 listenPort = .ok socket) ∨
    (∃ socket, udp.bindIpv4 listenPort = .ok socket) ∨
    m.running = false ∧ (m.ipv4Socket ≠ none ∨ m.ipv6Socket ≠ none)

/-- A run that is stopped leaves no sockets. -/
theorem bindable_stopped {udp : Udp} {listenPort : Int32} {m : SocketManager} :
    (if m.running then stopped else m).Bindable udp listenPort ↔ m.Bindable udp listenPort := by
  cases hrunning : m.running with
  | false => exact Iff.rfl
  | true => simp [Bindable, hrunning, stopped]

theorem bound_isNone {field : Option Socket} {result : Except Throwable Socket} :
    (bound field result).isNone = true ↔ field = none ∧ ¬ ∃ socket, result = .ok socket := by
  cases result with
  | ok socket => simp [bound]
  | error throwable => simp [bound]

theorem start_eq_ok {udp : Udp} {listenPort : Int32} (closes : Except Throwable Unit)
    {m : SocketManager} (hrunning : m.running = false) :
    (m.start udp listenPort closes).2 = .ok () ↔ m.Bindable udp listenPort := by
  have hstop : m.stop closes = (m, .ok ()) := by rw [stop, hrunning]; rfl
  -- Without an IPv6 socket the port of the other one is the same.
  have hnone : ((bound m.ipv4Socket (udp.bindIpv4 (ipv4Port listenPort
        (bound m.ipv6Socket (udp.bindIpv6 listenPort))))).isNone &&
      (bound m.ipv6Socket (udp.bindIpv6 listenPort)).isNone) = true ↔
      ¬ m.Bindable udp listenPort := by
    rw [Bool.and_eq_true]
    constructor
    · intro h
      have hport := Option.isNone_iff_eq_none.mp h.2
      rw [hport] at h
      obtain ⟨h4, hbind4⟩ := bound_isNone.mp h.1
      obtain ⟨h6, hbind6⟩ := bound_isNone.mp (Option.isNone_iff_eq_none.mpr hport)
      rintro (hbind | hbind | ⟨_, hleft⟩)
      · exact hbind6 hbind
      · exact hbind4 hbind
      · exact hleft.elim (fun hne => hne h4) fun hne => hne h6
    · intro h
      simp only [Bindable, not_or, not_and, not_not] at h
      obtain ⟨hbind6, hbind4, hleft⟩ := h
      have h6 := bound_isNone.mpr ⟨(hleft hrunning).2, hbind6⟩
      refine ⟨?_, h6⟩
      rw [Option.isNone_iff_eq_none.mp h6]
      exact bound_isNone.mpr ⟨(hleft hrunning).1, hbind4⟩
  unfold start
  rw [hstop]
  simp only
  split
  next h => exact ⟨fun herror => (by cases herror), fun hbind => absurd hbind (hnone.mp h)⟩
  next h => exact ⟨fun _ => not_not.mp fun hbind => h (hnone.mpr hbind), fun _ => rfl⟩

/-- The sockets are up. -/
structure Started (m : SocketManager) : Prop where
  running : m.running = true
  selector : m.selectorManager = true
  socket : ¬ (m.ipv4Socket = none ∧ m.ipv6Socket = none)

theorem started_of_start {udp : Udp} {listenPort : Int32} {closes : Except Throwable Unit}
    {m : SocketManager} (h : (m.start udp listenPort closes).2 = .ok ()) :
    (m.start udp listenPort closes).1.Started := by
  unfold start at h ⊢
  split at h
  next => cases h
  next =>
    simp only at h ⊢
    split at h
    next => cases h
    next hbound =>
      rw [if_neg hbound]
      refine ⟨rfl, rfl, fun hnone => hbound ?_⟩
      rw [Bool.and_eq_true, Option.isNone_iff_eq_none, Option.isNone_iff_eq_none]
      exact hnone

/-- A selector that throws leaves the sockets where they are. -/
theorem Started.stop_iff {m : SocketManager} (h : m.Started) (closes : Except Throwable Unit) :
    ((m.stop closes).1.running = false ∧ (m.stop closes).1.ipv4Socket = none ∧
      (m.stop closes).1.ipv6Socket = none) ↔ closes = .ok () := by
  cases closes with
  | ok _ => simp [stop, h.running, stopped]
  | error throwable =>
      simp only [stop, h.running, h.selector]
      exact ⟨fun hnone => absurd hnone.2 h.socket, fun herror => (by cases herror)⟩

end SocketManager

namespace Vpn

/-! ### What is left of a run -/

/-- Nothing of a run is left. -/
structure AllStopped (vpn : Vpn) : Prop where
  noActiveSession : vpn.crypto.hasActiveSessions = false
  noLoop : vpn.crypto.scope = false
  notRunning : vpn.socket.running = false
  noIpv4Socket : vpn.socket.ipv4Socket = none
  noIpv6Socket : vpn.socket.ipv6Socket = none
  noInterface : vpn.iface.isRunning = false
  noParsedConfiguration : vpn.currentParsedConfiguration = none
  noOriginalConfiguration : vpn.originalConfiguration = none

/-- The daemon refuses the session, and the closings of the clean-up reach every socket and
session.  A session that throws as it is closed is closed, and those after it are not. -/
structure Refuses (env : Environment) (ids : List Nat) : Prop where
  refused : ∃ throwable, env.openSession = .error throwable
  selector : env.cleanup.selector = .ok ()
  closes : ∀ id ∈ ids.dropLast, env.cleanup.session id = .ok ()

/-- A run that comes as far as the interface and is taken down again.  Its sessions are
numbered on from the next free number. -/
structure RefusedByDaemon (env : Environment) (vpn : Vpn) (configuration : VpnConfiguration) : Prop
    extends Refuses env (List.range' vpn.crypto.world.nextId configuration.peers.length) where
  accepted : ∀ reason : Rejection,
    ¬ reason.Applies env.getByName vpn.interfaceName configuration
  factory : ∀ peer ∈ configuration.peers, env.factory peer.publicKey = .returned true
  launch : env.launch = .ok ()
  bind : vpn.socket.Bindable env.udp (configuration.listenPort.getD defaultPort)

section Failed

variable {env : Environment} {configuration : VpnConfiguration} {parsed : ParsedVpnConfiguration}
  {vpn : Vpn}

/-- What `stop()` leaves of the managers when it does not throw. -/
theorem stop_of_ok (hstop : (vpn.stop env.closing).2 = .ok ()) :
    (vpn.stop env.closing).1.crypto.world.sessionEntriesByPeer = LinkedMap.empty ∧
      (vpn.stop env.closing).1.crypto.world.nextId = vpn.crypto.world.nextId ∧
      (vpn.stop env.closing).1.socket = if vpn.socket.running then .stopped else vpn.socket := by
  have hparts : (vpn.socket.stop env.closing.selector).2 = .ok () ∧
      (vpn.crypto.stop env.closing.session).2 = .ok () := by
    have hfirst : firstError (vpn.socket.stop env.closing.selector).2
        (vpn.crypto.stop env.closing.session).2 = .ok () := hstop
    unfold firstError at hfirst
    split at hfirst
    next => cases hfirst
    next hsocket => exact ⟨hsocket, mapError_eq_ok.mp hfirst⟩
  have hcrypto := hparts.2
  have hkept := (CryptoManager.closeSessions_guarded env.closing.session
    vpn.crypto.world.sessionEntriesByPeer.values vpn.crypto.world).2
  show (vpn.crypto.stop env.closing.session).1.world.sessionEntriesByPeer = _ ∧
    (vpn.crypto.stop env.closing.session).1.world.nextId = _ ∧ _
  unfold CryptoManager.stop at hcrypto ⊢
  split at hcrypto
  next => cases hcrypto
  next w hclose =>
    rw [hclose] at hkept
    exact ⟨rfl, hkept, SocketManager.stop_of_ok hparts.1⟩

theorem openVpn_of_stopped
    (hearly : ∀ reason : Rejection, reason.beforeStop = true →
      ¬ reason.Applies env.getByName vpn.interfaceName configuration)
    (hstop : (vpn.stop env.closing).2 = .ok ()) :
    ∃ parsed, toParsedVpnConfiguration env.getByName configuration = .ok parsed ∧
      openVpn env vpn configuration =
        startRun env configuration parsed (vpn.stop env.closing).1 := by
  have hcheck : vpn.checkConfiguration configuration = .ok () :=
    (checkConfiguration_eq_ok env.getByName).mpr ⟨hearly _ rfl, hearly _ rfl⟩
  cases hparse : toParsedVpnConfiguration env.getByName configuration with
  | error throwable => exact absurd ⟨throwable, hparse⟩ (hearly .unparsable rfl)
  | ok parsed =>
      refine ⟨parsed, rfl, ?_⟩
      unfold openVpn
      rw [hcheck]
      simp only [hparse]
      rw [hstop]

/-- A run that has stored its configuration is not stopped. -/
theorem not_allStopped (h : vpn.originalConfiguration = some configuration) : ¬ vpn.AllStopped := by
  intro hstopped
  rw [hstopped.noOriginalConfiguration] at h
  cases h

section Starting

variable {tun : TunSessionConfig} {ids : List Nat} (env) (vpn)
  (htun : toTunSessionConfig parsed = .ok tun) (hnodup : ids.Nodup)
  (hsessions : vpn.crypto.world.Numbered ids)

include htun hnodup hsessions

theorem startInterface_allStopped_iff (hstarted : vpn.socket.Started) :
    (startInterface env parsed vpn).1.AllStopped ↔ Refuses env ids := by
  unfold startInterface
  rw [htun]
  simp only
  cases hopen : env.openSession with
  | ok _ =>
      refine ⟨fun h => ?_, fun h => ?_⟩
      · cases h.noInterface
      · obtain ⟨throwable, hrefused⟩ := h.refused
        rw [hopen] at hrefused
        cases hrefused
  | error throwable =>
      have hsocket := hstarted.stop_iff env.cleanup.selector
      have hclosed := CryptoManager.stop_iff hsessions hnodup env.cleanup.session
      constructor
      · intro h
        exact ⟨⟨throwable, hopen⟩,
          hsocket.mp ⟨h.notRunning, h.noIpv4Socket, h.noIpv6Socket⟩,
          hclosed.mp h.noActiveSession⟩
      · intro h
        obtain ⟨hrunning, hipv4, hipv6⟩ := hsocket.mpr h.selector
        exact ⟨hclosed.mpr h.closes, CryptoManager.stop_scope _ _, hrunning, hipv4, hipv6, rfl,
          rfl, rfl⟩

variable (hconfiguration : vpn.originalConfiguration = some configuration)
  (hrunning : vpn.socket.running = false)

include hconfiguration hrunning

theorem startSockets_allStopped_iff :
    (startSockets env configuration parsed vpn).1.AllStopped ↔
      vpn.socket.Bindable env.udp (configuration.listenPort.getD defaultPort) ∧
        Refuses env ids := by
  rw [← SocketManager.start_eq_ok env.closing.selector hrunning]
  unfold startSockets
  simp only
  split
  next throwable hstart =>
    refine ⟨fun h => absurd h (not_allStopped hconfiguration), fun h => ?_⟩
    rw [hstart] at h
    cases h.1
  next hstart =>
    have hinterface := startInterface_allStopped_iff env
      { vpn with socket := (vpn.socket.start env.udp _ env.closing.selector).1 } htun hnodup
      hsessions (SocketManager.started_of_start hstart)
    exact hinterface.trans ⟨fun h => ⟨hstart, h⟩, And.right⟩

theorem startCrypto_allStopped_iff :
    (startCrypto env configuration parsed vpn).1.AllStopped ↔
      env.launch = .ok () ∧
        vpn.socket.Bindable env.udp (configuration.listenPort.getD defaultPort) ∧
        Refuses env ids := by
  unfold startCrypto
  simp only [CryptoManager.start]
  cases hlaunch : env.launch with
  | error throwable =>
      exact ⟨fun h => absurd h (not_allStopped hconfiguration), fun h => (by cases h.1)⟩
  | ok _ =>
      have hsockets := startSockets_allStopped_iff env
        { vpn with crypto := (vpn.crypto.start env.launch).1 } htun hnodup
        ⟨hsessions.numbers, hsessions.active⟩ hconfiguration hrunning
      exact hsockets.trans ⟨fun h => ⟨rfl, h⟩, And.right⟩

end Starting

theorem sortedKeys_perm {getByName : String → Except Throwable Bytes} {p : Plan}
    (hparse : toParsedVpnConfiguration getByName configuration = .ok parsed)
    (hplan : plan parsed = .ok p) :
    (sortedKeys p.desiredPeers.keys).Perm (configuration.peers.map VpnPeer.publicKey) := by
  rw [(plan_spec hplan).keys, parsed_publicKeys hparse]
  exact sortedBy_perm id _

/-- An `open` that throws after its `stop()` leaves nothing of its run exactly when it has come
as far as the interface, the daemon has refused the session, and no closing of the clean-up
has kept it from the sockets or from a session. -/
theorem failed_open_leaves_nothing_iff {vpn' : Vpn} {e : OpenError}
    (hearly : ∀ reason : Rejection, reason.beforeStop = true →
      ¬ reason.Applies env.getByName vpn.interfaceName configuration)
    (hstop : (vpn.stop env.closing).2 = .ok ())
    (hfails : openVpn env vpn configuration = (vpn', .error e)) :
    vpn'.AllStopped ↔ RefusedByDaemon env vpn configuration := by
  obtain ⟨parsed, hparse, hopen⟩ := openVpn_of_stopped hearly hstop
  obtain ⟨hsessions, hnext, hsocket⟩ := stop_of_ok hstop
  have htun := toTunSessionConfig_eq (parsedFrom_of_ok hparse)
  have hvpn' : vpn' = (startRun env configuration parsed (vpn.stop env.closing).1).1 := by
    rw [← hopen, hfails]
  have hrunning : (vpn.stop env.closing).1.socket.running = false := by
    rw [hsocket]
    split
    · rfl
    next h => exact Bool.not_eq_true _ ▸ h
  rw [hvpn']
  unfold startRun
  simp only
  by_cases haccepted : ∀ reason : Rejection,
      ¬ reason.Applies env.getByName vpn.interfaceName configuration
  · obtain ⟨p, hplan⟩ := plan_accepts hparse haccepted
    obtain ⟨hfirst, hcall⟩ := reconcileSessions_first env.factory hplan hsessions
    have hperm := sortedKeys_perm hparse hplan
    simp only [hnext, hperm.length_eq, hperm.mem_iff, List.length_map, List.forall_mem_map]
      at hfirst
    cases hfirst with
    | creating hsome | closing hsome | failing hsome =>
        rw [hcall] at hsome
        cases hsome
    | threw _ houtcome hfactory =>
        rw [houtcome]
        exact ⟨fun h => absurd h (not_allStopped rfl), fun h => absurd h.factory hfactory⟩
    | returned _ houtcome hnumbered hfactory =>
        rw [houtcome]
        have hstarted := startCrypto_allStopped_iff env
          { (vpn.stop env.closing).1 with
            currentParsedConfiguration := some parsed
            originalConfiguration := some configuration
            crypto :=
              { (vpn.stop env.closing).1.crypto with
                world := reconcileSessions env.factory parsed
                  (vpn.stop env.closing).1.crypto.world } }
          htun List.nodup_range' hnumbered rfl hrunning
        refine hstarted.trans ?_
        show env.launch = .ok () ∧ (vpn.stop env.closing).1.socket.Bindable _ _ ∧ _ ↔ _
        rw [hsocket, SocketManager.bindable_stopped]
        constructor
        · intro h
          exact ⟨h.2.2, haccepted, hfactory, h.1, h.2.1⟩
        · intro h
          exact ⟨h.launch, h.bind, h.toRefuses⟩
  · obtain ⟨reason, happlies⟩ := not_forall.mp haccepted
    have happlies := not_not.mp happlies
    have hlate : reason.beforeStop = false := by
      by_contra hbefore
      exact hearly reason (Bool.not_eq_false _ ▸ hbefore) happlies
    obtain ⟨throwable, hplan⟩ := plan_rejects hparse hlate happlies
    rw [reconcileSessions_of_plan_error hplan]
    exact ⟨fun h => absurd h (not_allStopped rfl), fun h => absurd happlies (h.accepted reason)⟩

end Failed

/-- No reason applies to a configuration that some environment opens. -/
theorem accepted_of_opened {env : Environment} {vpn : Vpn} {configuration : VpnConfiguration}
    (hopen : (openVpn env vpn configuration).2 = .ok ()) (reason : Rejection) :
    ¬ reason.Applies env.getByName vpn.interfaceName configuration := by
  intro happlies
  by_cases hearly : ∃ reason : Rejection, reason.beforeStop = true ∧
      reason.Applies env.getByName vpn.interfaceName configuration
  · obtain ⟨_, hbefore, happlies⟩ := hearly
    obtain ⟨_, hfails⟩ := openVpn_of_early hbefore happlies
    rw [hfails] at hopen
    cases hopen
  · obtain ⟨_, _, hfails, _⟩ := openVpn_of_late hearly happlies
    rw [hfails] at hopen
    cases hopen

def daemonDown : Environment :=
  { exampleEnvironment with openSession := .error (.illegalState "Owned daemon has exited") }

theorem failed_open_leaves_nothing_iff_daemonDown :
    ∃ vpn', openVpn daemonDown (fresh "utun0") exampleConfiguration =
      (vpn', .error ⟨.interfaceStart,
        .illegalState "Operation `start` failed: Owned daemon has exited"⟩) ∧ vpn'.AllStopped := by
  have hfails : (openVpn daemonDown (fresh "utun0") exampleConfiguration).2 =
      .error ⟨.interfaceStart,
        .illegalState "Operation `start` failed: Owned daemon has exited"⟩ := by
    decide +kernel
  have haccepted : ∀ reason : Rejection,
      ¬ reason.Applies daemonDown.getByName "utun0" exampleConfiguration := by
    have hopened : (openVpn exampleEnvironment (fresh "utun0") exampleConfiguration).2 =
        .ok () := by
      decide +kernel
    exact accepted_of_opened hopened
  refine ⟨_, Prod.ext rfl hfails, ?_⟩
  refine (failed_open_leaves_nothing_iff (fun reason _ => haccepted reason) rfl
    (Prod.ext rfl hfails)).mpr ⟨⟨⟨_, rfl⟩, rfl, fun _ _ => rfl⟩, haccepted, fun _ _ => rfl, rfl,
      Or.inl ⟨_, rfl⟩⟩

def portTaken : Environment :=
  { exampleEnvironment with
    udp :=
      { bindIpv6 := fun _ => .error (.illegalState "Address already in use")
        bindIpv4 := fun _ => .error (.illegalState "Address already in use") } }

/-- The port is taken: `open` throws, and its session and its loops go on. -/
theorem failed_bind_leaves_session :
    (openVpn portTaken (fresh "utun0") exampleConfiguration).2 =
        .error ⟨.socketStart, .illegalState
          "Operation `socketStart` failed: Failed to bind UDP socket for IPv4 and IPv6"⟩ ∧
      (openVpn portTaken (fresh "utun0") exampleConfiguration).1.crypto.hasActiveSessions = true ∧
      (openVpn portTaken (fresh "utun0") exampleConfiguration).1.crypto.scope = true ∧
      (openVpn portTaken (fresh "utun0") exampleConfiguration).1.originalConfiguration =
        some exampleConfiguration ∧
      ¬ (openVpn portTaken (fresh "utun0") exampleConfiguration).1.AllStopped := by
  have hactive : (openVpn portTaken (fresh "utun0")
      exampleConfiguration).1.crypto.hasActiveSessions = true := by
    decide +kernel
  refine ⟨by decide +kernel, hactive, by decide +kernel, by decide +kernel, ?_⟩
  intro hstopped
  rw [hstopped.noActiveSession] at hactive
  cases hactive

end Vpn

end WgKotlin
