import WgKotlin.Crypto.Loops

/-!
# Two iterations side by side

Iterations of the loops that start from different statistics, or whose sessions answer
differently.  The statistics make no difference to what goes on the pipes, and the
session of one peer makes none to the others as long as it returns no error.
-/

namespace WgKotlin
namespace Crypto

open Proto Util Kotlin Library

/-! ### Iterations that agree -/

/-- The two iterations have the same packets for the TUN device, and the same datagrams among
those that are kept. -/
structure Agree (keep : UdpDatagram → Bool) (it it' : Iteration) : Prop where
  network : it.pendingNetwork.filter keep = it'.pendingNetwork.filter keep
  tun : it.pendingTun = it'.pendingTun

/-- Moreover both end in the same way. -/
structure AgreeResult (keep : UdpDatagram → Bool)
    (r r' : Iteration × Except Throwable Unit) : Prop where
  result : r.2 = r'.2
  agree : Agree keep r.1 r'.1

section Agree

variable {keep : UdpDatagram → Bool} {it it' : Iteration}

theorem Agree.call (h : Agree keep it it') (session : PeerSession) :
    Agree keep (it.call session) (it'.call session) := ⟨h.network, h.tun⟩

theorem Agree.return (h : Agree keep it it') (result : Except Throwable Unit) :
    AgreeResult keep (it, result) (it', result) := ⟨rfl, h⟩

/-- What follows an action that has not thrown. -/
theorem AgreeResult.andThen {r r' : Iteration × Except Throwable Unit}
    {k k' : Iteration → Iteration × Except Throwable Unit} :
    AgreeResult keep r r' →
      (∀ it it', Agree keep it it' → AgreeResult keep (k it) (k' it')) →
    AgreeResult keep
      (match r with
        | (it, .error throwable) => (it, .error throwable)
        | (it, .ok ()) => k it)
      (match r' with
        | (it, .error throwable) => (it, .error throwable)
        | (it, .ok ()) => k' it) := by
  intro h hk
  obtain ⟨it, result⟩ := r
  obtain ⟨it', result'⟩ := r'
  obtain ⟨hresult, hagree⟩ := h
  cases hresult
  cases result with
  | error throwable => exact hagree.return _
  | ok u => exact hk it it' hagree

theorem handleAction_agree (h : Agree keep it it') (operation : String) (forwardsToTun : Bool)
    (entry : PeerSessionEntry) (action : PacketAction) :
    AgreeResult keep (handleAction operation forwardsToTun entry action it)
      (handleAction operation forwardsToTun entry action it') := by
  cases action with
  | writeToNetwork packet =>
      unfold handleAction
      simp only
      cases peerEndpoint entry with
      | error throwable => exact ⟨rfl, h.network, h.tun⟩
      | ok endpoint =>
          refine ⟨rfl, ?_, h.tun⟩
          show (it.pendingNetwork ++ [_]).filter keep = (it'.pendingNetwork ++ [_]).filter keep
          rw [List.filter_append, List.filter_append, h.network]
  | writeToTunIpv4 packet =>
      cases forwardsToTun with
      | false => exact h.return _
      | true => exact ⟨rfl, h.network, congrArg (· ++ [packet]) h.tun⟩
  | writeToTunIpv6 packet =>
      cases forwardsToTun with
      | false => exact h.return _
      | true => exact ⟨rfl, h.network, congrArg (· ++ [packet]) h.tun⟩
  | done => exact h.return _
  | error code => exact h.return _
  | notSupported unsupported => exact h.return _

theorem flush_agree (h : Agree keep it it') (selected : PeerSessionEntry) (replies : Nat → Reply)
    (left handled : Nat) (action : PacketAction) :
    AgreeResult keep (flush selected replies left handled action it)
      (flush selected replies left handled action it') := by
  by_cases hdone : action = .done
  · subst hdone
    rw [flush.eq_1, flush.eq_1]
    exact h.return _
  induction left generalizing handled action it it' with
  | zero =>
      rw [flush.eq_2 _ _ _ _ _ hdone, flush.eq_2 _ _ _ _ _ hdone]
      exact h.return _
  | succ left ih =>
      rw [flush.eq_3 _ _ _ _ _ _ hdone, flush.eq_3 _ _ _ _ _ _ hdone]
      refine (handleAction_agree h _ true selected action).andThen fun mid mid' hmid => ?_
      split
      next => exact hmid.return _
      next =>
        have hcalled := hmid.call selected.session
        cases replies (handled + 1) with
        | error throwable => exact hcalled.return _
        | ok next =>
            by_cases hnext : next = .done
            · subst hnext
              simp only [flush.eq_1]
              exact hcalled.return _
            · exact ih hcalled (handled + 1) next hnext

/-- The statistics play no part in what an iteration puts on the pipes. -/
theorem cleartext_agree {guarded guarded' : Guarded}
    (hentries : guarded.sessionEntriesByPeer.values = guarded'.sessionEntriesByPeer.values)
    (packet : Bytes) (reply : Reply) :
    AgreeResult keep (cleartextIteration packet reply guarded)
      (cleartextIteration packet reply guarded') := by
  have hstart : Agree keep (Iteration.start guarded) (Iteration.start guarded') := ⟨rfl, rfl⟩
  unfold cleartextIteration
  rw [hentries]
  cases selectSessionForPacket packet guarded'.sessionEntriesByPeer.values with
  | error throwable => exact hstart.return _
  | ok found =>
      cases found with
      | none => exact hstart.return _
      | some selected =>
          have hcalled := hstart.call selected.session
          cases reply with
          | error throwable => exact hcalled.return _
          | ok action => exact handleAction_agree hcalled _ true selected action

theorem encrypted_agree {guarded guarded' : Guarded}
    (hentries : guarded.sessionEntriesByPeer.values = guarded'.sessionEntriesByPeer.values)
    (datagram : UdpDatagram) (replies : Nat → Reply) :
    AgreeResult keep (encryptedIteration datagram replies guarded)
      (encryptedIteration datagram replies guarded') := by
  have hstart : Agree keep (Iteration.start guarded) (Iteration.start guarded') := ⟨rfl, rfl⟩
  unfold encryptedIteration
  rw [hentries]
  cases firstMatch datagram.remoteEndpoint guarded'.sessionEntriesByPeer.values with
  | error throwable => exact hstart.return _
  | ok found =>
      cases found with
      | none => exact hstart.return _
      | some selected =>
          have hcalled : Agree keep
              (((Iteration.start guarded).addReceived selected.peer.publicKey
                datagram.payload.length).call selected.session)
              (((Iteration.start guarded').addReceived selected.peer.publicKey
                datagram.payload.length).call selected.session) := ⟨rfl, rfl⟩
          cases replies 0 with
          | error throwable => exact hcalled.return _
          | ok action => exact flush_agree hcalled selected replies _ 0 action

end Agree

/-! ### Sessions without errors -/

/-- The action is neither an error nor unsupported. -/
def PacketAction.serves : PacketAction → Bool
  | .done | .writeToNetwork _ | .writeToTunIpv4 _ | .writeToTunIpv6 _ => true
  | .error _ | .notSupported _ => false

/-- The iteration has not thrown and has added no datagram that is kept. -/
structure Quiet (keep : UdpDatagram → Bool) (it : Iteration)
    (r : Iteration × Except Throwable Unit) : Prop where
  result : r.2 = .ok ()
  network : r.1.pendingNetwork.filter keep = it.pendingNetwork.filter keep

section Quiet

variable {keep : UdpDatagram → Bool} {it : Iteration} {entry : PeerSessionEntry}
  {endpoint : UdpEndpoint}

theorem handleAction_quiet (hendpoint : peerEndpoint entry = .ok endpoint)
    (hkeep : ∀ datagram, datagram.remoteEndpoint = endpoint → keep datagram = false)
    {action : PacketAction} (hserves : action.serves = true) (operation : String)
    (forwardsToTun : Bool) (it : Iteration) :
    Quiet keep it (handleAction operation forwardsToTun entry action it) := by
  cases action with
  | done => exact ⟨rfl, rfl⟩
  | writeToNetwork packet =>
      unfold handleAction
      simp only [hendpoint]
      refine ⟨rfl, ?_⟩
      show (it.pendingNetwork ++ [_]).filter keep = _
      rw [List.filter_append, List.filter_singleton, hkeep _ rfl]
      exact List.append_nil _
  | writeToTunIpv4 packet => cases forwardsToTun <;> exact ⟨rfl, rfl⟩
  | writeToTunIpv6 packet => cases forwardsToTun <;> exact ⟨rfl, rfl⟩
  | error code => cases hserves
  | notSupported unsupported => cases hserves

/-- The results serve up to a `Done` within the flush limit. -/
structure Serves (replies : Nat → Reply) (n : Nat) : Prop where
  serve : ∀ i, i < n → ∃ action, replies i = .ok action ∧ action.serves = true
  done : replies n = .ok .done
  limit : n < defaultMaxFlushIterations

theorem flush_quiet (hendpoint : peerEndpoint entry = .ok endpoint)
    (hkeep : ∀ datagram, datagram.remoteEndpoint = endpoint → keep datagram = false)
    {replies : Nat → Reply} {n left handled : Nat} {action : PacketAction}
    (hserve : ∀ i, i < n → ∃ action, replies (handled + i) = .ok action ∧ action.serves = true)
    (hdone : replies (handled + n) = .ok .done) (hleft : n < left)
    (haction : replies handled = .ok action) (it : Iteration) :
    Quiet keep it (flush entry replies left handled action it) := by
  induction n generalizing left handled action it with
  | zero =>
      rw [Nat.add_zero, haction, Except.ok.injEq] at hdone
      rw [hdone, flush.eq_1]
      exact ⟨rfl, rfl⟩
  | succ n ih =>
      by_cases hend : action = .done
      · rw [hend, flush.eq_1]
        exact ⟨rfl, rfl⟩
      obtain ⟨left, rfl⟩ : ∃ l, left = l + 1 := ⟨left - 1, by omega⟩
      obtain ⟨action', haction', hserves⟩ := hserve 0 (Nat.succ_pos n)
      rw [Nat.add_zero, haction, Except.ok.injEq] at haction'
      subst haction'
      have hhandled := handleAction_quiet hendpoint hkeep hserves "decryptToRawPacket" true it
      rw [flush.eq_3 _ _ _ _ _ _ hend]
      generalize handleAction "decryptToRawPacket" true entry action it = r at hhandled ⊢
      obtain ⟨mid, result⟩ := r
      obtain ⟨hresult, hnetwork⟩ := hhandled
      cases hresult
      have hmore : ¬ left = 0 := by omega
      simp only [if_neg hmore]
      have hshift : ∀ i, handled + (i + 1) = handled + 1 + i := fun i => by omega
      have hnext : ∃ next, replies (handled + 1) = .ok next := by
        cases n with
        | zero => exact ⟨_, hdone⟩
        | succ n =>
            obtain ⟨next, hnext, _⟩ := hserve 1 (by omega)
            exact ⟨next, hnext⟩
      obtain ⟨next, hnext⟩ := hnext
      simp only [hnext]
      have hrest : Quiet keep (mid.call entry.session)
          (flush entry replies left (handled + 1) next (mid.call entry.session)) :=
        ih (fun i hi => hshift i ▸ hserve (i + 1) (by omega)) (hshift n ▸ hdone) (by omega) hnext _
      exact ⟨hrest.result, hrest.network.trans hnetwork⟩

theorem cleartext_quiet (hendpoint : peerEndpoint entry = .ok endpoint)
    (hkeep : ∀ datagram, datagram.remoteEndpoint = endpoint → keep datagram = false)
    {guarded : Guarded} {packet : Bytes} {action : PacketAction}
    (hselected : selectSessionForPacket packet guarded.sessionEntriesByPeer.values =
      .ok (some entry)) (hserves : action.serves = true) :
    Quiet keep (Iteration.start guarded) (cleartextIteration packet (.ok action) guarded) := by
  unfold cleartextIteration
  rw [hselected]
  have hhandled := handleAction_quiet hendpoint hkeep hserves "encryptRawPacket" true
    ((Iteration.start guarded).call entry.session)
  exact ⟨hhandled.result, hhandled.network⟩

theorem encrypted_quiet (hendpoint : peerEndpoint entry = .ok endpoint)
    (hkeep : ∀ datagram, datagram.remoteEndpoint = endpoint → keep datagram = false)
    {guarded : Guarded} {datagram : UdpDatagram} {replies : Nat → Reply} {n : Nat}
    (hselected : firstMatch datagram.remoteEndpoint guarded.sessionEntriesByPeer.values =
      .ok (some entry)) (hserves : Serves replies n) :
    Quiet keep (Iteration.start guarded) (encryptedIteration datagram replies guarded) := by
  obtain ⟨action, haction⟩ : ∃ action, replies 0 = .ok action := by
    cases n with
    | zero => exact ⟨_, hserves.done⟩
    | succ n =>
        obtain ⟨action, haction, _⟩ := hserves.serve 0 (Nat.succ_pos n)
        exact ⟨action, haction⟩
  unfold encryptedIteration
  simp only [hselected, haction]
  have hflush := flush_quiet hendpoint hkeep
    (fun i hi => (Nat.zero_add i).symm ▸ hserves.serve i hi)
    ((Nat.zero_add n).symm ▸ hserves.done) hserves.limit haction
    (((Iteration.start guarded).addReceived entry.peer.publicKey datagram.payload.length).call
      entry.session)
  exact ⟨hflush.result, hflush.network⟩

theorem handleAction_keeps_tun (operation : String) (entry : PeerSessionEntry)
    (action : PacketAction) (it : Iteration) :
    (handleAction operation false entry action it).1.pendingTun = it.pendingTun := by
  cases action with
  | writeToNetwork packet =>
      unfold handleAction
      cases peerEndpoint entry <;> rfl
  | _ => rfl

/-- The answers of a session without errors make no difference to the others. -/
theorem periodic_agree (hendpoint : peerEndpoint entry = .ok endpoint)
    (hkeep : ∀ datagram, datagram.remoteEndpoint = endpoint → keep datagram = false)
    {replies replies' : Nat → Reply} {entries : List PeerSessionEntry} {i : Nat}
    (hsame : ∀ k e, entries[k]? = some e → e ≠ entry → replies (i + k) = replies' (i + k))
    (hserves : ∀ k, entries[k]? = some entry →
      ∃ action, replies (i + k) = .ok action ∧ action.serves = true)
    (hserves' : ∀ k, entries[k]? = some entry →
      ∃ action, replies' (i + k) = .ok action ∧ action.serves = true)
    {it' : Iteration} (h : Agree keep it it') :
    AgreeResult keep (periodicEntries replies i entries it)
      (periodicEntries replies' i entries it') := by
  induction entries generalizing i it it' with
  | nil => exact h.return _
  | cons e rest ih =>
      have hshift : ∀ k, i + (k + 1) = i + 1 + k := fun k => by omega
      have hrest : ∀ mid mid', Agree keep mid mid' →
          AgreeResult keep (periodicEntries replies (i + 1) rest mid)
            (periodicEntries replies' (i + 1) rest mid') := by
        intro mid mid' hmid
        refine ih ?_ ?_ ?_ hmid
        · exact fun k e he hne => hshift k ▸ hsame (k + 1) e he hne
        · exact fun k he => hshift k ▸ hserves (k + 1) he
        · exact fun k he => hshift k ▸ hserves' (k + 1) he
      rw [periodicEntries.eq_2, periodicEntries.eq_2]
      by_cases hentry : e = entry
      · subst hentry
        obtain ⟨action, haction, hserve⟩ := hserves 0 rfl
        obtain ⟨action', haction', hserve'⟩ := hserves' 0 rfl
        rw [Nat.add_zero] at haction haction'
        simp only [haction, haction']
        have hquiet := handleAction_quiet hendpoint hkeep hserve "runPeriodicTask" false
          (it.call e.session)
        have hquiet' := handleAction_quiet hendpoint hkeep hserve' "runPeriodicTask" false
          (it'.call e.session)
        have hmid : AgreeResult keep
            (handleAction "runPeriodicTask" false e action (it.call e.session))
            (handleAction "runPeriodicTask" false e action' (it'.call e.session)) := by
          refine ⟨hquiet.result.trans hquiet'.result.symm, ?_, ?_⟩
          · exact (hquiet.network.trans h.network).trans hquiet'.network.symm
          · rw [handleAction_keeps_tun, handleAction_keeps_tun]
            exact h.tun
        exact hmid.andThen hrest
      · have hreply := hsame 0 e rfl hentry
        rw [Nat.add_zero] at hreply
        rw [hreply]
        cases replies' i with
        | error throwable => exact (h.call e.session).return _
        | ok action =>
            exact (handleAction_agree (h.call e.session) _ false e action).andThen hrest

end Quiet

end Crypto
end WgKotlin
