import WgKotlin.Crypto.Manager

/-!
# Reconciliation is atomic and leaks nothing

The sessions that the manager must still close are those of the map and those
that the running call holds outside the map.  The invariant is that the history
balances against this set: what is owned was obtained from the factory and not
closed, and what is no longer owned was closed once.
-/

namespace WgKotlin
namespace Crypto

open Proto Util Kotlin Library

/-! ### What a plan asks for -/

theorem mapAll_resolvePeer {peers resolved : List ParsedVpnPeer}
    (h : mapAll resolvePeer peers = .ok resolved) : resolved = peers := by
  have hall := mapAll_eq_ok.mp h
  clear h
  induction hall with
  | nil => rfl
  | cons hab _ ih =>
      rw [ih]
      unfold resolvePeer at hab
      split at hab
      · cases hab
        rfl
      · cases hab

structure PlanSpec (config : ParsedVpnConfiguration) (plan : Plan) : Prop where
  nodup : (config.peers.map ParsedVpnPeer.publicKey).Nodup
  desiredPeers : plan.desiredPeers.entries = config.peers.map fun peer => (peer.publicKey, peer)
  desiredIndexes : plan.desiredIndexes.entries =
    (sortedKeys (config.peers.map ParsedVpnPeer.publicKey)).zipIdx 1

theorem sortedKeys_nodup {keys : List String} (h : keys.Nodup) : (sortedKeys keys).Nodup :=
  (sortedBy_perm id keys).nodup_iff.mpr h

theorem plan_spec {config : ParsedVpnConfiguration} {p : Plan} (h : plan config = .ok p) :
    PlanSpec config p := by
  obtain ⟨_, hunique, h⟩ := bind_eq_ok.mp h
  obtain ⟨_, _, h⟩ := bind_eq_ok.mp h
  obtain ⟨_, _, h⟩ := bind_eq_ok.mp h
  obtain ⟨resolved, hresolved, h⟩ := bind_eq_ok.mp h
  have hres := mapAll_resolvePeer hresolved
  subst hres
  have hnodup : (config.peers.map ParsedVpnPeer.publicKey).Nodup :=
    requireUniqueKeys_eq_ok.mp hunique
  have hfst : (config.peers.map fun peer => (peer.publicKey, peer)).map Prod.fst =
      config.peers.map ParsedVpnPeer.publicKey := List.map_map
  have hpeers := LinkedMap.entries_putAll_empty (by rw [hfst]; exact hnodup)
  have hkeys : ((LinkedMap.empty : LinkedMap String ParsedVpnPeer).putAll
      (config.peers.map fun peer => (peer.publicKey, peer))).keys =
      config.peers.map ParsedVpnPeer.publicKey := by
    rw [LinkedMap.keys, hpeers, hfst]
  cases h
  refine ⟨hnodup, hpeers, ?_⟩
  show (LinkedMap.putAll _ _).entries = _
  rw [hkeys]
  refine LinkedMap.entries_putAll_empty ?_
  rw [List.zipIdx_map_fst]
  exact sortedKeys_nodup hnodup

theorem PlanSpec.keys {config : ParsedVpnConfiguration} {p : Plan} (h : PlanSpec config p) :
    p.desiredPeers.keys = config.peers.map ParsedVpnPeer.publicKey := by
  rw [LinkedMap.keys, h.desiredPeers, List.map_map]
  rfl

/-- A map that matches a configuration: its keys are the public keys in sorted
order, every peer is there as configured, and the indexes count from one in the
order of the keys.  The order of the peers does not matter. -/
structure Applied (config : ParsedVpnConfiguration)
    (entries : LinkedMap String PeerSessionEntry) : Prop where
  keys : ∀ peers, config.peers.Perm peers →
    entries.keys = sortedKeys (peers.map ParsedVpnPeer.publicKey)
  mem_keys : ∀ key, key ∈ entries.keys ↔ key ∈ config.peers.map ParsedVpnPeer.publicKey
  peers : ∀ peer ∈ config.peers, ∃ e, entries.get peer.publicKey = some e ∧ e.peer = peer
  indexes : entries.entries.map (fun q => (q.1, q.2.session.peerIndex)) =
    (sortedKeys (config.peers.map ParsedVpnPeer.publicKey)).zipIdx 1

theorem PlanSpec.applied {config : ParsedVpnConfiguration} {p : Plan} (h : PlanSpec config p)
    {entries : LinkedMap String PeerSessionEntry}
    (hkeys : entries.keys = sortedKeys (config.peers.map ParsedVpnPeer.publicKey))
    (hwants : ∀ key e, entries.get key = some e → p.Wants key e) : Applied config entries where
  keys := by
    intro peers hperm
    rw [hkeys]
    exact sortedBy_eq_of_perm id (hperm.map _) fun _ _ _ _ he => he
  mem_keys := by
    intro key
    rw [hkeys]
    exact mem_sortedBy id
  peers := by
    intro peer hpeer
    have hmem : peer.publicKey ∈ entries.keys := by
      rw [hkeys]
      exact (mem_sortedBy id).mpr (List.mem_map.mpr ⟨peer, hpeer, rfl⟩)
    obtain ⟨e, he⟩ := LinkedMap.mem_keys_iff.mp hmem
    refine ⟨e, he, ?_⟩
    have hget : p.desiredPeers.get peer.publicKey = some peer := by
      rw [LinkedMap.get_eq_some_iff, h.desiredPeers]
      exact List.mem_map.mpr ⟨peer, hpeer, rfl⟩
    have hwant := (hwants _ e he).peer
    rw [hget] at hwant
    exact (Option.some.inj hwant).symm
  indexes := by
    refine LinkedMap.eq_of_keys_of_subset ?_ ?_ ?_
    · rw [List.map_map, List.zipIdx_map_fst]
      exact hkeys
    · rw [List.zipIdx_map_fst]
      exact sortedKeys_nodup h.nodup
    · intro q hq
      obtain ⟨⟨key, e⟩, he, rfl⟩ := List.mem_map.mp hq
      have hwant := (hwants key e (LinkedMap.get_eq_some_iff.mpr he)).index
      rw [LinkedMap.get_eq_some_iff, h.desiredIndexes] at hwant
      exact hwant

/-! ### Accounts -/

/-- The active sessions that the factory returned. -/
def obtained (trace : List Event) : List PeerSession :=
  trace.filterMap fun
    | .created session true => some session
    | _ => none

/-- The sessions that the manager closed, once for each call of `close`. -/
def closes (trace : List Event) : List PeerSession :=
  trace.filterMap fun
    | .closed session => some session
    | _ => none

theorem mem_closes {trace : List Event} {s : PeerSession} :
    s ∈ closes trace ↔ Event.closed s ∈ trace := by
  rw [closes, List.mem_filterMap]
  constructor
  · intro h
    obtain ⟨event, hevent, h⟩ := h
    cases event with
    | closed session =>
        cases h
        exact hevent
    | created session isActive => cases h
    | called session => cases h
  · intro h
    exact ⟨_, h, rfl⟩

def InMap (entries : LinkedMap String PeerSessionEntry) (s : PeerSession) : Prop :=
  ∃ e ∈ entries.values, e.session = s

/-- An entry under its key, with the session that was created for its peer. -/
structure Keyed (key : String) (e : PeerSessionEntry) : Prop where
  key : e.peer.publicKey = key
  peer : e.session.createdBy.peer = e.peer
  index : e.session.createdBy.peerIndex = e.session.peerIndex

/-- The accounts of a manager that has `entries` in its map and holds `pending`
outside of it. -/
structure Accounts (entries : LinkedMap String PeerSessionEntry) (pending : List PeerSession)
    (nextId : Nat) (trace : List Event) : Prop where
  ledger : Balanced (fun s => InMap entries s ∨ s ∈ pending) (obtained trace) (closes trace)
  fresh : ∀ s ∈ obtained trace, s.id < nextId
  keyed : ∀ key e, entries.get key = some e → Keyed key e
  nodup : pending.Nodup
  apart : ∀ s ∈ pending, ¬ InMap entries s
  calls : ∀ s earlier, Event.called s :: earlier <:+ trace → Event.closed s ∉ earlier

/-- One session belongs to one entry. -/
theorem keyed_unique {k k' : String} {e e' : PeerSessionEntry} (h : Keyed k e) (h' : Keyed k' e')
    (hs : e.session = e'.session) : k = k' ∧ e = e' := by
  have hpeer : e.peer = e'.peer := by rw [← h.peer, ← h'.peer, hs]
  have he : e = e' := by
    cases e
    cases e'
    cases hpeer
    cases hs
    rfl
  rw [← h.key, ← h'.key, he]
  exact ⟨rfl, rfl⟩

namespace Accounts

variable {entries : LinkedMap String PeerSessionEntry} {pending : List PeerSession} {nextId : Nat}
  {trace : List Event} {s : PeerSession}

/-- An event that is no call of a session keeps the calls in order. -/
theorem calls_cons (h : Accounts entries pending nextId trace) {event : Event}
    (hevent : ∀ s, event ≠ .called s) (s : PeerSession) (earlier : List Event)
    (hsuffix : Event.called s :: earlier <:+ event :: trace) : Event.closed s ∉ earlier := by
  rcases List.suffix_cons_iff.mp hsuffix with heq | hsuffix
  · rw [List.cons.injEq] at heq
    exact absurd heq.1.symm (hevent s)
  · exact h.calls s earlier hsuffix

theorem called (h : Accounts entries pending nextId trace) (hs : InMap entries s) :
    Accounts entries pending nextId (.called s :: trace) where
  ledger := h.ledger
  fresh := h.fresh
  keyed := h.keyed
  nodup := h.nodup
  apart := h.apart
  calls := by
    intro s' earlier hsuffix
    rcases List.suffix_cons_iff.mp hsuffix with heq | hsuffix
    · rw [List.cons.injEq, Event.called.injEq] at heq
      obtain ⟨rfl, rfl⟩ := heq
      intro hclosed
      exact h.ledger.notMem_released (Or.inl hs) (mem_closes.mpr hclosed)
    · exact h.calls s' earlier hsuffix

theorem calledAll (h : Accounts entries pending nextId trace) {sessions : List PeerSession}
    (hs : ∀ s ∈ sessions, InMap entries s) :
    Accounts entries pending nextId (sessions.map Event.called ++ trace) := by
  induction sessions with
  | nil => exact h
  | cons session rest ih =>
      have hrest := ih fun s hmem => hs s (List.mem_cons_of_mem session hmem)
      exact hrest.called (hs session List.mem_cons_self)

/-- The factory returns an inactive session, which the manager does not keep. -/
theorem createInactive (h : Accounts entries pending nextId trace) :
    Accounts entries pending (nextId + 1) (.created s false :: trace) where
  ledger := h.ledger
  fresh := fun s' hs' => Nat.lt_succ_of_lt (h.fresh s' hs')
  keyed := h.keyed
  nodup := h.nodup
  apart := h.apart
  calls := h.calls_cons (fun _ he => by cases he)

theorem notMem_obtained (h : Accounts entries pending nextId trace) (hid : s.id = nextId) :
    s ∉ obtained trace := by
  intro hs
  have hlt := h.fresh s hs
  omega

/-- The factory returns an active session, which is pending from then on. -/
theorem createActive (h : Accounts entries pending nextId trace) (hid : s.id = nextId) :
    Accounts entries (pending ++ [s]) (nextId + 1) (.created s true :: trace) := by
  have hnew := h.notMem_obtained hid
  have hfree : ¬ (InMap entries s ∨ s ∈ pending) := fun ho =>
    hnew (h.ledger.acquired_of_owned s ho)
  rw [not_or] at hfree
  refine ⟨?_, ?_, h.keyed, ?_, ?_, h.calls_cons (fun _ he => by cases he)⟩
  · refine (h.ledger.acquire hnew).congr fun x => ?_
    rw [List.mem_append, List.mem_singleton, or_assoc]
  · intro s' hs'
    rcases List.mem_cons.mp hs' with rfl | hs'
    · omega
    · exact Nat.lt_succ_of_lt (h.fresh s' hs')
  · refine List.nodup_append.mpr ⟨h.nodup, List.nodup_singleton s, fun a ha b hb hab => ?_⟩
    rw [List.mem_singleton] at hb
    rw [hab, hb] at ha
    exact hfree.2 ha
  · intro s' hs'
    rcases List.mem_append.mp hs' with hs' | hs'
    · exact h.apart s' hs'
    · rw [List.mem_singleton.mp hs']
      exact hfree.1

/-- Closing a pending session settles it. -/
theorem close (h : Accounts entries (s :: pending) nextId trace) :
    Accounts entries pending nextId (.closed s :: trace) := by
  obtain ⟨hs, hnodup⟩ := List.nodup_cons.mp h.nodup
  have hmap := h.apart s List.mem_cons_self
  refine ⟨?_, h.fresh, h.keyed, hnodup, ?_, h.calls_cons (fun _ he => by cases he)⟩
  · refine (h.ledger.release (Or.inr List.mem_cons_self)).congr fun x => ?_
    constructor
    · intro hx
      rcases hx.1 with hx' | hx'
      · exact Or.inl hx'
      · exact Or.inr ((List.mem_cons.mp hx').resolve_left hx.2)
    · intro hx
      rcases hx with hx | hx
      · exact ⟨Or.inl hx, fun e => hmap (e ▸ hx)⟩
      · exact ⟨Or.inr (List.mem_cons_of_mem s hx), fun e => hs (e ▸ hx)⟩
  · exact fun x hx => h.apart x (List.mem_cons_of_mem s hx)

/-- The swap passes ownership on: what it takes out of the map becomes pending,
and what was pending goes into the map. -/
theorem swap {next : LinkedMap String PeerSessionEntry} {created : List PeerSessionEntry}
    (h : Accounts entries (created.map PeerSessionEntry.session) nextId trace)
    (hkeyed : ∀ key e, next.get key = some e → Keyed key e)
    (horigin : ∀ key e, next.get key = some e → entries.get key = some e ∨ e ∈ created)
    (hcreated : ∀ e ∈ created, ∃ key, next.get key = some e) :
    Accounts next ((entries.entries.filter fun p => decide (next.get p.1 ≠ some p.2)).map
      fun p => p.2.session) nextId trace where
  ledger := by
    refine h.ledger.congr fun s => ?_
    constructor
    · intro hs
      rcases hs with ⟨e, he, rfl⟩ | hs
      · obtain ⟨key, hkey⟩ := LinkedMap.mem_values_iff.mp he
        by_cases hnext : next.get key = some e
        · exact Or.inl ⟨e, LinkedMap.mem_values_iff.mpr ⟨key, hnext⟩, rfl⟩
        · refine Or.inr (List.mem_map.mpr ⟨(key, e), ?_, rfl⟩)
          exact List.mem_filter.mpr ⟨LinkedMap.get_eq_some_iff.mp hkey, decide_eq_true hnext⟩
      · obtain ⟨e, he, rfl⟩ := List.mem_map.mp hs
        obtain ⟨key, hkey⟩ := hcreated e he
        exact Or.inl ⟨e, LinkedMap.mem_values_iff.mpr ⟨key, hkey⟩, rfl⟩
    · intro hs
      rcases hs with ⟨e, he, rfl⟩ | hs
      · obtain ⟨key, hkey⟩ := LinkedMap.mem_values_iff.mp he
        rcases horigin key e hkey with hold | hnew
        · exact Or.inl ⟨e, LinkedMap.mem_values_iff.mpr ⟨key, hold⟩, rfl⟩
        · exact Or.inr (List.mem_map.mpr ⟨e, hnew, rfl⟩)
      · obtain ⟨p, hp, rfl⟩ := List.mem_map.mp hs
        exact Or.inl ⟨p.2, List.mem_map.mpr ⟨p, List.mem_of_mem_filter hp, rfl⟩, rfl⟩
  fresh := h.fresh
  keyed := hkeyed
  nodup := by
    have hsessions : (entries.entries.map fun p => p.2.session).Nodup := by
      refine List.Nodup.map_on ?_ (List.Nodup.of_map _ entries.nodup)
      intro p hp q hq hpq
      obtain ⟨hk, he⟩ := keyed_unique (h.keyed p.1 p.2 (LinkedMap.get_eq_some_iff.mpr hp))
        (h.keyed q.1 q.2 (LinkedMap.get_eq_some_iff.mpr hq)) hpq
      exact Prod.ext hk he
    exact (List.filter_sublist.map _).nodup hsessions
  apart := by
    intro s hs hmap
    obtain ⟨p, hp, rfl⟩ := List.mem_map.mp hs
    obtain ⟨hp, hreplaced⟩ := List.mem_filter.mp hp
    obtain ⟨e, he, hes⟩ := hmap
    obtain ⟨key, hkey⟩ := LinkedMap.mem_values_iff.mp he
    obtain ⟨rfl, rfl⟩ := keyed_unique (hkeyed key e hkey)
      (h.keyed p.1 p.2 (LinkedMap.get_eq_some_iff.mpr hp)) hes
    exact of_decide_eq_true hreplaced hkey
  calls := h.calls

end Accounts

/-! ### The invariant of the manager -/

/-- The sessions that a call holds outside the map. -/
def Call.pending (call : Call) : List PeerSession :=
  match call.phase with
  | .creating _ => call.createdSessions.map PeerSessionEntry.session
  | .rollback remaining _ => remaining.map PeerSessionEntry.session
  | .closing remaining => (remaining.filter (replaced call)).map fun p => p.2.session

def World.pending (w : World) : List PeerSession :=
  match w.call with
  | none => []
  | some call => call.pending

/-- A call in its creation loop: the map is still the one it started from, and
each entry prepared so far is reused from it or created by this call. -/
structure Creating (entries : LinkedMap String PeerSessionEntry) (call : Call)
    (remaining : List String) : Prop where
  previous : call.previousSessions = entries
  keys : call.nextSessions.keys ++ remaining =
    sortedKeys (call.config.peers.map ParsedVpnPeer.publicKey)
  wants : ∀ key e, call.nextSessions.get key = some e → call.plan.Wants key e
  keyed : ∀ key e, call.nextSessions.get key = some e → Keyed key e
  origin : ∀ key e, call.nextSessions.get key = some e →
    entries.get key = some e ∨ e ∈ call.createdSessions
  created : ∀ e ∈ call.createdSessions, ∃ key, call.nextSessions.get key = some e

def CallInv (entries : LinkedMap String PeerSessionEntry) (call : Call) : Prop :=
  PlanSpec call.config call.plan ∧
    match call.phase with
    | .creating remaining => Creating entries call remaining
    | .rollback _ _ => True
    | .closing _ => Applied call.config entries

structure Inv (w : World) : Prop where
  accounts : Accounts w.sessionEntriesByPeer w.pending w.nextId w.trace
  call : ∀ call, w.call = some call → CallInv w.sessionEntriesByPeer call

theorem inv_init : Inv World.init where
  accounts :=
    { ledger := Balanced.nil.congr fun s => ⟨False.elim, fun h => by
        rcases h with ⟨e, he, _⟩ | h
        · cases he
        · cases h⟩
      fresh := fun s hs => (by cases hs)
      keyed := fun key e he => (by cases he)
      nodup := List.nodup_nil
      apart := fun s hs => (by cases hs)
      calls := fun s earlier h => (by cases List.suffix_nil.mp h) }
  call := fun call h => (by cases h)

theorem inv_loopStep {w : World} (h : Inv w) (label : LoopLabel) : Inv (loopStep w label) where
  accounts := h.accounts.calledAll fun _ hs => mem_called_iteration hs
  call := h.call

theorem inv_startCall {w : World} (h : Inv w) (hidle : w.call = none)
    (config : ParsedVpnConfiguration) : Inv (startCall w config) := by
  have hpending : w.pending = [] := by rw [World.pending, hidle]
  unfold startCall
  cases hplan : plan config with
  | error throwable => exact ⟨h.accounts, h.call⟩
  | ok p =>
      have hspec := plan_spec hplan
      refine ⟨?_, ?_⟩
      · have haccounts := h.accounts
        rw [hpending] at haccounts
        exact haccounts
      · intro call hcall
        cases hcall
        refine ⟨hspec, rfl, ?_, ?_, ?_, ?_, ?_⟩
        · show LinkedMap.keys LinkedMap.empty ++ sortedKeys p.desiredPeers.keys = _
          rw [hspec.keys]
          rfl
        · exact fun key e he => by cases he
        · exact fun key e he => by cases he
        · exact fun key e he => by cases he
        · exact fun e he => by cases he

section Advance

variable {w : World} {call : Call}

theorem pending_of_call (hcall : w.call = some call) : w.pending = call.pending := by
  rw [World.pending, hcall]

theorem pending_of_creating (hcall : w.call = some call) {remaining : List String}
    (hphase : call.phase = .creating remaining) :
    w.pending = call.createdSessions.map PeerSessionEntry.session := by
  rw [pending_of_call hcall, Call.pending, hphase]

theorem creating_of_inv (h : Inv w) (hcall : w.call = some call) {remaining : List String}
    (hphase : call.phase = .creating remaining) :
    PlanSpec call.config call.plan ∧ Creating w.sessionEntriesByPeer call remaining := by
  have hinv := h.call call hcall
  rw [CallInv, hphase] at hinv
  exact hinv

/-- A throw hands the created sessions to the handler. -/
theorem inv_throwInCall (h : Inv w) (hcall : w.call = some call) {remaining : List String}
    (hphase : call.phase = .creating remaining) (throwable : Throwable) :
    Inv (throwInCall w call throwable) := by
  have haccounts := h.accounts
  rw [pending_of_creating hcall hphase] at haccounts
  refine ⟨haccounts, ?_⟩
  intro call' hcall'
  cases hcall'
  exact ⟨(creating_of_inv h hcall hphase).1, trivial⟩

/-- One more key of the creation loop, with a reused or a created entry. -/
theorem Creating.keep {entries : LinkedMap String PeerSessionEntry} {publicKey : String}
    {remaining : List String} (hspec : PlanSpec call.config call.plan)
    (hc : Creating entries call (publicKey :: remaining)) {e : PeerSessionEntry}
    {created : List PeerSessionEntry} (hwants : call.plan.Wants publicKey e)
    (hkeyed : Keyed publicKey e) (horigin : entries.get publicKey = some e ∨ e ∈ created)
    (hsub : ∀ e' ∈ created, e' ∈ call.createdSessions ∨ e' = e)
    (hsup : ∀ e' ∈ call.createdSessions, e' ∈ created) :
    Creating entries ({ call with createdSessions := created }.keep publicKey remaining e)
      remaining := by
  have hnodup : (call.nextSessions.keys ++ publicKey :: remaining).Nodup := by
    rw [hc.keys]
    exact sortedKeys_nodup hspec.nodup
  have hnew : publicKey ∉ call.nextSessions.keys := fun hm =>
    (List.nodup_append.mp hnodup).2.2 publicKey hm publicKey List.mem_cons_self rfl
  have hget : ∀ key e', (call.nextSessions.put publicKey e).get key = some e' →
      key = publicKey ∧ e' = e ∨ call.nextSessions.get key = some e' := by
    intro key e' he'
    rw [LinkedMap.get_put] at he'
    by_cases hk : publicKey = key
    · rw [if_pos hk] at he'
      exact Or.inl ⟨hk.symm, (Option.some.inj he').symm⟩
    · rw [if_neg hk] at he'
      exact Or.inr he'
  refine ⟨hc.previous, ?_, ?_, ?_, ?_, ?_⟩
  · show (call.nextSessions.put publicKey e).keys ++ remaining = _
    rw [LinkedMap.keys_put, if_neg hnew, List.append_assoc]
    exact hc.keys
  · intro key e' he'
    rcases hget key e' he' with ⟨rfl, rfl⟩ | he'
    · exact hwants
    · exact hc.wants key e' he'
  · intro key e' he'
    rcases hget key e' he' with ⟨rfl, rfl⟩ | he'
    · exact hkeyed
    · exact hc.keyed key e' he'
  · intro key e' he'
    rcases hget key e' he' with ⟨rfl, rfl⟩ | he'
    · exact horigin
    · exact (hc.origin key e' he').imp_right (hsup e')
  · intro e' he'
    rcases hsub e' he' with he' | rfl
    · obtain ⟨key, hkey⟩ := hc.created e' he'
      refine ⟨key, ?_⟩
      have hne : publicKey ≠ key := fun e => hnew (e ▸ LinkedMap.mem_keys_iff.mpr ⟨e', hkey⟩)
      exact (LinkedMap.get_put_ne _ hne _).trans hkey
    · exact ⟨publicKey, LinkedMap.get_put_self _ _ _⟩

theorem PlanSpec.publicKey_of_wants {config : ParsedVpnConfiguration} {p : Plan}
    (h : PlanSpec config p) {key : String} {e : PeerSessionEntry} (hwants : p.Wants key e) :
    e.peer ∈ config.peers ∧ e.peer.publicKey = key := by
  have hpeer := hwants.peer
  rw [LinkedMap.get_eq_some_iff, h.desiredPeers] at hpeer
  obtain ⟨peer, hmem, he⟩ := List.mem_map.mp hpeer
  rw [Prod.mk.injEq] at he
  obtain ⟨rfl, rfl⟩ := he
  exact ⟨hmem, rfl⟩

theorem inv_reconcilePeer (h : Inv w) (hcall : w.call = some call) {publicKey : String}
    {remaining : List String} (hphase : call.phase = .creating (publicKey :: remaining))
    {w' : World} (hstep : PeerStep w call publicKey remaining w') : Inv w' := by
  obtain ⟨hspec, hcreating⟩ := creating_of_inv h hcall hphase
  have haccounts := h.accounts
  rw [pending_of_creating hcall hphase] at haccounts
  cases hstep with
  | threw throwable => exact inv_throwInCall h hcall hphase throwable
  | inactive session throwable =>
      have hcreated : Inv (recordCreation w session false) :=
        ⟨h.accounts.createInactive, h.call⟩
      exact inv_throwInCall hcreated hcall hphase throwable
  | reused previous hprevious hwants _ =>
      rw [hcreating.previous] at hprevious
      refine ⟨haccounts, ?_⟩
      intro call' hcall'
      cases hcall'
      exact ⟨hspec, hcreating.keep hspec hwants (h.accounts.keyed _ _ hprevious)
        (Or.inl hprevious) (fun _ he => Or.inl he) (fun _ he => he)⟩
  | created peer peerIndex entry hentry hwants =>
      subst hentry
      refine ⟨?_, ?_⟩
      · show Accounts _ (List.map _ (_ ++ [_])) _ _
        rw [List.map_append]
        exact haccounts.createActive rfl
      · intro call' hcall'
        cases hcall'
        refine ⟨hspec, hcreating.keep hspec hwants
          ⟨(hspec.publicKey_of_wants hwants).2, rfl, rfl⟩ ?_ ?_ ?_⟩
        · exact Or.inr (List.mem_append_right _ List.mem_cons_self)
        · intro e' he'
          exact (List.mem_append.mp he').imp_right List.mem_singleton.mp
        · exact fun e' he' => List.mem_append_left _ he'

theorem inv_swap (h : Inv w) (hcall : w.call = some call) (hphase : call.phase = .creating []) :
    Inv (swap w call) := by
  obtain ⟨hspec, hcreating⟩ := creating_of_inv h hcall hphase
  have haccounts := h.accounts
  rw [pending_of_creating hcall hphase] at haccounts
  have hswap := haccounts.swap hcreating.keyed hcreating.origin hcreating.created
  rw [← hcreating.previous] at hswap
  refine ⟨hswap, ?_⟩
  intro call' hcall'
  cases hcall'
  have hkeys := hcreating.keys
  rw [List.append_nil] at hkeys
  exact ⟨hspec, hspec.applied hkeys hcreating.wants⟩

/-- A step of the handler that closes what the call created. -/
theorem inv_rollback (h : Inv w) (hcall : w.call = some call) {entry : PeerSessionEntry}
    {remaining : List PeerSessionEntry} {throwable : Throwable}
    (hphase : call.phase = .rollback (entry :: remaining) throwable) :
    Inv { w.close entry.session with
      call := some { call with phase := .rollback remaining throwable } } := by
  have haccounts := h.accounts
  rw [pending_of_call hcall, Call.pending, hphase] at haccounts
  refine ⟨haccounts.close, ?_⟩
  intro call' hcall'
  cases hcall'
  exact ⟨(h.call call hcall).1, trivial⟩

/-- A step of the loop that closes what the swap replaced. -/
theorem inv_closing (h : Inv w) (hcall : w.call = some call)
    {previous : String × PeerSessionEntry} {remaining : List (String × PeerSessionEntry)}
    (hphase : call.phase = .closing (previous :: remaining)) :
    Inv { (if replaced call previous then w.close previous.2.session else w) with
      call := some { call with phase := .closing remaining } } := by
  have haccounts := h.accounts
  rw [pending_of_call hcall, Call.pending, hphase] at haccounts
  simp only [List.filter_cons] at haccounts
  have hinv := h.call call hcall
  rw [CallInv, hphase] at hinv
  split
  next hreplaced =>
    rw [if_pos hreplaced] at haccounts
    refine ⟨haccounts.close, ?_⟩
    intro call' hcall'
    cases hcall'
    exact hinv
  next hkept =>
    rw [if_neg hkept] at haccounts
    refine ⟨haccounts, ?_⟩
    intro call' hcall'
    cases hcall'
    exact hinv

/-- The end of a call leaves nothing pending. -/
theorem inv_return (h : Inv w) (hpending : w.pending = []) (outcome : Except Throwable Unit) :
    Inv { w with call := none, outcome := some outcome } := by
  have haccounts := h.accounts
  rw [hpending] at haccounts
  exact ⟨haccounts, fun call' hcall' => (by cases hcall')⟩

theorem inv_advance (h : Inv w) (hcall : w.call = some call) (reply : FactoryReply) :
    Inv (advance w call reply) := by
  unfold advance
  split
  next hphase => exact inv_reconcilePeer h hcall hphase (reconcilePeer_step w call _ _ reply)
  next hphase => exact inv_swap h hcall hphase
  next hphase => exact inv_rollback h hcall hphase
  next hphase =>
    exact inv_return h (by rw [pending_of_call hcall, Call.pending, hphase]; rfl) _
  next hphase => exact inv_closing h hcall hphase
  next hphase =>
    exact inv_return h (by rw [pending_of_call hcall, Call.pending, hphase]; rfl) _

end Advance

theorem inv_step {w w' : World} {label : Label} (h : Inv w) (hstep : step w label = some w') :
    Inv w' := by
  rcases step_cases hstep with ⟨config, _, hidle, rfl⟩ | ⟨reply, call, _, hcall, rfl⟩ |
    ⟨loop, _, rfl⟩ | ⟨id, _, rfl⟩
  · exact inv_startCall h hidle config
  · exact inv_advance h hcall reply
  · exact inv_loopStep h loop
  · exact ⟨h.accounts, h.call⟩

theorem inv_of_reachable {w : World} (hw : Reachable step World.init w) : Inv w :=
  reachable_invariant inv_init (fun _ _ _ => inv_step) hw

/-! ### Whole calls -/

/-- A whole call that ends with `result`, with loop iterations anywhere. -/
structure CallRun (before : World) (config : ParsedVpnConfiguration) (labels : List Label)
    (result : Except Throwable Unit) (after : World) : Prop where
  run : run step before (.reconcile config :: labels) = some after
  single : ∀ label ∈ labels, ∀ other, label ≠ .reconcile other
  ended : after.call = none
  outcome : after.outcome = some result

theorem CallRun.start {before after : World} {config : ParsedVpnConfiguration}
    {labels : List Label} {result : Except Throwable Unit}
    (h : CallRun before config labels result after) :
    before.call = none ∧ Library.run step (startCall before config) labels = some after := by
  obtain ⟨mid, hmid, hrest⟩ := run_cons.mp h.run
  rcases step_cases hmid with ⟨other, hl, hidle, rfl⟩ | ⟨_, _, hl, _⟩ | ⟨_, hl, _⟩ | ⟨_, hl, _⟩
  · cases hl
    exact ⟨hidle, hrest⟩
  · cases hl
  · cases hl
  · cases hl

/-- What a label writes to the fields under the lock if it is an iteration of a
loop. -/
def effect (guarded : Guarded) : Label → Guarded
  | .loop label => loopEffect guarded label
  | _ => guarded

/-- The iterations of a run, without the call between them. -/
def replay (guarded : Guarded) (labels : List Label) : Guarded := labels.foldl effect guarded

theorem replay_entries (guarded : Guarded) (labels : List Label) :
    (replay guarded labels).sessionEntriesByPeer = guarded.sessionEntriesByPeer := by
  induction labels generalizing guarded with
  | nil => rfl
  | cons label rest ih =>
      show (replay (effect guarded label) rest).sessionEntriesByPeer = _
      rw [ih]
      cases label <;> rfl

def Phase.swapped : Phase → Bool
  | .closing _ => true
  | _ => false

theorem PeerStep.call {w w' : World} {call : Call} {publicKey : String}
    {remaining : List String} (h : PeerStep w call publicKey remaining w') :
    w'.guarded = w.guarded ∧
      ∃ call', w'.call = some call' ∧ call'.config = call.config ∧
        call'.phase.swapped = false := by
  cases h <;> exact ⟨rfl, _, rfl, rfl, rfl⟩

/-- A step of a call keeps it running, or ends it after its last close.  Only
the swap writes to the fields under the lock. -/
theorem advance_cases (w : World) (call : Call) (reply : FactoryReply) :
    (∃ call', (advance w call reply).call = some call' ∧ call'.config = call.config ∧
      (call.phase.swapped = true → call'.phase.swapped = true) ∧
      (call'.phase.swapped = false → (advance w call reply).guarded = w.guarded)) ∨
    (∃ throwable, call.phase = .rollback [] throwable ∧
      advance w call reply = { w with call := none, outcome := some (.error throwable) }) ∨
    call.phase = .closing [] ∧
      advance w call reply = { w with call := none, outcome := some (.ok ()) } := by
  unfold advance
  split
  next hphase =>
    obtain ⟨hguarded, call', hcall', hconfig, _⟩ := (reconcilePeer_step w call _ _ reply).call
    refine Or.inl ⟨call', hcall', hconfig, fun h => ?_, fun _ => hguarded⟩
    rw [hphase] at h
    cases h
  next hphase =>
    refine Or.inl ⟨_, rfl, rfl, fun _ => rfl, fun h => ?_⟩
    cases h
  next hphase =>
    refine Or.inl ⟨_, rfl, rfl, fun h => ?_, fun _ => rfl⟩
    rw [hphase] at h
    cases h
  next throwable hphase => exact Or.inr (Or.inl ⟨throwable, hphase, rfl⟩)
  next hphase =>
    refine Or.inl ⟨_, rfl, rfl, fun _ => rfl, fun h => ?_⟩
    cases h
  next hphase => exact Or.inr (Or.inr ⟨hphase, rfl⟩)

/-- The call of `config` is running, or it ended and a success has applied
`config`. -/
structure Within (config : ParsedVpnConfiguration) (w : World) : Prop where
  inv : Inv w
  running : ∀ call, w.call = some call → call.config = config
  applied : w.call = none → w.outcome = some (.ok ()) → Applied config w.sessionEntriesByPeer

theorem within_startCall {w : World} (h : Inv w) (hidle : w.call = none)
    (config : ParsedVpnConfiguration) : Within config (startCall w config) := by
  refine ⟨inv_startCall h hidle config, ?_, ?_⟩
  · intro call hcall
    unfold startCall at hcall
    split at hcall
    · rw [hidle] at hcall
      cases hcall
    · cases hcall
      rfl
  · intro hcall houtcome
    unfold startCall at hcall houtcome
    split at hcall
    next throwable hplan =>
      rw [hplan] at houtcome
      cases houtcome
    · cases hcall

theorem within_step {config : ParsedVpnConfiguration} {w w' : World} {label : Label}
    (hlabel : ∀ other, label ≠ .reconcile other) (h : Within config w)
    (hstep : step w label = some w') : Within config w' := by
  refine ⟨inv_step h.inv hstep, ?_, ?_⟩
  · intro call' hcall'
    rcases step_cases hstep with ⟨other, hl, _⟩ | ⟨reply, call, _, hcall, rfl⟩ | ⟨loop, _, rfl⟩ |
      ⟨id, _, rfl⟩
    · exact absurd hl (hlabel other)
    · rcases advance_cases w call reply with ⟨next, hnext, hconfig, _⟩ | ⟨_, _, heq⟩ | ⟨_, heq⟩
      · rw [hnext] at hcall'
        cases hcall'
        rw [hconfig]
        exact h.running call hcall
      · rw [heq] at hcall'
        cases hcall'
      · rw [heq] at hcall'
        cases hcall'
    · exact h.running call' hcall'
    · exact h.running call' hcall'
  · intro hidle houtcome
    rcases step_cases hstep with ⟨other, hl, _⟩ | ⟨reply, call, _, hcall, rfl⟩ | ⟨loop, _, rfl⟩ |
      ⟨id, _, rfl⟩
    · exact absurd hl (hlabel other)
    · rcases advance_cases w call reply with ⟨next, hnext, _⟩ | ⟨_, _, heq⟩ | ⟨hphase, heq⟩
      · rw [hnext] at hidle
        cases hidle
      · rw [heq] at houtcome
        cases houtcome
      · have hinv := h.inv.call call hcall
        rw [CallInv, hphase, h.running call hcall] at hinv
        rw [heq]
        exact hinv.2
    · exact h.applied hidle houtcome
    · exact h.applied hidle houtcome

theorem CallRun.within {before after : World} {config : ParsedVpnConfiguration}
    {labels : List Label} {result : Except Throwable Unit} (h : Inv before)
    (hcall : CallRun before config labels result after) : Within config after := by
  obtain ⟨hidle, hrest⟩ := hcall.start
  exact run_invariant (fun _ _ _ hlabel hw hs => within_step hlabel hw hs) hcall.single
    (within_startCall h hidle config) hrest

/-! ### Calls that throw -/

/-- The call is past its swap, or it ended with success. -/
def Swapped (w : World) : Prop :=
  match w.call with
  | some call => call.phase.swapped = true
  | none => w.outcome = some (.ok ())

/-- A step that does not start a call keeps to the side of the swap it is on, or
crosses it.  Before the swap only the loops write. -/
theorem swapped_step {w w' : World} {label : Label} (hlabel : ∀ other, label ≠ .reconcile other)
    (hstep : step w label = some w') :
    (Swapped w → Swapped w') ∧ (¬ Swapped w' → w'.guarded = effect w.guarded label) := by
  rcases step_cases hstep with ⟨other, hl, _⟩ | ⟨reply, call, rfl, hcall, rfl⟩ | ⟨loop, rfl, rfl⟩ |
    ⟨id, rfl, rfl⟩
  · exact absurd hl (hlabel other)
  · rcases advance_cases w call reply with ⟨call', hcall', _, hkeep, hwrite⟩ | ⟨_, hphase, heq⟩ |
      ⟨_, heq⟩
    · simp only [Swapped, hcall, hcall']
      refine ⟨hkeep, fun h => hwrite ?_⟩
      rw [← Bool.not_eq_true]
      exact h
    · rw [heq]
      refine ⟨fun h => ?_, fun _ => rfl⟩
      simp only [Swapped, hcall, hphase, Phase.swapped, Bool.false_eq_true] at h
    · rw [heq]
      exact ⟨fun _ => rfl, fun h => absurd rfl h⟩
  · exact ⟨fun h => h, fun _ => rfl⟩
  · exact ⟨fun h => h, fun _ => rfl⟩

theorem guarded_of_not_swapped {w w' : World} {labels : List Label}
    (hlabels : ∀ label ∈ labels, ∀ other, label ≠ .reconcile other)
    (hrun : run step w labels = some w') (h : ¬ Swapped w') :
    w'.guarded = replay w.guarded labels := by
  induction labels generalizing w with
  | nil =>
      cases hrun
      rfl
  | cons label rest ih =>
      obtain ⟨mid, hmid, hrest⟩ := run_cons.mp hrun
      have hrest' := fun l hl => hlabels l (List.mem_cons_of_mem label hl)
      have hmidNot : ¬ Swapped mid := fun hs =>
        h (run_invariant (fun _ _ _ hl hw hstep => (swapped_step hl hstep).1 hw) hrest' hs hrest)
      have heffect := (swapped_step (hlabels label List.mem_cons_self) hmid).2 hmidNot
      rw [ih hrest' hrest, heffect]
      rfl

/-- A call that throws leaves the fields to the loops. -/
theorem CallRun.guarded_of_error {before after : World} {config : ParsedVpnConfiguration}
    {labels : List Label} {throwable : Throwable}
    (hcall : CallRun before config labels (.error throwable) after) :
    after.guarded = replay before.guarded labels := by
  obtain ⟨_, hrest⟩ := hcall.start
  have hnot : ¬ Swapped after := by
    rw [Swapped, hcall.ended, hcall.outcome]
    intro h
    cases h
  rw [guarded_of_not_swapped hcall.single hrest hnot]
  unfold startCall
  split <;> rfl

theorem pending_of_idle {w : World} (h : w.call = none) : w.pending = [] := by
  rw [World.pending, h]

/-- A call that throws closes the active sessions it obtained. -/
theorem CallRun.closes_of_error {before after : World} {config : ParsedVpnConfiguration}
    {labels : List Label} {throwable : Throwable} (hbefore : Inv before) (hafter : Inv after)
    (hcall : CallRun before config labels (.error throwable) after) {s : PeerSession}
    (hs : s ∈ obtained after.trace) (hnew : s ∉ obtained before.trace) :
    (closes after.trace).count s = 1 := by
  have hentries : after.sessionEntriesByPeer = before.sessionEntriesByPeer := by
    show after.guarded.sessionEntriesByPeer = _
    rw [hcall.guarded_of_error, replay_entries]
    rfl
  refine hafter.accounts.ledger.once_of_acquired s hs fun howned => ?_
  rw [hentries, pending_of_idle hcall.ended] at howned
  rcases howned with hmap | hpending
  · exact hnew (hbefore.accounts.ledger.acquired_of_owned s (Or.inl hmap))
  · cases hpending

/-- An active session is in the map and open, or out of it and closed once, or
held by a running call that has still to close it or to put it into the map. -/
theorem Inv.session_cases {w : World} (h : Inv w) {s : PeerSession} (hs : s ∈ obtained w.trace) :
    InMap w.sessionEntriesByPeer s ∧ (closes w.trace).count s = 0 ∨
      ¬ InMap w.sessionEntriesByPeer s ∧ (closes w.trace).count s = 1 ∨
        ¬ InMap w.sessionEntriesByPeer s ∧ (closes w.trace).count s = 0 ∧
          ∃ call, w.call = some call ∧ s ∈ call.pending := by
  by_cases hmap : InMap w.sessionEntriesByPeer s
  · exact Or.inl ⟨hmap, h.accounts.ledger.open_of_owned s (Or.inl hmap)⟩
  · by_cases hpending : s ∈ w.pending
    · refine Or.inr (Or.inr ⟨hmap, h.accounts.ledger.open_of_owned s (Or.inr hpending), ?_⟩)
      cases hcall : w.call with
      | none =>
          rw [pending_of_idle hcall] at hpending
          cases hpending
      | some call => exact ⟨call, rfl, pending_of_call hcall ▸ hpending⟩
    · refine Or.inr (Or.inl ⟨hmap, h.accounts.ledger.once_of_acquired s hs ?_⟩)
      rw [not_or]
      exact ⟨hmap, hpending⟩

/-- Reconciliation is atomic and leaks nothing.  A call that throws leaves both
fields to the loops and closes the active sessions it created; a call that
succeeds has applied its configuration; an active session is in the map and open
or has been closed exactly once, except while a running call holds it; and no
loop calls a session after it was closed. -/
theorem reconcileSessions_atomic :
    (∀ before config labels throwable after, Reachable step World.init before →
      CallRun before config labels (.error throwable) after →
        after.guarded = replay before.guarded labels ∧
          ∀ s ∈ obtained after.trace, s ∉ obtained before.trace →
            (closes after.trace).count s = 1) ∧
      (∀ before config labels after, Reachable step World.init before →
        CallRun before config labels (.ok ()) after →
          Applied config after.sessionEntriesByPeer) ∧
      (∀ w, Reachable step World.init w → ∀ s ∈ obtained w.trace,
        InMap w.sessionEntriesByPeer s ∧ (closes w.trace).count s = 0 ∨
          ¬ InMap w.sessionEntriesByPeer s ∧ (closes w.trace).count s = 1 ∨
            ¬ InMap w.sessionEntriesByPeer s ∧ (closes w.trace).count s = 0 ∧
              ∃ call, w.call = some call ∧ s ∈ call.pending) ∧
      ∀ w, Reachable step World.init w → ∀ s earlier,
        Event.called s :: earlier <:+ w.trace → Event.closed s ∉ earlier := by
  refine ⟨?_, ?_, ?_, ?_⟩
  · intro before config labels throwable after hbefore hcall
    have hInv := inv_of_reachable hbefore
    have hInv' := inv_of_reachable (hbefore.run hcall.run)
    exact ⟨hcall.guarded_of_error, fun s hs hnew => hcall.closes_of_error hInv hInv' hs hnew⟩
  · intro before config labels after hbefore hcall
    exact (hcall.within (inv_of_reachable hbefore)).applied hcall.ended hcall.outcome
  · intro w hw s hs
    exact (inv_of_reachable hw).session_cases hs
  · intro w hw
    exact (inv_of_reachable hw).accounts.calls

def exampleEndpoint : Ip := { value := some (.v4 [192, 0, 2, 1]) }

def examplePeer (publicKey : String) (port : Int32) : ParsedVpnPeer :=
  { publicKey := publicKey, endpointAddress := some exampleEndpoint, endpointPort := some port }

def exampleConfig (privateKey : String) (peers : List ParsedVpnPeer) : ParsedVpnConfiguration :=
  { interfaceName := "utun0", privateKey := privateKey, peers := peers }

/-- A first call that brings up the peer `b`. -/
def exampleStart : List Label :=
  [.reconcile (exampleConfig "k" [examplePeer "b" 1]), .advance (.returned true),
    .advance (.threw .indexOutOfBounds), .advance (.threw .indexOutOfBounds)]

/-- A second call that adds the peer `a` and fails at `b`, whose index changes. -/
def exampleFailure : List Label :=
  [.advance (.returned true), .loop (.periodic fun _ => .ok (.writeToNetwork [1, 2, 3])),
    .advance (.returned false), .advance (.threw .indexOutOfBounds),
    .advance (.threw .indexOutOfBounds)]

def exampleChange : ParsedVpnConfiguration :=
  exampleConfig "k" [examplePeer "b" 1, examplePeer "a" 2]

theorem reconcileSessions_failed_call :
    ∃ before after throwable, Reachable step World.init before ∧
      CallRun before exampleChange exampleFailure (.error throwable) after ∧
      after.guarded = replay before.guarded exampleFailure ∧
      ∀ s ∈ obtained after.trace, s ∉ obtained before.trace →
        (closes after.trace).count s = 1 := by
  have hend :
      ((run step World.init (exampleStart ++ .reconcile exampleChange :: exampleFailure)).map
      fun w => (w.call, w.outcome)) = some (none, some (.error
        (.illegalArgument "Session factory must return active peer sessions"))) := by
    decide
  obtain ⟨after, hafter, hend⟩ := Option.map_eq_some_iff.mp hend
  rw [Prod.mk.injEq] at hend
  obtain ⟨before, hbefore, hcall⟩ := run_append.mp hafter
  have hsingle : ∀ label ∈ exampleFailure, ∀ other, label ≠ .reconcile other := by
    intro label hlabel other he
    subst he
    simp [exampleFailure] at hlabel
  have hrun : CallRun before exampleChange exampleFailure _ after :=
    ⟨hcall, hsingle, hend.1, hend.2⟩
  have hreach : Reachable step World.init before := ⟨exampleStart, hbefore⟩
  exact ⟨before, after, _, hreach, hrun,
    reconcileSessions_atomic.1 before exampleChange exampleFailure _ after hreach hrun⟩

end Crypto
end WgKotlin
