import WgKotlin.Crypto.Reconcile

/-!
# Path independence of reconciliation

A session that survives a call was reused by it, and the reuse test compares the
peer and its index.  The factory also reads the private key of the
configuration, which the test does not compare.  Sessions are as a fresh manager
would make them as long as the private key stays, or nothing is reused when it
changes.
-/

namespace WgKotlin
namespace Crypto

open Proto Util Kotlin Library

/-! ### What the factory reads -/

/-- The arguments of `TunnelSession.createNewTunnel`. -/
structure TunnelArgs where
  argSecretKey : String
  argPublicKey : String
  argPresharedKey : Option String
  keepAlive : UInt16
  index : UInt32
  deriving DecidableEq

/-- `persistentKeepalive?.coerceIn(0, 65535)?.toUShort() ?: 0u` -/
def keepAlive (persistentKeepalive : Option Int32) : UInt16 :=
  match persistentKeepalive with
  | none => 0
  | some seconds => UInt16.ofNat (max 0 (min seconds.toInt 65535)).toNat

/-- What `BoringTunPeerSessionFactory.create` passes on. -/
def tunnelArgs (create : CreateCall) : TunnelArgs where
  argSecretKey := create.config.privateKey
  argPublicKey := create.peer.publicKey
  argPresharedKey := create.peer.presharedKey
  keepAlive := keepAlive create.peer.persistentKeepalive
  index := UInt32.ofNat create.peerIndex

/-- The session of an entry was created as a fresh manager creates it for this
configuration. -/
structure FreshInputs (config : ParsedVpnConfiguration) (key : String)
    (e : PeerSessionEntry) : Prop where
  privateKey : e.session.createdBy.config.privateKey = config.privateKey
  peer : e.session.createdBy.peer ∈ config.peers ∧ e.session.createdBy.peer.publicKey = key
  index : (key, e.session.createdBy.peerIndex) ∈
    (sortedKeys (config.peers.map ParsedVpnPeer.publicKey)).zipIdx 1

/-! ### Where the sessions of a call come from -/

/-- An entry that a call of `config` made, or one that was active in the map
when the call began. -/
def ComesFrom (before : World) (config : ParsedVpnConfiguration) (key : String)
    (e : PeerSessionEntry) : Prop :=
  e.session.createdBy.config = config ∨
    before.sessionEntriesByPeer.get key = some e ∧ before.isActive e.session.id = true

/-- The state of a call of `config` that began in `before`. -/
structure Provenance (before : World) (config : ParsedVpnConfiguration) (w : World) : Prop where
  within : Within config w
  nextId : before.nextId ≤ w.nextId
  active : ∀ id, id < before.nextId → w.isActive id = true → before.isActive id = true
  unswapped : ∀ call, w.call = some call → call.phase.swapped = false →
    w.sessionEntriesByPeer = before.sessionEntriesByPeer
  prepared : ∀ call, w.call = some call → ∀ key e, call.nextSessions.get key = some e →
    ComesFrom before config key e
  swapped : Swapped w → ∀ key e, w.sessionEntriesByPeer.get key = some e →
    ComesFrom before config key e

theorem id_lt_nextId {w : World} (h : Inv w) {key : String} {e : PeerSessionEntry}
    (he : w.sessionEntriesByPeer.get key = some e) : e.session.id < w.nextId := by
  have hmap : InMap w.sessionEntriesByPeer e.session :=
    ⟨e, LinkedMap.mem_values_iff.mpr ⟨key, he⟩, rfl⟩
  exact h.accounts.fresh _ (h.accounts.ledger.acquired_of_owned _ (Or.inl hmap))

theorem isActive_of_setActive {w : World} {id id' : Nat}
    (h : (w.setActive id false).isActive id' = true) : w.isActive id' = true := by
  simp only [World.setActive] at h
  split at h
  · cases h
  · exact h

theorem provenance_startCall {before : World} (h : Inv before) (hidle : before.call = none)
    (config : ParsedVpnConfiguration) : Provenance before config (startCall before config) := by
  have hwithin := within_startCall h hidle config
  unfold startCall at hwithin ⊢
  split
  next throwable hplan =>
    rw [hplan] at hwithin
    refine ⟨hwithin, Nat.le_refl _, fun _ _ h => h, ?_, ?_, ?_⟩
    · intro call hcall
      rw [hidle] at hcall
      cases hcall
    · intro call hcall
      rw [hidle] at hcall
      cases hcall
    · intro hswapped
      simp only [Swapped, hidle] at hswapped
      cases hswapped
  next p hplan =>
    rw [hplan] at hwithin
    refine ⟨hwithin, Nat.le_refl _, fun _ _ h => h, fun _ _ _ => rfl, ?_, ?_⟩
    · intro call hcall key e he
      cases hcall
      cases he
    · intro hswapped
      cases hswapped

section Steps

variable {before w w' : World} {config : ParsedVpnConfiguration} {call : Call}

/-- A step that changes neither the map nor what is prepared for it. -/
theorem Provenance.frame (h : Provenance before config w) (hwithin : Within config w')
    (hnext : w.nextId ≤ w'.nextId)
    (hactive : ∀ id, id < w.nextId → w'.isActive id = true → w.isActive id = true)
    (hentries : w'.sessionEntriesByPeer = w.sessionEntriesByPeer)
    (hcalls : ∀ call', w'.call = some call' → ∃ call, w.call = some call ∧
      (call'.phase.swapped = false → call.phase.swapped = false) ∧
      ∀ key e, call'.nextSessions.get key = some e →
        call.nextSessions.get key = some e ∨ ComesFrom before config key e)
    (hswapped : Swapped w' → Swapped w) : Provenance before config w' where
  within := hwithin
  nextId := Nat.le_trans h.nextId hnext
  active := fun id hid ha => h.active id hid (hactive id (Nat.lt_of_lt_of_le hid h.nextId) ha)
  unswapped := by
    intro call' hcall' hphase'
    obtain ⟨call, hcall, hphase, _⟩ := hcalls call' hcall'
    rw [hentries]
    exact h.unswapped call hcall (hphase hphase')
  prepared := by
    intro call' hcall' key e he
    obtain ⟨call, hcall, _, hkeep⟩ := hcalls call' hcall'
    rcases hkeep key e he with he | hfrom
    · exact h.prepared call hcall key e he
    · exact hfrom
  swapped := by
    intro hs key e he
    rw [hentries] at he
    exact h.swapped (hswapped hs) key e he

theorem get_keep {publicKey : String} {remaining : List String} {entry : PeerSessionEntry}
    {key : String} {e : PeerSessionEntry}
    (h : (call.keep publicKey remaining entry).nextSessions.get key = some e) :
    call.nextSessions.get key = some e ∨ key = publicKey ∧ e = entry := by
  have h : (call.nextSessions.put publicKey entry).get key = some e := h
  rw [LinkedMap.get_put] at h
  split at h
  next hkey => exact Or.inr ⟨hkey.symm, (Option.some.inj h).symm⟩
  next => exact Or.inl h

theorem provenance_peerStep (hbefore : Inv before) (h : Provenance before config w)
    (hcall : w.call = some call) {publicKey : String} {remaining : List String}
    (hphase : call.phase = .creating (publicKey :: remaining))
    (hstep : PeerStep w call publicKey remaining w') (hwithin : Within config w') :
    Provenance before config w' := by
  have hunswapped : call.phase.swapped = false := by rw [hphase]; rfl
  have hnot : ∀ {call' : Call}, call'.phase.swapped = false → w'.call = some call' →
      Swapped w' → Swapped w := by
    intro call' hphase' hcall' hs
    simp only [Swapped, hcall', hphase', Bool.false_eq_true] at hs
  have hnew : ∀ session isActive id, id < w.nextId → session.id = w.nextId →
      (recordCreation w session isActive).isActive id = true → w.isActive id = true := by
    intro session isActive id hid hsession ha
    have hne : id ≠ session.id := by omega
    simpa only [recordCreation, World.setActive, hne, if_false] using ha
  have hentries := h.unswapped call hcall hunswapped
  cases hstep with
  | threw throwable =>
      refine h.frame hwithin (Nat.le_refl _) (fun _ _ ha => ha) rfl ?_ (hnot rfl rfl)
      intro call' hcall'
      cases hcall'
      exact ⟨call, hcall, fun _ => hunswapped, fun _ _ he => Or.inl he⟩
  | inactive session throwable =>
      refine h.frame hwithin (Nat.le_succ _) ?_ rfl ?_ (hnot rfl rfl)
      · exact fun _ _ ha => isActive_of_setActive ha
      · intro call' hcall'
        cases hcall'
        exact ⟨call, hcall, fun _ => hunswapped, fun _ _ he => Or.inl he⟩
  | reused previous hprevious _ hactive =>
      refine h.frame hwithin (Nat.le_refl _) (fun _ _ ha => ha) rfl ?_ (hnot rfl rfl)
      intro call' hcall'
      cases hcall'
      refine ⟨call, hcall, fun _ => hunswapped, fun key e he => ?_⟩
      rcases get_keep he with he | ⟨rfl, rfl⟩
      · exact Or.inl he
      · have hold := (creating_of_inv h.within.inv hcall hphase).2.previous
        rw [hold, hentries] at hprevious
        exact Or.inr (Or.inr ⟨hprevious, h.active _ (id_lt_nextId hbefore hprevious) hactive⟩)
  | created peer peerIndex entry hentry _ =>
      subst hentry
      refine h.frame hwithin (Nat.le_succ _) ?_ rfl ?_ (hnot rfl rfl)
      · exact fun id hid ha => hnew _ true id hid rfl ha
      · intro call' hcall'
        cases hcall'
        refine ⟨call, hcall, fun _ => hunswapped, fun key e he => ?_⟩
        rcases get_keep he with he | ⟨rfl, rfl⟩
        · exact Or.inl he
        · exact Or.inr (Or.inl (h.within.running call hcall))

theorem provenance_advance (hbefore : Inv before) (h : Provenance before config w)
    (hcall : w.call = some call) (reply : FactoryReply)
    (hwithin : Within config (advance w call reply)) :
    Provenance before config (advance w call reply) := by
  unfold advance at hwithin ⊢
  split at hwithin
  next hphase =>
    exact provenance_peerStep hbefore h hcall hphase (reconcilePeer_step w call _ _ reply) hwithin
  next hphase =>
    refine ⟨hwithin, h.nextId, h.active, ?_, ?_, ?_⟩
    · intro call' hcall' hphase'
      cases hcall'
      cases hphase'
    · intro call' hcall'
      cases hcall'
      exact h.prepared call hcall
    · exact fun _ => h.prepared call hcall
  next hphase =>
    refine h.frame hwithin (Nat.le_refl _) (fun _ _ ha => isActive_of_setActive ha) rfl ?_ ?_
    · intro call' hcall'
      cases hcall'
      exact ⟨call, hcall, fun _ => by rw [hphase]; rfl, fun _ _ he => Or.inl he⟩
    · intro hs
      cases hs
  next hphase =>
    refine h.frame hwithin (Nat.le_refl _) (fun _ _ ha => ha) rfl ?_ ?_
    · intro call' hcall'
      cases hcall'
    · intro hs
      cases hs
  next previous remaining hphase =>
    have hs : Swapped w := by simp only [Swapped, hcall, hphase, Phase.swapped]
    have hactive : ∀ id, (if replaced call previous then w.close previous.2.session
        else w).isActive id = true → w.isActive id = true := by
      intro id ha
      split at ha
      · exact isActive_of_setActive ha
      · exact ha
    refine h.frame hwithin ?_ (fun id _ => hactive id) ?_ ?_ (fun _ => hs)
    · dsimp only
      split <;> exact Nat.le_refl _
    · show Guarded.sessionEntriesByPeer (World.guarded _) = _
      dsimp only
      split <;> rfl
    · intro call' hcall'
      cases hcall'
      exact ⟨call, hcall, fun h => (by cases h), fun _ _ he => Or.inl he⟩
  next hphase =>
    have hs : Swapped w := by simp only [Swapped, hcall, hphase, Phase.swapped]
    refine h.frame hwithin (Nat.le_refl _) (fun _ _ ha => ha) rfl ?_ (fun _ => hs)
    intro call' hcall'
    cases hcall'

end Steps

theorem provenance_step {before w w' : World} {config : ParsedVpnConfiguration} {label : Label}
    (hbefore : Inv before) (hlabel : ∀ other, label ≠ .reconcile other)
    (h : Provenance before config w) (hstep : step w label = some w') :
    Provenance before config w' := by
  have hwithin := within_step hlabel h.within hstep
  rcases step_cases hstep with ⟨other, hl, _⟩ | ⟨reply, call, _, hcall, rfl⟩ | ⟨loop, _, rfl⟩ |
    ⟨id, _, rfl⟩
  · exact absurd hl (hlabel other)
  · exact provenance_advance hbefore h hcall reply hwithin
  · exact ⟨hwithin, h.nextId, h.active, h.unswapped, h.prepared, h.swapped⟩
  · exact ⟨hwithin, h.nextId, fun id hid ha => h.active id hid (isActive_of_setActive ha),
      h.unswapped, h.prepared, h.swapped⟩

/-- After a success the sessions are new or were active in the map before. -/
theorem CallRun.comesFrom {before after : World} {config : ParsedVpnConfiguration}
    {labels : List Label} (hbefore : Inv before)
    (hcall : CallRun before config labels (.ok ()) after) {key : String} {e : PeerSessionEntry}
    (he : after.sessionEntriesByPeer.get key = some e) :
    ComesFrom before config key e := by
  obtain ⟨hidle, hrest⟩ := hcall.start
  have hprovenance : Provenance before config after :=
    run_invariant (fun _ _ _ hlabel hw hs => provenance_step hbefore hlabel hw hs) hcall.single
      (provenance_startCall hbefore hidle config) hrest
  refine hprovenance.swapped ?_ key e he
  simp only [Swapped, hcall.ended, hcall.outcome]

/-! ### Sequences of calls -/

/-- The states that successful calls lead to, each call allowed by a condition on
the configuration before it, its own and the state it starts in.  The index is
the configuration of the last call. -/
inductive SuccessfulCalls
    (allowed : Option ParsedVpnConfiguration → ParsedVpnConfiguration → World → Prop) :
    Option ParsedVpnConfiguration → World → Prop
  | init : SuccessfulCalls allowed none World.init
  | idle {last : Option ParsedVpnConfiguration} {w w' : World} {label : Label}
    (hw : SuccessfulCalls allowed last w) (hlabel : ∀ config, label ≠ .reconcile config)
    (hstep : step w label = some w') : SuccessfulCalls allowed last w'
  | call {last : Option ParsedVpnConfiguration} {w w' : World} {config : ParsedVpnConfiguration}
    {labels : List Label} (hw : SuccessfulCalls allowed last w) (hallowed : allowed last config w)
    (hcall : CallRun w config labels (.ok ()) w') : SuccessfulCalls allowed (some config) w'

/-- A call with the private key of the last one, or one that reuses nothing. -/
def KeepsPrivateKey (last : Option ParsedVpnConfiguration) (config : ParsedVpnConfiguration)
    (w : World) : Prop :=
  (∀ c, last = some c → c.privateKey = config.privateKey) ∨
    ∀ p, plan config = .ok p → ∀ key e, w.sessionEntriesByPeer.get key = some e →
      p.Wants key e → w.isActive e.session.id = false

structure Consistent (last : Option ParsedVpnConfiguration) (w : World) : Prop where
  inv : Inv w
  idle : w.call = none
  fresh : ∀ key e, w.sessionEntriesByPeer.get key = some e →
    ∃ config, last = some config ∧ FreshInputs config key e

theorem consistent_idle {last : Option ParsedVpnConfiguration} {w w' : World} {label : Label}
    (h : Consistent last w) (hlabel : ∀ config, label ≠ .reconcile config)
    (hstep : step w label = some w') : Consistent last w' := by
  have hinv := inv_step h.inv hstep
  rcases step_cases hstep with ⟨other, hl, _⟩ | ⟨reply, call, _, hcall, rfl⟩ | ⟨loop, _, rfl⟩ |
    ⟨id, _, rfl⟩
  · exact absurd hl (hlabel other)
  · rw [h.idle] at hcall
    cases hcall
  · exact ⟨hinv, h.idle, h.fresh⟩
  · exact ⟨hinv, h.idle, h.fresh⟩

/-- What an applied configuration says about one entry. -/
theorem Applied.entry {config : ParsedVpnConfiguration}
    {entries : LinkedMap String PeerSessionEntry} (h : Applied config entries) {key : String}
    {e : PeerSessionEntry} (he : entries.get key = some e) :
    e.peer ∈ config.peers ∧ e.peer.publicKey = key ∧
      (key, e.session.peerIndex) ∈
        (sortedKeys (config.peers.map ParsedVpnPeer.publicKey)).zipIdx 1 := by
  have hkey := (h.mem_keys key).mp (LinkedMap.mem_keys_iff.mpr ⟨e, he⟩)
  obtain ⟨peer, hpeer, rfl⟩ := List.mem_map.mp hkey
  obtain ⟨e', he', rfl⟩ := h.peers peer hpeer
  rw [he, Option.some.injEq] at he'
  subst he'
  refine ⟨hpeer, rfl, ?_⟩
  rw [← h.indexes]
  exact List.mem_map.mpr ⟨_, LinkedMap.get_eq_some_iff.mp he, rfl⟩

theorem PlanSpec.wants_of_applied {config : ParsedVpnConfiguration} {p : Plan}
    (hspec : PlanSpec config p) {entries : LinkedMap String PeerSessionEntry}
    (h : Applied config entries) {key : String} {e : PeerSessionEntry}
    (he : entries.get key = some e) : p.Wants key e := by
  obtain ⟨hpeer, hkey, hindex⟩ := h.entry he
  refine ⟨?_, ?_⟩
  · rw [LinkedMap.get_eq_some_iff, hspec.desiredPeers]
    exact List.mem_map.mpr ⟨e.peer, hpeer, by rw [hkey]⟩
  · rw [LinkedMap.get_eq_some_iff, hspec.desiredIndexes]
    exact hindex

/-- A call that succeeds got past its validation. -/
theorem CallRun.planned {before after : World} {config : ParsedVpnConfiguration}
    {labels : List Label} (hcall : CallRun before config labels (.ok ()) after) :
    ∃ p, plan config = .ok p := by
  cases hplan : plan config with
  | ok p => exact ⟨p, rfl⟩
  | error throwable =>
      obtain ⟨hidle, hrest⟩ := hcall.start
      -- The outcome of the validation stands until the next call.
      have hstays : after.call = none ∧ after.outcome = some (.error throwable) := by
        refine run_invariant
          (I := fun w => w.call = none ∧ w.outcome = some (.error throwable)) ?_ hcall.single
          ?_ hrest
        · intro w label w' hlabel hw hstep
          rcases step_cases hstep with ⟨other, hl, _⟩ | ⟨reply, call, _, hcall, _⟩ |
            ⟨loop, _, rfl⟩ | ⟨id, _, rfl⟩
          · exact absurd hl (hlabel other)
          · rw [hw.1] at hcall
            cases hcall
          · exact hw
          · exact hw
        · rw [startCall, hplan]
          exact ⟨hidle, rfl⟩
      rw [hcall.outcome] at hstays
      cases hstays.2

theorem consistent_call {last : Option ParsedVpnConfiguration} {w w' : World}
    {config : ParsedVpnConfiguration} {labels : List Label} (h : Consistent last w)
    (hkeeps : KeepsPrivateKey last config w) (hcall : CallRun w config labels (.ok ()) w') :
    Consistent (some config) w' := by
  have hwithin := hcall.within h.inv
  have happlied := hwithin.applied hcall.ended hcall.outcome
  refine ⟨hwithin.inv, hcall.ended, fun key e he => ⟨config, rfl, ?_⟩⟩
  obtain ⟨hpeer, hkey, hindex⟩ := happlied.entry he
  have hkeyed := hwithin.inv.accounts.keyed key e he
  refine ⟨?_, ?_, ?_⟩
  · rcases hcall.comesFrom h.inv he with hnew | ⟨hold, hactive⟩
    · rw [hnew]
    · obtain ⟨c, hc, hfresh⟩ := h.fresh key e hold
      rcases hkeeps with hsame | hnone
      · rw [hfresh.privateKey, hsame c hc]
      · obtain ⟨p, hp⟩ := hcall.planned
        have hwants := (plan_spec hp).wants_of_applied happlied he
        rw [hnone p hp key e hold hwants] at hactive
        cases hactive
  · rw [hkeyed.peer]
    exact ⟨hpeer, hkey⟩
  · rw [hkeyed.index]
    exact hindex

theorem consistent_of_successfulCalls {last : Option ParsedVpnConfiguration} {w : World}
    (h : SuccessfulCalls KeepsPrivateKey last w) : Consistent last w := by
  induction h with
  | init => exact ⟨inv_init, rfl, fun key e he => (by cases he)⟩
  | idle _ hlabel hstep ih => exact consistent_idle ih hlabel hstep
  | call _ hallowed hcall ih => exact consistent_call ih hallowed hcall

/-- As long as every call keeps the private key or reuses nothing, each session
in the map was created with the inputs that a fresh manager would use, so its
tunnel got the arguments of a fresh one. -/
theorem reconcileSessions_path_independent {config : ParsedVpnConfiguration} {w : World}
    (h : SuccessfulCalls KeepsPrivateKey (some config) w) {key : String} {e : PeerSessionEntry}
    (he : w.sessionEntriesByPeer.get key = some e) :
    FreshInputs config key e ∧
      tunnelArgs e.session.createdBy =
        tunnelArgs { config := config, peer := e.peer, peerIndex := e.session.peerIndex } := by
  have hconsistent := consistent_of_successfulCalls h
  obtain ⟨c, hc, hfresh⟩ := hconsistent.fresh key e he
  rw [Option.some.injEq] at hc
  subst hc
  have hkeyed := hconsistent.inv.accounts.keyed key e he
  refine ⟨hfresh, ?_⟩
  simp only [tunnelArgs, hfresh.privateKey, hkeyed.peer, hkeyed.index]

/-- Steps of a call whose factory succeeds. -/
def proceed (n : Nat) : List Label := List.replicate n (.advance (.returned true))

theorem proceed_single {n : Nat} : ∀ label ∈ proceed n, ∀ other, label ≠ .reconcile other := by
  intro label hlabel other he
  rw [List.eq_of_mem_replicate hlabel] at he
  cases he

/-- Two successful calls from the start, read off one run. -/
theorem two_calls (first second : ParsedVpnConfiguration) (n m : Nat) (key stored : String)
    (hfirst : ((run step World.init (.reconcile first :: proceed n)).map
      fun w => (w.call, w.outcome)) = some (none, some (.ok ())))
    (hboth : ((run step World.init
      ((.reconcile first :: proceed n) ++ (.reconcile second :: proceed m))).map fun w =>
        (w.call, w.outcome, (w.sessionEntriesByPeer.get key).map fun e =>
          e.session.createdBy.config.privateKey)) = some (none, some (.ok ()), some stored)) :
    ∃ w w' e, CallRun World.init first (proceed n) (.ok ()) w ∧
      CallRun w second (proceed m) (.ok ()) w' ∧ w'.sessionEntriesByPeer.get key = some e ∧
      e.session.createdBy.config.privateKey = stored := by
  obtain ⟨w', hw', hend⟩ := Option.map_eq_some_iff.mp hboth
  simp only [Prod.mk.injEq, Option.map_eq_some_iff] at hend
  obtain ⟨hended, houtcome, e, he, hstored⟩ := hend
  obtain ⟨w, hw, hw'⟩ := run_append.mp hw'
  rw [hw, Option.map_some, Option.some.injEq, Prod.mk.injEq] at hfirst
  exact ⟨w, w', e, ⟨hw, proceed_single, hfirst.1, hfirst.2⟩,
    ⟨hw', proceed_single, hended, houtcome⟩, he, hstored⟩

theorem reconcileSessions_added_peer :
    ∃ w e, SuccessfulCalls KeepsPrivateKey (some exampleChange) w ∧
      w.sessionEntriesByPeer.get "b" = some e ∧ FreshInputs exampleChange "b" e := by
  obtain ⟨_, w', e, hfirst, hsecond, he, _⟩ :=
    two_calls (exampleConfig "k" [examplePeer "b" 1]) exampleChange 3 5 "b" "k" (by decide)
      (by decide)
  have hcalls : SuccessfulCalls KeepsPrivateKey (some exampleChange) w' := by
    refine .call (.call .init (Or.inl fun c hc => (by cases hc)) hfirst) (Or.inl ?_) hsecond
    intro c hc
    cases hc
    rfl
  exact ⟨w', e, hcalls, he, (reconcileSessions_path_independent hcalls he).1⟩

/-- The same peer under a new private key: its session stays, with the old key. -/
theorem reconcileSessions_stale_private_key :
    ∃ w e, SuccessfulCalls (fun _ _ _ => True)
        (some (exampleConfig "new" [examplePeer "b" 1])) w ∧
      w.sessionEntriesByPeer.get "b" = some e ∧
      (tunnelArgs e.session.createdBy).argSecretKey = "old" ∧
      ¬ FreshInputs (exampleConfig "new" [examplePeer "b" 1]) "b" e := by
  obtain ⟨_, w', e, hfirst, hsecond, he, hstored⟩ :=
    two_calls (exampleConfig "old" [examplePeer "b" 1]) (exampleConfig "new" [examplePeer "b" 1])
      3 4 "b" "old" (by decide) (by decide)
  refine ⟨w', e, .call (.call .init trivial hfirst) trivial hsecond, he, hstored, ?_⟩
  intro hfresh
  have hkey := hfresh.privateKey
  rw [hstored] at hkey
  exact absurd hkey (by decide)

end Crypto
end WgKotlin
