import WgKotlin.Vpn.Callbacks

/-!
# Packets of earlier runs

The pipes outlive the runs.  What a run transmits is derived from what it has
received itself as long as every run finds the pipes empty and the loops of the
earlier ones ended; a packet that is left in a pipe goes to the peers of the next run.
-/

namespace WgKotlin

open Proto Library Crypto

/-- All of it was received in that run. -/
def OnlyOf (k : Nat) (runs : List Nat) : Prop := ∀ r ∈ runs, r = k

theorem onlyOf_nil (k : Nat) : OnlyOf k [] := by
  intro r hr
  cases hr

theorem OnlyOf.append {k : Nat} {l m : List Nat} (hl : OnlyOf k l) (hm : OnlyOf k m) :
    OnlyOf k (l ++ m) := by
  intro r hr
  rcases List.mem_append.mp hr with hr | hr
  · exact hl r hr
  · exact hm r hr

/-- Each of the items was received in that run. -/
def ItemsOf {α : Type} (k : Nat) (items : List (Tagged α)) : Prop :=
  ∀ t ∈ items, OnlyOf k t.runs

namespace ItemsOf

variable {α : Type} {k : Nat} {item : Tagged α} {items : List (Tagged α)}

theorem of_eq_nil (h : items = []) : ItemsOf k items := by
  intro t ht
  rw [h] at ht
  cases ht

theorem tail (h : ItemsOf k (item :: items)) : ItemsOf k items :=
  fun t ht => h t (List.mem_cons_of_mem item ht)

theorem head (h : ItemsOf k (item :: items)) : ∀ runs ∈ [item.runs], OnlyOf k runs := by
  intro runs hruns
  rw [List.mem_singleton.mp hruns]
  exact h item List.mem_cons_self

theorem put (h : ItemsOf k items) (hitem : OnlyOf k item.runs) : ItemsOf k (items ++ [item]) := by
  intro t ht
  rcases List.mem_append.mp ht with ht | ht
  · exact h t ht
  · rw [List.mem_singleton.mp ht]
    exact hitem

end ItemsOf

/-- What a loop has in hand. -/
def LoopPhase.items : LoopPhase → List (List Nat)
  | .packet held => [held.runs]
  | .datagram held => [held.runs]
  | .putting network tun => network.map Tagged.runs ++ tun.map Tagged.runs
  | .waiting | .calling _ | .ended => []

namespace Runs

/-- Moreover nothing is left in the pipes. -/
def Drained (s : Runs) (label : Label) : Prop :=
  Joined s label ∧
    (label.reconciles = true →
      s.tunIn = [] ∧ s.tunOut = [] ∧ s.networkIn = [] ∧ s.networkOut = [])

instance (s : Runs) (label : Label) : Decidable (Drained s label) :=
  inferInstanceAs (Decidable (_ ∧ _))

/-- Sessions that are gone have taken what they were given with them, and a new run finds
none. -/
structure SessionsGone (entries : List (String × PeerSessionEntry)) (learned : List Nat)
    (caller : Caller) : Prop where
  learned : entries = [] → learned = []
  closing : ∀ callback parts next, caller = .closing callback parts next →
    parts.getLast? = some .sessions
  reconciling : ∀ config, caller = .reconciling config → entries = []

/-- What is on the pipes, in the hands of the loops and known to the sessions is of the current
run, and what a run has sent is of that run. -/
structure Isolated (s : Runs) : Prop where
  held : ∀ l ∈ s.loops, ∀ runs ∈ l.phase.items, OnlyOf s.run runs
  tunIn : ItemsOf s.run s.tunIn
  tunOut : ItemsOf s.run s.tunOut
  networkIn : ItemsOf s.run s.networkIn
  networkOut : ItemsOf s.run s.networkOut
  learned : OnlyOf s.run s.learned
  transmitted : ∀ e ∈ s.transmitted, OnlyOf e.1 e.2.runs
  written : ∀ e ∈ s.written, OnlyOf e.1 e.2.runs
  gone : SessionsGone s.world.sessionEntriesByPeer.entries s.learned s.caller

/-! ### Closing -/

/-- Only the `stop()` of the session manager touches the sessions, and it leaves none. -/
theorem close_world (callback : Option Nat) (part : Part) (s : Runs) :
    ((s.close callback part).world = s.world ∧ (s.close callback part).learned = s.learned ∧
        part ≠ .sessions) ∨
      ((s.close callback part).world.sessionEntriesByPeer.entries = [] ∧
        (s.close callback part).learned = []) := by
  cases part with
  | interface =>
      left
      unfold close
      cases s.bridge <;> exact ⟨rfl, rfl, fun h => (by cases h)⟩
  | sockets =>
      left
      unfold close
      cases s.sockets <;> exact ⟨rfl, rfl, fun h => (by cases h)⟩
  | sessions => exact Or.inr ⟨rfl, rfl⟩

theorem Isolated.close {s : Runs} (h : Isolated s) (callback : Option Nat) (part : Part) :
    Isolated (s.close callback part) := by
  have hkept := close_kept callback part s
  have hsame := close_pipes callback part s
  have hsessions : OnlyOf s.run (s.close callback part).learned ∧
      SessionsGone (s.close callback part).world.sessionEntriesByPeer.entries
        (s.close callback part).learned s.caller := by
    rcases close_world callback part s with ⟨hworld, hlearned, _⟩ | ⟨hentries, hlearned⟩
    · rw [hworld, hlearned]
      exact ⟨h.learned, h.gone⟩
    · rw [hlearned, hentries]
      exact ⟨onlyOf_nil s.run, fun _ => rfl, h.gone.closing, fun _ _ => rfl⟩
  exact {
    held := by
      rw [hkept.loops, hkept.run]
      exact h.held
    tunIn := by
      rw [hsame.tunIn, hkept.run]
      exact h.tunIn
    tunOut := by
      rw [hsame.tunOut, hkept.run]
      exact h.tunOut
    networkIn := by
      rw [hsame.networkIn, hkept.run]
      exact h.networkIn
    networkOut := by
      rw [hsame.networkOut, hkept.run]
      exact h.networkOut
    learned := by
      rw [hkept.run]
      exact hsessions.1
    transmitted := by
      rw [hsame.transmitted]
      exact h.transmitted
    written := by
      rw [hsame.written]
      exact h.written
    gone := by
      rw [hkept.caller]
      exact hsessions.2 }

/-! ### The loops -/

theorem items_resume (network : List (Tagged UdpDatagram)) (tun : List (Tagged Bytes)) :
    (resume network tun).items = network.map Tagged.runs ++ tun.map Tagged.runs := by
  cases network with
  | nil => cases tun <;> rfl
  | cons item network => rfl

/-- An iteration works on what the loop has in hand. -/
theorem workOn_runs {replies : Nat → Reply} {kind : LoopKind} {phase : LoopPhase}
    {label : LoopLabel} {runs : List Nat} (h : workOn replies kind phase = some (label, runs))
    {k : Nat} (hheld : ∀ runs ∈ phase.items, OnlyOf k runs) : OnlyOf k runs := by
  unfold workOn at h
  split at h
  next held =>
    cases h
    exact hheld _ List.mem_cons_self
  next held =>
    cases h
    exact hheld _ List.mem_cons_self
  next =>
    cases h
    exact onlyOf_nil k
  next => cases h

/-- What comes out of an iteration is of the runs of what went in. -/
theorem items_afterWork {s : Runs} {label : LoopLabel} {runs : List Nat} {k : Nat}
    (hruns : OnlyOf k runs) (hlearned : OnlyOf k s.learned) :
    ∀ item ∈ (s.afterWork label runs).items, OnlyOf k item := by
  intro item hitem
  unfold afterWork at hitem
  split at hitem
  next => cases hitem
  next it _ =>
    rw [items_resume] at hitem
    rcases List.mem_append.mp hitem with hitem | hitem
    · obtain ⟨t, ht, rfl⟩ := List.mem_map.mp hitem
      obtain ⟨datagram, _, rfl⟩ := List.mem_map.mp ht
      exact hruns.append hlearned
    · obtain ⟨t, ht, rfl⟩ := List.mem_map.mp hitem
      obtain ⟨packet, _, rfl⟩ := List.mem_map.mp ht
      exact hruns.append hlearned

theorem called_of_no_entries {w : World} (h : w.sessionEntriesByPeer.entries = [])
    (label : LoopLabel) : (label.iteration w.guarded).1.called = [] := by
  refine List.eq_nil_iff_forall_not_mem.mpr fun session hsession => ?_
  obtain ⟨entry, hentry, _⟩ := mem_called_iteration hsession
  have hvalues : w.guarded.sessionEntriesByPeer.values = [] := by
    show (w.sessionEntriesByPeer.entries.map Prod.snd) = []
    rw [h]
    rfl
  rw [hvalues] at hentry
  cases hentry

theorem Isolated.worked {s : Runs} (h : Isolated s) (label : LoopLabel) {runs : List Nat}
    (hruns : OnlyOf s.run runs) : Isolated (s.worked label runs) := by
  refine { h with learned := ?_, gone := { h.gone with learned := ?_ } }
  · show OnlyOf s.run (if _ then _ else _)
    split
    · exact h.learned
    · exact h.learned.append hruns
  · intro hentries
    have hcalled := called_of_no_entries (w := s.world) hentries label
    show (if _ then _ else _) = []
    rw [hcalled]
    exact h.gone.learned hentries

/-- What is left to put, once the first item is on its pipe. -/
theorem items_of_putting {l : Loop} {network network' : List (Tagged UdpDatagram)}
    {tun tun' : List (Tagged Bytes)} {k : Nat} (hphase : l.phase = .putting network tun)
    (hheld : ∀ runs ∈ l.phase.items, OnlyOf k runs) (hnetwork : network' ⊆ network)
    (htun : tun' ⊆ tun) : ∀ runs ∈ (resume network' tun').items, OnlyOf k runs := by
  rw [hphase] at hheld
  rw [items_resume]
  intro runs hruns
  refine hheld runs ?_
  rcases List.mem_append.mp hruns with hruns | hruns
  · exact List.mem_append_left _ (List.map_subset Tagged.runs hnetwork hruns)
  · exact List.mem_append_right _ (List.map_subset Tagged.runs htun hruns)

/-- A step of a loop of the current run keeps the runs apart. -/
theorem isolated_loop {s s' : Runs} {l : Loop} {phase : LoopPhase} (h : Isolated s)
    (hrun : l.run = s.run) (hheld : ∀ runs ∈ l.phase.items, OnlyOf s.run runs)
    (hstep : Acts s l phase s') :
    Isolated s' ∧ ∀ runs ∈ phase.items, OnlyOf s.run runs := by
  have hown : ∀ runs ∈ [[l.run]], OnlyOf s.run runs := by
    intro runs hruns r hr
    rw [List.mem_singleton.mp hruns] at hr
    exact (List.mem_singleton.mp hr).trans hrun
  cases hstep with
  | cleartextTakes hphase hpipe =>
      have hitems := hpipe ▸ h.tunIn
      exact ⟨{ h with tunIn := hitems.tail }, hitems.head⟩
  | encryptedTakes hphase hpipe =>
      have hitems := hpipe ▸ h.networkIn
      exact ⟨{ h with networkIn := hitems.tail }, hitems.head⟩
  | sendTakes hphase hpipe =>
      have hitems := hpipe ▸ h.networkOut
      exact ⟨{ h with networkOut := hitems.tail }, hitems.head⟩
  | writerTakes hphase hpipe =>
      have hitems := hpipe ▸ h.tunOut
      exact ⟨{ h with tunOut := hitems.tail }, hitems.head⟩
  | receives datagram hphase hsocket => exact ⟨h, hown⟩
  | reads packet hphase hbridge => exact ⟨h, hown⟩
  | @works replies label runs hwork =>
      have hruns := workOn_runs hwork hheld
      exact ⟨h.worked label hruns, items_afterWork hruns h.learned⟩
  | @transmits held hphase hsocket =>
      have hsent : OnlyOf l.run held.runs :=
        hrun ▸ hheld _ (by rw [hphase]; exact List.mem_cons_self)
      exact ⟨{ h with transmitted := List.forall_mem_cons.mpr ⟨hsent, h.transmitted⟩ },
        fun runs hruns => (by cases hruns)⟩
  | @writes held hphase hbridge =>
      have hsent : OnlyOf l.run held.runs :=
        hrun ▸ hheld _ (by rw [hphase]; exact List.mem_cons_self)
      exact ⟨{ h with written := List.forall_mem_cons.mpr ⟨hsent, h.written⟩ },
        fun runs hruns => (by cases hruns)⟩
  | @putsNetworkOut item network tun hphase =>
      have hitem : OnlyOf s.run item.runs := hheld _ (by rw [hphase]; exact List.mem_cons_self)
      exact ⟨{ h with networkOut := h.networkOut.put hitem }, items_of_putting hphase hheld
        (List.subset_cons_self item network) (List.Subset.refl tun)⟩
  | @putsTunOut item tun hphase =>
      have hitem : OnlyOf s.run item.runs := hheld _ (by rw [hphase]; exact List.mem_cons_self)
      exact ⟨{ h with tunOut := h.tunOut.put hitem }, items_of_putting hphase hheld
        (List.Subset.refl []) (List.subset_cons_self item tun)⟩
  | @putsNetworkIn item network tun hphase =>
      have hitem : OnlyOf s.run item.runs := hheld _ (by rw [hphase]; exact List.mem_cons_self)
      exact ⟨{ h with networkIn := h.networkIn.put hitem }, items_of_putting hphase hheld
        (List.subset_cons_self item network) (List.Subset.refl tun)⟩
  | @putsTunIn item network tun hphase =>
      have hitem : OnlyOf s.run item.runs :=
        hheld _ (by rw [hphase]; exact List.mem_append_right _ List.mem_cons_self)
      exact ⟨{ h with tunIn := h.tunIn.put hitem }, items_of_putting hphase hheld
        (List.Subset.refl network) (List.subset_cons_self item tun)⟩
  | ends hbody => exact ⟨h, fun runs hruns => (by cases hruns)⟩
  | calls hbody => exact ⟨h, fun runs hruns => (by cases hruns)⟩
  | bridgeCalls hbody hbridge => exact ⟨{ h with }, fun runs hruns => (by cases hruns)⟩
  | @closes part parts hphase =>
      refine ⟨h.close (some l.run) part, fun runs hruns => ?_⟩
      cases parts <;> cases hruns

/-! ### The caller -/

/-- The caller is neither in a `stop()` nor about to make sessions. -/
def resting : Caller → Bool
  | .closing _ _ _ | .reconciling _ => false
  | .idle | .launching | .binding | .opening | .storing => true

theorem SessionsGone.rest {entries : List (String × PeerSessionEntry)} {learned : List Nat}
    {caller caller' : Caller} (h : SessionsGone entries learned caller)
    (hresting : resting caller' = true) : SessionsGone entries learned caller' := by
  refine ⟨h.learned, ?_, ?_⟩
  · intro callback parts next hcaller
    rw [hcaller] at hresting
    cases hresting
  · intro config hcaller
    rw [hcaller] at hresting
    cases hresting

theorem SessionsGone.stop {entries : List (String × PeerSessionEntry)} {learned : List Nat}
    {caller : Caller} (h : SessionsGone entries learned caller) (callback : Option Nat)
    (next : Option ParsedVpnConfiguration) :
    SessionsGone entries learned (.closing callback stopOrder next) := by
  refine ⟨h.learned, ?_, fun config hcaller => (by cases hcaller)⟩
  intro callback' parts next' hcaller
  cases hcaller
  rfl

theorem resting_afterReconcile (outcome : Option (Except Throwable Unit)) :
    resting (afterReconcile outcome) = true := by
  unfold afterReconcile
  split <;> rfl

/-- The last part that a `stop()` closes are the sessions. -/
theorem Isolated.closeNext {s : Runs} (h : Isolated s) {callback : Option Nat} {part : Part}
    {parts : List Part} {next : Option ParsedVpnConfiguration}
    (hcaller : s.caller = .closing callback (part :: parts) next) :
    Isolated { s.close callback part with caller := afterClose callback next parts } := by
  have hclosed := h.close callback part
  have hlast := h.gone.closing _ _ _ hcaller
  refine { hclosed with gone := ⟨hclosed.gone.learned, ?_, ?_⟩ }
  · intro callback' parts' next' hafter
    cases parts with
    | nil => cases next <;> cases hafter
    | cons part' parts =>
        cases hafter
        rw [List.getLast?_cons_cons] at hlast
        exact hlast
  · intro config hafter
    cases parts with
    | nil =>
        have hpart : part = .sessions := Option.some.inj hlast
        rcases close_world callback part s with ⟨_, _, hother⟩ | ⟨hentries, _⟩
        · exact absurd hpart hother
        · exact hentries
    | cons part' parts => cases hafter

theorem Isolated.launchAll {s : Runs} (h : Isolated s) (kinds : List LoopKind) :
    Isolated (s.launchAll kinds) := by
  refine { h with held := ?_ }
  intro l hl runs hruns
  rcases List.mem_append.mp hl with hl | hl
  · exact h.held l hl runs hruns
  · obtain ⟨kind, _, rfl⟩ := List.mem_map.mp hl
    cases hruns

/-- A new run starts with nothing of the earlier ones. -/
theorem Isolated.reconcile {s : Runs} (h : Isolated s) {config : ParsedVpnConfiguration}
    (hcaller : s.caller = .reconciling config) (factory : String → FactoryReply)
    (hdrained : Drained s (.caller (.reconcile factory))) :
    Isolated
      { s with
        run := s.run + 1
        sessionsRun := s.run + 1
        world := reconcileSessions factory config s.world
        caller := afterReconcile (reconcileSessions factory config s.world).outcome } := by
  obtain ⟨htunIn, htunOut, hnetworkIn, hnetworkOut⟩ := hdrained.2 rfl
  have hlearned : s.learned = [] := h.gone.learned (h.gone.reconciling config hcaller)
  have hresting := resting_afterReconcile (reconcileSessions factory config s.world).outcome
  refine ⟨?_, .of_eq_nil htunIn, .of_eq_nil htunOut, .of_eq_nil hnetworkIn,
    .of_eq_nil hnetworkOut, ?_, h.transmitted, h.written, ?_⟩
  · intro l hl runs hruns
    rw [hdrained.1 rfl l hl] at hruns
    cases hruns
  · show OnlyOf (s.run + 1) s.learned
    rw [hlearned]
    exact onlyOf_nil (s.run + 1)
  · have hidle : SessionsGone
        (reconcileSessions factory config s.world).sessionEntriesByPeer.entries s.learned .idle :=
      ⟨fun _ => hlearned, fun callback parts next h => (by cases h), fun config h => (by cases h)⟩
    exact hidle.rest hresting

theorem isolated_caller {s s' : Runs} {label : CallerLabel} (h : Isolated s)
    (hdrained : Drained s (.caller label)) (hstep : CallerActs s label s') : Isolated s' := by
  cases hstep with
  | opens config => exact { h with gone := h.gone.stop none (some config) }
  | stops => exact { h with gone := h.gone.stop none none }
  | closes hcaller => exact h.closeNext hcaller
  | reconciles factory hcaller => exact h.reconcile hcaller factory hdrained
  | launches => exact { h.launchAll cryptoLoops with gone := h.gone.rest rfl }
  | binds ipv4 ipv6 =>
      have hclosed := h.close none .sockets
      exact { hclosed.launchAll (socketLoops ipv4 ipv6) with gone := hclosed.gone.rest rfl }
  | bindFails ipv4 ipv6 =>
      have hclosed := h.close none .sockets
      exact { hclosed with gone := hclosed.gone.rest rfl }
  | opensSession accepted =>
      have hclosed := h.close none .interface
      exact { hclosed.launchAll bridgeLoops with gone := hclosed.gone.rest rfl }
  | rejected accepted =>
      have hclosed := h.close none .interface
      exact { hclosed with gone := hclosed.gone.stop _ none }
  | stores => exact { h with gone := h.gone.rest rfl }

/-! ### Whole runs -/

theorem isolated_step {s s' : Runs} {label : Label} (hordered : Ordered s) (h : Isolated s)
    (hdrained : Drained s label) (hstep : step s label = some s') : Isolated s' := by
  rcases step_cases hstep with ⟨callerLabel, rfl, hcaller⟩ |
    ⟨index, action, l, phase, mid, rfl, hl, hacts, rfl⟩
  · exact isolated_caller h hdrained hcaller
  · have hmem := List.mem_of_getElem? hl
    have hrun := hordered.alive l hmem hacts.alive
    obtain ⟨hmid, hitems⟩ := isolated_loop h hrun (h.held l hmem) hacts
    refine { hmid with held := ?_ }
    intro l' hl' runs hruns
    rcases List.mem_or_eq_of_mem_set hl' with hl' | rfl
    · exact hmid.held l' hl' runs hruns
    · rw [show (mid.setPhase index l phase).run = s.run from hacts.kept.run]
      exact hitems runs hruns

theorem isolated_start : Isolated start where
  held := fun l hl => (by cases hl)
  tunIn := .of_eq_nil rfl
  tunOut := .of_eq_nil rfl
  networkIn := .of_eq_nil rfl
  networkOut := .of_eq_nil rfl
  learned := onlyOf_nil 0
  transmitted := fun e he => (by cases he)
  written := fun e he => (by cases he)
  gone := ⟨fun _ => rfl, fun callback parts next h => (by cases h), fun config h => (by cases h)⟩

/-- In a run where every `open` finds the pipes empty and the loops of the earlier ones ended,
what the send loop and the bridge of a run send is derived from what that run has received. -/
theorem sent_derived_from_own_run {labels : List Label} {s : Runs}
    (hrun : Library.run step start labels = some s) (hdrained : Along step Drained start labels) :
    (∀ e ∈ s.transmitted, ∀ r ∈ e.2.runs, r = e.1) ∧
      ∀ e ∈ s.written, ∀ r ∈ e.2.runs, r = e.1 := by
  have hboth : Ordered s ∧ Isolated s :=
    along_invariant (P := fun _ => True) (C := Drained) (I := fun s => Ordered s ∧ Isolated s)
      (fun s l s' _ hd hs hl => ⟨ordered_step hs.1 hd.1 hl, isolated_step hs.1 hs.2 hd hl⟩)
      (fun _ _ => trivial) ⟨Ordered.start, isolated_start⟩ hdrained hrun
  exact ⟨hboth.2.transmitted, hboth.2.written⟩

/-! ### Examples -/

/-- The bridge of the loops from an index on reads a packet for the peer. -/
def readLabels (first : Nat) : List Label :=
  [.loop (first + 5) (.readPacket examplePacket), .loop (first + 5) .put]

/-- The packet is encrypted and sent. -/
def sendLabels (first : Nat) : List Label :=
  [.loop first .take, .loop first (.work fun _ => .ok (.writeToNetwork [1, 2])),
    .loop first .put, .loop (first + 4) .take, .loop (first + 4) .transmit]

def exampleDatagram : UdpDatagram :=
  { payload := [1, 2], remoteEndpoint := { address := "192.0.2.1", port := 51820 } }

/-- Two runs that each send the packet they have read. -/
def drainedLabels : List Label :=
  openLabels "a" ++ readLabels 0 ++ sendLabels 0 ++ stopLabels ++ cancelLabels ++
    openLabels "b" ++ readLabels 7 ++ sendLabels 7

theorem sent_derived_from_own_run_twice :
    ∃ s, Library.run step start drainedLabels = some s ∧
      s.transmitted = [(2, ⟨exampleDatagram, [2]⟩), (1, ⟨exampleDatagram, [1]⟩)] ∧
      (∀ e ∈ s.transmitted, ∀ r ∈ e.2.runs, r = e.1) ∧
        ∀ e ∈ s.written, ∀ r ∈ e.2.runs, r = e.1 := by
  have hend : (Library.run step start drainedLabels).map transmitted =
      some [(2, ⟨exampleDatagram, [2]⟩), (1, ⟨exampleDatagram, [1]⟩)] := by
    decide +kernel
  obtain ⟨s, hrun, hsent⟩ := Option.map_eq_some_iff.mp hend
  exact ⟨s, hrun, hsent, sent_derived_from_own_run hrun (by decide +kernel)⟩

/-- The first run is stopped with a packet on the pipe. -/
def leftoverLabels : List Label :=
  openLabels "a" ++ readLabels 0 ++ stopLabels ++ cancelLabels ++ openLabels "b" ++ sendLabels 7

/-- The second run encrypts the packet for its own peer and sends it. -/
theorem leftover_packet_sent_by_next_run :
    ∃ s, Library.run step start leftoverLabels = some s ∧
      (2, ⟨exampleDatagram, [1]⟩) ∈ s.transmitted := by
  have hend : (Library.run step start leftoverLabels).map transmitted =
      some [(2, ⟨exampleDatagram, [1]⟩)] := by
    decide +kernel
  obtain ⟨s, hrun, hsent⟩ := Option.map_eq_some_iff.mp hend
  refine ⟨s, hrun, ?_⟩
  rw [hsent]
  exact List.mem_cons_self

end Runs
end WgKotlin
