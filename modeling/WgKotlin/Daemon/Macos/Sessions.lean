import WgKotlin.Daemon.Macos.Restore
import WgKotlin.Library.Layers
import WgKotlin.Library.Run

/-!
# Several sessions on one routing table

Each session of the daemon has a journal of its own, and they all work on one
table.  A session that finds the route of another under its key takes it for the
previous route, so what is left behind depends on the order in which they close.
Sessions that share a key and close in reverse order form a stack over that key.
-/

namespace WgKotlin
namespace Daemon
namespace Macos

open Proto Library

/-! ### The system -/

structure Sessions where
  table : Table
  /-- The sessions that are installed, in the order of their installation. -/
  installed : List (Nat × SessionRoutes)
  /-- Every session that was ever installed. -/
  used : List Nat

inductive SessionsLabel
  /-- `configure_session` with these requests.  The flag tells whether the DNS entries
  could be set. -/
  | install (id : Nat) (requests : List (Except IoError Snapshot)) (dns : Bool)
  /-- The cleanup hook of the session. -/
  | restore (id : Nat)

/-- `configure_session`: the journal that its cleanup hook keeps, if it succeeds.  If
it fails, the cleanup has been made. -/
def configureSession (strerror : Int32 → String) (table : Table)
    (requests : List (Except IoError Snapshot)) (dns : Bool) : Option SessionRoutes × Table :=
  match SessionRoutes.new.addAll (Kernel.start table [] []) requests with
  | (result, routes, w) =>
    if result = .ok () ∧ dns = true then (some routes, w.table)
    else (none, (routes.restoreWith strerror w.answering).2.2.table)

namespace Sessions

def start (table : Table) : Sessions := { table := table, installed := [], used := [] }

def find (s : Sessions) (id : Nat) : Option (Nat × SessionRoutes) :=
  s.installed.find? fun e => e.1 = id

def step (strerror : Int32 → String) (s : Sessions) : SessionsLabel → Option Sessions
  | .install id requests dns =>
    if id ∈ s.used then none
    else
      match configureSession strerror s.table requests dns with
      | (some routes, table) =>
        some { table := table, installed := s.installed ++ [(id, routes)], used := id :: s.used }
      | (none, table) => some { s with table := table, used := id :: s.used }
  | .restore id =>
    match s.find id with
    | none => none
    | some e =>
      some { s with
        table := (e.2.restoreWith strerror (Kernel.start s.table [] [])).2.2.table
        installed := s.installed.eraseP fun e => e.1 = id }

end Sessions

namespace SessionRoutes

def keys (routes : SessionRoutes) : List RouteKey := routes.changes.map RouteChange.key

end SessionRoutes

/-- The requests are of the shape that the daemon makes. -/
def SessionsLabel.Shaped : SessionsLabel → Prop
  | .install _ requests _ => ∀ route, .ok route ∈ requests → IsRequest route
  | .restore _ => True

namespace Sessions

/-- The sessions that were installed after this one. -/
def later (s : Sessions) (id : Nat) : List (Nat × SessionRoutes) :=
  (s.installed.dropWhile fun e => e.1 ≠ id).tail

/-- No later session has a change for a key of the one that is restored. -/
def InOrder (s : Sessions) : SessionsLabel → Prop
  | .install _ _ _ => True
  | .restore id =>
    ∀ e ∈ s.find id, ∀ other ∈ s.later id, ∀ k ∈ e.2.keys, k ∉ other.2.keys

instance (s : Sessions) : ∀ l, Decidable (s.InOrder l)
  | .install _ _ _ => isTrue trivial
  | .restore id =>
    inferInstanceAs (Decidable
      (∀ e ∈ s.find id, ∀ other ∈ s.later id, ∀ k ∈ e.2.keys, k ∉ other.2.keys))

end Sessions

/-! ### The stack over a key -/

/-- The layer that a change puts over a key. -/
def RouteChange.layer (k : RouteKey) (c : RouteChange) : Option (Layer Snapshot) :=
  if c.key = k then c.route.normal.map (Layer.mk c.previous) else none

def SessionRoutes.layers (k : RouteKey) (routes : SessionRoutes) : List (Layer Snapshot) :=
  routes.changes.filterMap (RouteChange.layer k)

/-- The layers over a key of sessions that were installed one after another. -/
def layersOf (k : RouteKey) (installed : List (Nat × SessionRoutes)) : List (Layer Snapshot) :=
  installed.flatMap fun e => e.2.layers k

theorem layersOf_append (k : RouteKey) (front back : List (Nat × SessionRoutes)) :
    layersOf k (front ++ back) = layersOf k front ++ layersOf k back := List.flatMap_append

theorem layersOf_cons (k : RouteKey) (e : Nat × SessionRoutes)
    (rest : List (Nat × SessionRoutes)) :
    layersOf k (e :: rest) = e.2.layers k ++ layersOf k rest := List.flatMap_cons

theorem SessionRoutes.layers_of_notMem {routes : SessionRoutes} {k : RouteKey}
    (h : k ∉ routes.keys) : routes.layers k = [] := by
  apply List.filterMap_eq_nil_iff.mpr
  intro c hc
  rw [RouteChange.layer, if_neg]
  intro he
  exact h (he ▸ List.mem_map_of_mem hc)

theorem layersOf_eq_nil {k : RouteKey} {installed : List (Nat × SessionRoutes)}
    (h : ∀ e ∈ installed, k ∉ e.2.keys) : layersOf k installed = [] := by
  apply List.flatMap_eq_nil_iff.mpr
  intro e he
  exact SessionRoutes.layers_of_notMem (h e he)

/-- A session with one change for a key puts one layer over it. -/
theorem SessionRoutes.layers_of_mem {routes : SessionRoutes} {c : RouteChange} {x : Snapshot}
    (hnodup : routes.keys.Nodup) (hc : c ∈ routes.changes) (hx : c.route.normal = some x) :
    routes.layers c.key = [{ previous := c.previous, stored := x }] := by
  have hlayer : c.layer c.key = some { previous := c.previous, stored := x } := by
    rw [RouteChange.layer, if_pos rfl, hx]
    rfl
  obtain ⟨front, back, hsplit⟩ := List.append_of_mem hc
  have hkeys : routes.keys = front.map RouteChange.key ++ c.key :: back.map RouteChange.key := by
    rw [keys, hsplit, List.map_append, List.map_cons]
  rw [hkeys] at hnodup
  have hother := List.nodup_middle.mp hnodup
  have hnone : ∀ d ∈ front ++ back, d.layer c.key = none := by
    intro d hd
    rw [RouteChange.layer, if_neg]
    intro he
    apply (List.nodup_cons.mp hother).1
    rw [← List.map_append, ← he]
    exact List.mem_map_of_mem hd
  rw [layers, hsplit, List.filterMap_append, List.filterMap_cons, hlayer,
    List.filterMap_eq_nil_iff.mpr fun d hd => hnone d (List.mem_append_left back hd),
    List.filterMap_eq_nil_iff.mpr fun d hd => hnone d (List.mem_append_right front hd)]
  rfl

theorem Snapshot.normal_eq_some {s x : Snapshot} (h : s.normal = some x) :
    s.message .add = .ok x.bytes := by
  unfold normal at h
  split at h
  · cases h
    assumption
  · cases h

theorem Snapshot.normal_of_message {s : Snapshot} {m : Bytes} (h : s.message .add = .ok m) :
    s.normal = some { bytes := m } := by
  rw [normal, h]

theorem Snapshot.normal_normal (s x : Snapshot) (h : s.normal = some x) : x.normal = some x :=
  normal_of_message (message_message (normal_eq_some h))

/-- A route that can be added again comes back in its normal form. -/
theorem settled_normal {v : Option Snapshot}
    (h : ∀ x, v = some x → ∃ m, x.message .add = .ok m) :
    Settled Snapshot.normal v (v.bind Snapshot.normal) := by
  cases v with
  | none => exact Or.inl rfl
  | some x =>
      obtain ⟨m, hm⟩ := h x rfl
      have hx := Snapshot.normal_of_message hm
      exact Or.inr ⟨x, _, rfl, hx, hx⟩

/-! ### The invariant -/

/-- A journal that was installed whole. -/
structure SessionRoutes.Complete (routes : SessionRoutes) : Prop where
  nodup : routes.keys.Nodup
  valid : ∀ c ∈ routes.changes, c.Valid
  attempted : ∀ c ∈ routes.changes, c.addAttempted = true
  normal : ∀ c ∈ routes.changes, ∃ x, c.route.normal = some x

structure Sessions.Ordered (initial : Table) (s : Sessions) : Prop where
  complete : ∀ e ∈ s.installed, e.2.Complete
  stacked : ∀ k, Stacked Snapshot.normal (initial.get k) (layersOf k s.installed) (s.table.get k)

theorem Sessions.ordered_start (initial : Table) : (start initial).Ordered initial where
  complete := fun _ h => by cases h
  stacked := fun _ => Or.inl rfl

/-- What `configure_session` does to the table. -/
theorem configureSession_spec {strerror : Int32 → String} {table table' : Table}
    {requests : List (Except IoError Snapshot)} {dns : Bool} {journal : Option SessionRoutes}
    (hrequests : ∀ route, .ok route ∈ requests → IsRequest route)
    (h : configureSession strerror table requests dns = (journal, table')) :
    (journal = none ∧ ∀ k, Settled Snapshot.normal (table.get k) (table'.get k)) ∨
      ∃ routes, journal = some routes ∧ routes.Complete ∧
        (∀ c ∈ routes.changes, c.previous = table.get c.key ∧
          table'.get c.key = c.route.normal) ∧
        ∀ k, k ∉ routes.keys → table'.get k = table.get k := by
  unfold configureSession at h
  rcases hadds : SessionRoutes.new.addAll (Kernel.start table [] []) requests with
    ⟨result, routes, w⟩
  have hjournal := SessionRoutes.addAll_journalled hrequests (journalled_start table [] [])
  have hinstalled := SessionRoutes.addAll_installed hrequests (journalled_start table [] [])
    (fun c hc => by cases hc)
  rw [hadds] at h hjournal hinstalled
  simp only at h
  split at h
  next hok =>
    cases h
    have hdone := hinstalled hok.1
    refine Or.inr ⟨routes, rfl, ⟨hjournal.nodup, hjournal.valid, fun c hc => (hdone c hc).1, ?_⟩,
      ?_, hjournal.untouched⟩
    · intro c hc
      obtain ⟨_, m, hm, _⟩ := hdone c hc
      exact ⟨_, Snapshot.normal_of_message hm⟩
    · intro c hc
      obtain ⟨_, m, hm, hget⟩ := hdone c hc
      refine ⟨hjournal.previous c hc, ?_⟩
      rw [Snapshot.normal_of_message hm]
      exact hget
  · have hanswering : Journalled table routes.changes w.answering := hjournal.keeps ⟨rfl, rfl⟩
    obtain ⟨w', hrestore, hget⟩ := SessionRoutes.restoreWith_journalled strerror hanswering
      w.answers_answering
    rw [hrestore] at h
    cases h
    refine Or.inl ⟨rfl, fun k => ?_⟩
    rw [hget k]
    split
    next hdisplaced =>
      exact settled_normal fun x hx => hanswering.message_of_displaced hdisplaced hx
    · exact Or.inl rfl

namespace Sessions

/-- Where a session stands among those that are installed. -/
theorem find_eq_some {s : Sessions} {id : Nat} {e : Nat × SessionRoutes}
    (h : s.find id = some e) :
    ∃ front back, s.installed = front ++ e :: back ∧
      (s.installed.eraseP fun e => e.1 = id) = front ++ back ∧ s.later id = back := by
  obtain ⟨he, front, back, hsplit, hfront⟩ := List.find?_eq_some_iff_append.mp h
  have hne : ∀ a ∈ front, ¬ (decide (a.1 = id)) = true := by
    intro a ha hid
    have hnot := hfront a ha
    rw [hid] at hnot
    cases hnot
  have hskip : (front ++ e :: back).dropWhile (fun a => a.1 ≠ id) = e :: back := by
    rw [List.dropWhile_append_of_pos, List.dropWhile_cons_of_neg]
    · simpa using he
    · intro a ha
      simpa using hne a ha
  refine ⟨front, back, hsplit, ?_, ?_⟩
  · rw [hsplit, List.eraseP_append_right _ hne,
      List.eraseP_cons_of_pos (p := fun a : Nat × SessionRoutes => decide (a.1 = id)) he]
  · rw [later, hsplit, hskip]
    rfl

/-- A session puts one more layer over each of its keys. -/
theorem Ordered.install {initial table' : Table} {s : Sessions} {routes : SessionRoutes} {id : Nat}
    (h : s.Ordered initial) (hcomplete : routes.Complete)
    (hchanges : ∀ c ∈ routes.changes, c.previous = s.table.get c.key ∧
      table'.get c.key = c.route.normal)
    (hother : ∀ k, k ∉ routes.keys → table'.get k = s.table.get k) (used : List Nat) :
    Ordered initial
      { table := table', installed := s.installed ++ [(id, routes)], used := used } := by
  constructor
  · intro e he
    rcases List.mem_append.mp he with he | he
    · exact h.complete e he
    · rw [List.mem_singleton.mp he]
      exact hcomplete
  · intro k
    show Stacked _ _ (layersOf k (s.installed ++ [(id, routes)])) (table'.get k)
    rw [layersOf_append, layersOf_cons]
    by_cases hk : k ∈ routes.keys
    · obtain ⟨c, hc, rfl⟩ := List.mem_map.mp hk
      obtain ⟨x, hx⟩ := hcomplete.normal c hc
      obtain ⟨hprevious, hget⟩ := hchanges c hc
      have hlayers : routes.layers c.key ++ layersOf c.key [] =
          [{ previous := s.table.get c.key, stored := x }] := by
        rw [SessionRoutes.layers_of_mem hcomplete.nodup hc hx, hprevious]
        rfl
      rw [hget, hx, hlayers]
      exact (h.stacked c.key).push (Snapshot.normal_normal c.route x hx)
    · have hlayers : routes.layers k ++ layersOf k [] = [] := by
        rw [SessionRoutes.layers_of_notMem hk]
        rfl
      rw [hother k hk, hlayers, List.append_nil]
      exact h.stacked k

/-- A session whose keys no later one has changed is the last one under each of
them. -/
theorem Ordered.top {initial : Table} {s : Sessions} {e : Nat × SessionRoutes}
    {front back : List (Nat × SessionRoutes)} (h : s.Ordered initial) (hcomplete : e.2.Complete)
    (hsplit : s.installed = front ++ e :: back)
    (horder : ∀ other ∈ back, ∀ k ∈ e.2.keys, k ∉ other.2.keys) {c : RouteChange}
    (hc : c ∈ e.2.changes) :
    ∃ x, c.route.normal = some x ∧ s.table.get c.key = some x ∧
      Stacked Snapshot.normal (initial.get c.key) (layersOf c.key front) c.previous := by
  obtain ⟨x, hx⟩ := hcomplete.normal c hc
  have hkey : c.key ∈ e.2.keys := List.mem_map_of_mem hc
  have hstacked := h.stacked c.key
  rw [hsplit, layersOf_append, layersOf_cons,
    SessionRoutes.layers_of_mem hcomplete.nodup hc hx,
    layersOf_eq_nil fun other ho => horder other ho c.key hkey, List.append_nil] at hstacked
  exact ⟨x, hx, hstacked.pop⟩

/-- Such a session takes its layers off again. -/
theorem Ordered.restore {initial : Table} {s : Sessions} {e : Nat × SessionRoutes}
    {front back : List (Nat × SessionRoutes)} (strerror : Int32 → String) (h : s.Ordered initial)
    (hsplit : s.installed = front ++ e :: back)
    (horder : ∀ other ∈ back, ∀ k ∈ e.2.keys, k ∉ other.2.keys) :
    Ordered initial { s with
      table := (e.2.restoreWith strerror (Kernel.start s.table [] [])).2.2.table
      installed := front ++ back } := by
  have hcomplete : e.2.Complete := by
    apply h.complete e
    rw [hsplit]
    exact List.mem_append_right front List.mem_cons_self
  have htop := fun c => h.top (c := c) hcomplete hsplit horder
  obtain ⟨w', hrestore, hdone, hother⟩ := SessionRoutes.restoreWith_spec strerror
    (w := Kernel.start s.table [] []) ⟨rfl, rfl⟩ hcomplete.nodup hcomplete.valid (by
      intro c hc
      obtain ⟨x, hx, hget, _⟩ := htop c hc
      refine ⟨c.previous.isSome, ?_⟩
      show Entry c (s.table.get c.key) _
      rw [hget]
      exact .replaced (hcomplete.attempted c hc) (Snapshot.normal_eq_some hx))
  rw [hrestore]
  constructor
  · intro d hd
    apply h.complete d
    rw [hsplit]
    rcases List.mem_append.mp hd with hd | hd
    · exact List.mem_append_left _ hd
    · exact List.mem_append_right front (List.mem_cons_of_mem _ hd)
  · intro k
    show Stacked _ _ (layersOf k (front ++ back)) (w'.table.get k)
    rw [layersOf_append]
    by_cases hk : k ∈ e.2.keys
    · obtain ⟨c, hc, rfl⟩ := List.mem_map.mp hk
      obtain ⟨x, _, hget, hbelow⟩ := htop c hc
      have houtcome : w'.table.get c.key = c.previous.bind Snapshot.normal := by
        rw [hdone c hc, RouteChange.outcome, hcomplete.attempted c hc]
        simp
      rw [houtcome, layersOf_eq_nil fun other ho => horder other ho c.key hk, List.append_nil]
      exact hbelow.settle Snapshot.normal_normal
        (settled_normal fun x hx => ((hcomplete.valid c hc).previous x hx).2)
    · have hstacked := h.stacked k
      rw [hsplit, layersOf_append, layersOf_cons, SessionRoutes.layers_of_notMem hk,
        List.nil_append] at hstacked
      rw [hother k hk]
      exact hstacked

theorem ordered_step {strerror : Int32 → String} {initial : Table} {s s' : Sessions}
    {l : SessionsLabel} (hl : l.Shaped) (horder : s.InOrder l) (h : s.Ordered initial)
    (hstep : s.step strerror l = some s') : s'.Ordered initial := by
  cases l with
  | install id requests dns =>
      simp only [step] at hstep
      split at hstep
      · cases hstep
      · split at hstep
        next routes table' hconfigure =>
          cases hstep
          rcases configureSession_spec hl hconfigure with
            ⟨hnone, _⟩ | ⟨routes', hsome, hcomplete, hchanges, hother⟩
          · cases hnone
          · cases hsome
            exact h.install hcomplete hchanges hother _
        next table' hconfigure =>
          cases hstep
          rcases configureSession_spec hl hconfigure with ⟨_, htable⟩ | ⟨routes', hsome, _⟩
          · refine ⟨h.complete, fun k => ?_⟩
            exact (h.stacked k).settle Snapshot.normal_normal (htable k)
          · cases hsome
  | restore id =>
      simp only [step] at hstep
      split at hstep
      · cases hstep
      next e he =>
        obtain ⟨front, back, hsplit, herase, hlater⟩ := find_eq_some he
        cases hstep
        rw [herase]
        refine h.restore strerror hsplit ?_
        intro other hother k hk
        exact horder e he other (hlater ▸ hother) k hk

/-- In every run in which no session is restored while a later one has a change for
one of its keys: each key of an installed session has a route, and when all are
restored the table is the one at the start, up to routes that were added again. -/
theorem restores_in_order (strerror : Int32 → String) (initial : Table)
    {labels : List SessionsLabel} {s : Sessions} (hshaped : ∀ l ∈ labels, l.Shaped)
    (horder : Along (step strerror) InOrder (start initial) labels)
    (hrun : run (step strerror) (start initial) labels = some s) :
    (∀ e ∈ s.installed, ∀ k ∈ e.2.keys, (s.table.get k).isSome = true) ∧
      (s.installed = [] → ∀ k, s.table.get k = initial.get k ∨
        ∃ x m, initial.get k = some x ∧ x.message .add = .ok m ∧
          s.table.get k = some { bytes := m }) := by
  have h : s.Ordered initial := along_invariant (I := Ordered initial)
    (fun s l s' hl ho hs hstep => ordered_step hl ho hs hstep) hshaped (ordered_start initial)
    horder hrun
  constructor
  · intro e he k hk
    obtain ⟨c, hc, rfl⟩ := List.mem_map.mp hk
    obtain ⟨x, hx⟩ := (h.complete e he).normal c hc
    apply (h.stacked c.key).isSome
    intro hnil
    have hlayers := List.flatMap_eq_nil_iff.mp hnil e he
    rw [SessionRoutes.layers_of_mem (h.complete e he).nodup hc hx] at hlayers
    cases hlayers
  · intro hclosed k
    have hstacked := h.stacked k
    rw [hclosed] at hstacked
    rcases hstacked with hk | ⟨x, y, hx, hy, hk⟩
    · exact Or.inl hk
    · exact Or.inr ⟨x, y.bytes, hx, Snapshot.normal_eq_some hy, hk⟩

/-- The routes of a session that captures everything, over the interface `index`. -/
def captureOver (index : Nat) : List (Except IoError Snapshot) :=
  SessionRoutes.requests (fun _ => index) (.os 6) [SessionRoutes.defaultRoute] []

theorem shaped_captureOver (id index : Nat) :
    (SessionsLabel.install id (captureOver index) true).Shaped :=
  SessionRoutes.isRequest_of_mem_requests (fun _ h => by cases h)

/-- Two sessions that capture everything, closed in reverse order. -/
def nested : List SessionsLabel :=
  [.install 1 (captureOver 7) true, .install 2 (captureOver 8) true, .restore 2, .restore 1]

theorem restores_in_order_nested :
    ∃ s, run (step fun _ => "") (start SessionRoutes.lanTable) nested = some s ∧
      s.installed = [] ∧
      ∀ k, s.table.get k = SessionRoutes.lanTable.get k ∨
        ∃ x m, SessionRoutes.lanTable.get k = some x ∧ x.message .add = .ok m ∧
          s.table.get k = some { bytes := m } := by
  have hshaped : ∀ l ∈ nested, l.Shaped := by
    intro l hl
    simp only [nested, List.mem_cons, List.not_mem_nil, or_false] at hl
    rcases hl with rfl | rfl | rfl | rfl
    · exact shaped_captureOver 1 7
    · exact shaped_captureOver 2 8
    · exact trivial
    · exact trivial
  have horder : Along (step fun _ => "") InOrder (start SessionRoutes.lanTable) nested := by
    decide +kernel
  have hend : (run (step fun _ => "") (start SessionRoutes.lanTable) nested).map
      (fun s => s.installed) = some [] := by decide +kernel
  obtain ⟨s, hrun, hclosed⟩ := Option.map_eq_some_iff.mp hend
  exact ⟨s, hrun, hclosed, (restores_in_order _ _ hshaped horder hrun).2 hclosed⟩

def gatewayAddress : IpAddr := { family := .v4, octets := [192, 0, 2, 1], size := rfl }

/-- A peer at `198.51.100.10`, reached over the gateway `192.0.2.1`. -/
def endpoint : EndpointRoute where
  destination := { family := .v4, octets := [198, 51, 100, 10], size := rfl }
  interface := 2
  gateway := ipAddress gatewayAddress
  viaGateway := true
  source := none
  mtu := 0
  hopcount := 0

def endpointKey : RouteKey where
  family := afInet
  destination := [198, 51, 100, 10]
  mask := [255, 255, 255, 255]
  host := true
  scope := 0

/-- The host route of the peer, as each session that has it asks for it. -/
def toEndpoint : List (Except IoError Snapshot) :=
  SessionRoutes.requests (fun _ => 7) (.os 6) [] [endpoint]

theorem shaped_toEndpoint (id : Nat) : (SessionsLabel.install id toEndpoint true).Shaped := by
  apply SessionRoutes.isRequest_of_mem_requests
  intro route hroute
  rw [List.mem_singleton.mp hroute]
  exact ⟨Or.inr (isIpSockaddr_ipAddress gatewayAddress), fun source h => (by cases h)⟩

/-- Two sessions with the same peer: closing the first one deletes the route that
the second one needs.  Two sessions that capture everything: closing the first one
leaves the table alone, and closing the second one brings the route of the first
one back, for good. -/
theorem closing_first_session_first :
    (∀ id, (SessionsLabel.install id toEndpoint true).Shaped) ∧
    (∀ id index, (SessionsLabel.install id (captureOver index) true).Shaped) ∧
    (run (step fun _ => "") (start SessionRoutes.lanTable)
        [.install 1 toEndpoint true, .install 2 toEndpoint true, .restore 1]).map
      (fun s => (s.installed.map fun e => (e.1, e.2.keys), s.table.get endpointKey)) =
        some ([(2, [endpointKey])], none) ∧
    (run (step fun _ => "") (start SessionRoutes.lanTable)
        [.install 1 (captureOver 7) true, .install 2 (captureOver 8) true, .restore 1,
          .restore 2]).map
      (fun s => (s.installed, s.table.get SessionRoutes.defaultKey)) =
        some ([], (SessionRoutes.defaultSnapshot 7).normal) ∧
    SessionRoutes.lanTable.get SessionRoutes.defaultKey =
      some (SessionRoutes.defaultSnapshot 2) ∧
    (SessionRoutes.defaultSnapshot 7).normal ≠ some (SessionRoutes.defaultSnapshot 2) ∧
    (SessionRoutes.defaultSnapshot 7).normal ≠ (SessionRoutes.defaultSnapshot 2).normal := by
  refine ⟨shaped_toEndpoint, shaped_captureOver, ?_, ?_, rfl, ?_, ?_⟩
  · decide +kernel
  · decide +kernel
  · decide +kernel
  · decide +kernel

end Sessions

end Macos
end Daemon
end WgKotlin
