import WgKotlin.Daemon.Macos.Table

/-!
# The route journal of one session

`SessionRoutes` records each route before it displaces it, so that `restore_with`
can put everything back even when a request failed and nobody knows whether it
took effect.  The invariant is about one key at a time: `Entry` lists the states
that a journalled key can be in, and `restore` leads out of each of them.
-/

namespace WgKotlin
namespace Daemon
namespace Macos

open Proto Library

/-! ### The code -/

structure RouteChange where
  key : RouteKey
  route : Snapshot
  previous : Option Snapshot
  addAttempted : Bool
  deriving DecidableEq, Repr

structure SessionRoutes where
  changes : List RouteChange
  deriving DecidableEq, Repr

/-- `previous.message(RTM_ADD)?` -/
def checkPrevious (previous : Option Snapshot) : Except IoError Unit :=
  match previous with
  | none => .ok ()
  | some previous => (previous.message .add).map fun _ => ()

/-- `table.request(previous, operation)?` for a route that may not exist. -/
def requestPrevious (w : Kernel) (previous : Option Snapshot) (operation : Operation) :
    Except IoError Unit × Kernel :=
  match previous with
  | none => (.ok (), w)
  | some previous => w.request previous operation

/-- The end of `add`: the change that is recorded, and the two requests.  The record
is made before the deletion, so that an error does not lose the backup. -/
def displace (key : RouteKey) (route : Snapshot) (previous : Option Snapshot) (w : Kernel) :
    Except IoError Unit × RouteChange × Kernel :=
  match requestPrevious w previous .delete with
  | (.error e, w) =>
    (.error e, { key := key, route := route, previous := previous, addAttempted := false }, w)
  | (.ok (), w) =>
    let (result, w) := w.request route .add
    (result, { key := key, route := route, previous := previous, addAttempted := true }, w)

namespace SessionRoutes

def new : SessionRoutes := { changes := [] }

def push (routes : SessionRoutes) (change : RouteChange) : SessionRoutes :=
  { changes := routes.changes ++ [change] }

def add (routes : SessionRoutes) (route : Snapshot) (w : Kernel) :
    Except IoError Unit × SessionRoutes × Kernel :=
  match route.key with
  | .error e => (.error e, routes, w)
  | .ok key =>
    if routes.changes.any (fun change => change.key == key) then (.ok (), routes, w)
    else
      match w.find key with
      | (.error e, w) => (.error e, routes, w)
      | (.ok previous, w) =>
        match checkPrevious previous with
        | .error e => (.error e, routes, w)
        | .ok () =>
          let (result, change, w) := displace key route previous w
          (result, routes.push change, w)

/-- The loop of `install` over the requests, which can themselves fail. -/
def addAll (routes : SessionRoutes) (w : Kernel) :
    List (Except IoError Snapshot) → Except IoError Unit × SessionRoutes × Kernel
  | [] => (.ok (), routes, w)
  | .error e :: _ => (.error e, routes, w)
  | .ok route :: rest =>
    match routes.add route w with
    | (.error e, routes, w) => (.error e, routes, w)
    | (.ok (), routes, w) => routes.addAll w rest

/-- The requests of `install`: the endpoints first, then the routes into the TUN. -/
def requests (ifNametoindex : String → Nat) (lastOsError : IoError) (vpn : List Route)
    (endpoints : List EndpointRoute) : List (Except IoError Snapshot) :=
  endpoints.map (fun route => (route.message .add).map Snapshot.mk) ++
    vpn.map (tunRoute ifNametoindex lastOsError)

/-- What `install` passes to `add` is of the shape. -/
theorem isRequest_of_mem_requests {ifNametoindex : String → Nat} {lastOsError : IoError}
    {vpn : List Route} {endpoints : List EndpointRoute}
    (hendpoints : ∀ route ∈ endpoints, route.IsAddressed) :
    ∀ route, .ok route ∈ requests ifNametoindex lastOsError vpn endpoints → IsRequest route := by
  intro route hroute
  rcases List.mem_append.mp hroute with h | h
  · obtain ⟨endpoint, hendpoint, hmessage⟩ := List.mem_map.mp h
    cases hm : endpoint.message .add with
    | error e =>
        rw [hm] at hmessage
        cases hmessage
    | ok m =>
        rw [hm] at hmessage
        cases hmessage
        exact EndpointRoute.isRequest_message (hendpoints endpoint hendpoint) hm
  · obtain ⟨tun, _, htun⟩ := List.mem_map.mp h
    exact isRequest_tunRoute htun

end SessionRoutes

namespace RouteChange

def restore (change : RouteChange) (w : Kernel) : Except IoError Unit × Kernel :=
  match w.find change.key with
  | (.error e, w) => (.error e, w)
  | (.ok none, w) => requestPrevious w change.previous .add
  | (.ok (some current), w) =>
    -- The deletion failed: the entry that was there is untouched.
    if !change.addAttempted then (.ok (), w)
    else
      match current.samePath change.route with
      | .error e => (.error e, w)
      | .ok false =>
        (.error (.other "route changed outside its session; leaving it untouched"), w)
      | .ok true =>
        match w.request current .delete with
        | (.ok (), w) => requestPrevious w change.previous .add
        | (.error e, w) =>
          if e = .os esrch then requestPrevious w change.previous .add else (.error e, w)

end RouteChange

/-- `error.to_string()`, over the texts that the system has for its codes. -/
def IoError.describe (strerror : Int32 → String) : IoError → String
  | .other message => message
  | .os code => strerror code ++ " (os error " ++ toString code ++ ")"

namespace SessionRoutes

/-- The loop of `restore_with`, with the errors it collects. -/
def restoreAll (w : Kernel) : List RouteChange → List IoError × Kernel
  | [] => ([], w)
  | change :: rest =>
    match change.restore w with
    | (.ok (), w) => restoreAll w rest
    | (.error e, w) =>
      let (errors, w) := restoreAll w rest
      (e :: errors, w)

def restoreWith (strerror : Int32 → String) (routes : SessionRoutes) (w : Kernel) :
    Except String Unit × SessionRoutes × Kernel :=
  let (errors, w) := restoreAll w routes.changes.reverse
  (if errors.isEmpty then .ok ()
    else .error (String.intercalate "; " (errors.map (IoError.describe strerror))), new, w)

end SessionRoutes

/-! ### The states of a journalled key -/

structure RouteChange.Valid (c : RouteChange) : Prop where
  key : c.route.key = .ok c.key
  request : IsRequest c.route
  previous : ∀ s, c.previous = some s → s.key = .ok c.key ∧ ∃ m, s.message .add = .ok m

/-- The route of the change has been added and is in the table. -/
def RouteChange.Installed (c : RouteChange) (t : Table) : Prop :=
  c.addAttempted = true ∧ ∃ m, c.route.message .add = .ok m ∧ t.get c.key = some { bytes := m }

/-- What the table can hold for the key of a change, and whether the route that
was there has been deleted. -/
inductive Entry (c : RouteChange) : Option Snapshot → Bool → Prop
  | kept {s : Snapshot} (hattempted : c.addAttempted = false) (hprevious : c.previous = some s) :
      Entry c (some s) false
  | gone : Entry c none c.previous.isSome
  | replaced {m : Bytes} (hattempted : c.addAttempted = true)
      (hm : c.route.message .add = .ok m) : Entry c (some { bytes := m }) c.previous.isSome

theorem Kernel.displaced_congr {w w' : Kernel} (h : Keeps w w') (k : RouteKey) :
    w'.displaced k = w.displaced k := by
  rw [displaced, displaced, h.effects]

theorem Kernel.displaced_add {w w' : Kernel} {k : RouteKey} {v : Option Snapshot}
    (h : Sets w w' .add k v) (j : RouteKey) : w'.displaced j = w.displaced j := by
  simp [displaced, h.effects]

theorem Kernel.displaced_delete {w w' : Kernel} {k : RouteKey} {v : Option Snapshot}
    (h : Sets w w' .delete k v) : w'.displaced k = true := by
  simp [displaced, h.effects]

theorem Kernel.displaced_ne {w w' : Kernel} {operation : Operation} {k j : RouteKey}
    {v : Option Snapshot} (h : Sets w w' operation k v) (hj : k ≠ j) :
    w'.displaced j = w.displaced j := by
  simp [displaced, h.effects, Ne.symm hj]

/-- Only the entry of one key has changed. -/
structure Kernel.Frame (k : RouteKey) (w w' : Kernel) : Prop where
  get : ∀ j, k ≠ j → w'.table.get j = w.table.get j
  displaced : ∀ j, k ≠ j → w'.displaced j = w.displaced j

theorem Kernel.Keeps.frame {w w' : Kernel} (h : Keeps w w') (k : RouteKey) : Frame k w w' where
  get := fun j _ => by rw [h.table]
  displaced := fun j _ => displaced_congr h j

theorem Kernel.Sets.frame {w w' : Kernel} {operation : Operation} {k : RouteKey}
    {v : Option Snapshot} (h : Sets w w' operation k v) : Frame k w w' where
  get := fun _ hj => h.get_ne hj
  displaced := fun _ hj => displaced_ne h hj

theorem Kernel.Frame.trans {w w' w'' : Kernel} {k : RouteKey} (h : Frame k w w')
    (h' : Frame k w' w'') : Frame k w w'' where
  get := fun j hj => (h'.get j hj).trans (h.get j hj)
  displaced := fun j hj => (h'.displaced j hj).trans (h.displaced j hj)

/-- The last request of `add`, once the key is free. -/
theorem request_add_entry {w : Kernel} {c : RouteChange} (hkey : c.route.key = .ok c.key)
    (hattempted : c.addAttempted = true) (hfree : w.table.get c.key = none)
    (hdisplaced : w.displaced c.key = c.previous.isSome) :
    Entry c ((w.request c.route .add).2.table.get c.key)
        ((w.request c.route .add).2.displaced c.key) ∧
      Kernel.Frame c.key w (w.request c.route .add).2 ∧
      ((w.request c.route .add).1 = .ok () → c.Installed (w.request c.route .add).2.table) := by
  rcases Kernel.request_add (w := w) hkey with ⟨hfail, hkeeps⟩ | ⟨m, hm, hsets⟩
  · refine ⟨?_, hkeeps.frame c.key, fun h => absurd h hfail⟩
    rw [hkeeps.table, hfree, Kernel.displaced_congr hkeeps, hdisplaced]
    exact .gone
  · refine ⟨?_, hsets.frame, fun _ => ⟨hattempted, m, hm, hsets.get_self⟩⟩
    rw [hsets.get_self, Kernel.displaced_add hsets, hdisplaced]
    exact .replaced hattempted hm

/-- `displace` leaves its key in one of the listed states, and every other key
alone. -/
theorem displace_spec {key : RouteKey} {route : Snapshot} {w : Kernel}
    (hkey : route.key = .ok key) (hdisplaced : w.displaced key = false) :
    ∃ attempted, (displace key route (w.table.get key) w).2.1 =
        { key := key, route := route, previous := w.table.get key, addAttempted := attempted } ∧
      Entry (displace key route (w.table.get key) w).2.1
        ((displace key route (w.table.get key) w).2.2.table.get key)
        ((displace key route (w.table.get key) w).2.2.displaced key) ∧
      Kernel.Frame key w (displace key route (w.table.get key) w).2.2 ∧
      ((displace key route (w.table.get key) w).1 = .ok () →
        RouteChange.Installed (displace key route (w.table.get key) w).2.1
          (displace key route (w.table.get key) w).2.2.table) := by
  cases hprevious : w.table.get key with
  | none =>
      have h := request_add_entry (w := w) (c := {
        key := key, route := route, previous := none, addAttempted := true }) hkey rfl
        hprevious hdisplaced
      exact ⟨true, rfl, h⟩
  | some p =>
      unfold displace requestPrevious
      simp only
      rcases hrequest : w.request p .delete with ⟨result, w₁⟩
      have hdelete := Kernel.request_delete (w := w) (w.table.keyed key p hprevious)
      rw [hrequest] at hdelete
      cases result with
      | error e =>
          refine ⟨false, rfl, ?_⟩
          rcases hdelete with ⟨_, hkeeps⟩ | hsets
          · refine ⟨?_, hkeeps.frame key, fun h => (by cases h)⟩
            simp only
            rw [hkeeps.table, hprevious, Kernel.displaced_congr hkeeps, hdisplaced]
            exact .kept rfl rfl
          · refine ⟨?_, hsets.frame, fun h => (by cases h)⟩
            simp only
            rw [hsets.get_self, Kernel.displaced_delete hsets]
            exact .gone
      | ok u =>
          rcases hdelete with ⟨hfail, _⟩ | hsets
          · exact absurd rfl hfail
          · have h := request_add_entry (w := w₁) (c := {
              key := key, route := route, previous := some p, addAttempted := true }) hkey rfl
              hsets.get_self (Kernel.displaced_delete hsets)
            exact ⟨true, rfl, h.1, hsets.frame.trans h.2.1, h.2.2⟩

/-! ### The journal while routes are added -/

/-- The journal of a session against the table that it began with. -/
structure Journalled (initial : Table) (changes : List RouteChange) (w : Kernel) : Prop where
  nodup : (changes.map RouteChange.key).Nodup
  valid : ∀ c ∈ changes, c.Valid
  previous : ∀ c ∈ changes, c.previous = initial.get c.key
  entry : ∀ c ∈ changes, Entry c (w.table.get c.key) (w.displaced c.key)
  untouched : ∀ k, k ∉ changes.map RouteChange.key → w.table.get k = initial.get k
  undisplaced : ∀ k, k ∉ changes.map RouteChange.key → w.displaced k = false

theorem journalled_start (initial : Table) (faults : List (Option Fault))
    (lookups : List (Option IoError)) :
    Journalled initial SessionRoutes.new.changes (Kernel.start initial faults lookups) where
  nodup := List.nodup_nil
  valid := fun _ h => by cases h
  previous := fun _ h => by cases h
  entry := fun _ h => by cases h
  untouched := fun _ _ => rfl
  undisplaced := fun _ _ => rfl

/-- A route that was deleted is one that can be added again. -/
theorem Journalled.message_of_displaced {initial : Table} {changes : List RouteChange} {w : Kernel}
    {k : RouteKey} {s : Snapshot} (h : Journalled initial changes w)
    (hdisplaced : w.displaced k = true) (hs : initial.get k = some s) :
    ∃ m, s.message .add = .ok m := by
  by_cases hk : k ∈ changes.map RouteChange.key
  · obtain ⟨c, hc, rfl⟩ := List.mem_map.mp hk
    exact ((h.valid c hc).previous s ((h.previous c hc).trans hs)).2
  · rw [h.undisplaced k hk] at hdisplaced
    cases hdisplaced

theorem Journalled.keeps {initial : Table} {changes : List RouteChange} {w w' : Kernel}
    (h : Journalled initial changes w) (hkeeps : Kernel.Keeps w w') :
    Journalled initial changes w' where
  nodup := h.nodup
  valid := h.valid
  previous := h.previous
  entry := fun c hc => by
    rw [hkeeps.table, Kernel.displaced_congr hkeeps]
    exact h.entry c hc
  untouched := fun k hk => by rw [hkeeps.table, h.untouched k hk]
  undisplaced := fun k hk => by rw [Kernel.displaced_congr hkeeps, h.undisplaced k hk]

/-- One more change, for a key that has none yet. -/
theorem Journalled.push {initial : Table} {changes : List RouteChange} {w w' : Kernel}
    {c : RouteChange} (h : Journalled initial changes w)
    (hfresh : c.key ∉ changes.map RouteChange.key) (hvalid : c.Valid)
    (hprevious : c.previous = w.table.get c.key)
    (hentry : Entry c (w'.table.get c.key) (w'.displaced c.key))
    (hframe : Kernel.Frame c.key w w') : Journalled initial (changes ++ [c]) w' := by
  have hne : ∀ d ∈ changes, c.key ≠ d.key := fun d hd he =>
    hfresh (he ▸ List.mem_map_of_mem hd)
  have hsplit : ∀ k, k ∉ (changes ++ [c]).map RouteChange.key →
      k ∉ changes.map RouteChange.key ∧ c.key ≠ k := by
    intro k hk
    rw [List.map_append, List.mem_append, not_or] at hk
    exact ⟨hk.1, fun he => hk.2 (by rw [← he]; exact List.mem_singleton_self _)⟩
  constructor
  · rw [List.map_append]
    refine List.nodup_append.mpr ⟨h.nodup, List.nodup_singleton _, ?_⟩
    intro k hk j hj he
    rw [List.map_singleton, List.mem_singleton] at hj
    exact hfresh (hj ▸ he ▸ hk)
  · intro d hd
    rcases List.mem_append.mp hd with hd | hd
    · exact h.valid d hd
    · rw [List.mem_singleton.mp hd]
      exact hvalid
  · intro d hd
    rcases List.mem_append.mp hd with hd | hd
    · exact h.previous d hd
    · rw [List.mem_singleton.mp hd, hprevious]
      exact h.untouched c.key hfresh
  · intro d hd
    rcases List.mem_append.mp hd with hd | hd
    · rw [hframe.get d.key (hne d hd), hframe.displaced d.key (hne d hd)]
      exact h.entry d hd
    · rw [List.mem_singleton.mp hd]
      exact hentry
  · intro k hk
    rw [hframe.get k (hsplit k hk).2]
    exact h.untouched k (hsplit k hk).1
  · intro k hk
    rw [hframe.displaced k (hsplit k hk).2]
    exact h.undisplaced k (hsplit k hk).1

theorem checkPrevious_eq_ok {previous : Option Snapshot} (h : checkPrevious previous = .ok ()) :
    ∀ s, previous = some s → ∃ m, s.message .add = .ok m := by
  intro s hs
  subst hs
  cases hm : s.message .add with
  | error e => simp [checkPrevious, hm, Except.map] at h
  | ok m => exact ⟨m, rfl⟩

namespace SessionRoutes

/-- `add` stops before it has changed anything, or it displaces what is there for a
new key. -/
theorem add_cases (routes : SessionRoutes) (route : Snapshot) (w : Kernel) :
    ((routes.add route w).2.1 = routes ∧ Kernel.Keeps w (routes.add route w).2.2) ∨
      ∃ key w₁, route.key = .ok key ∧ key ∉ routes.changes.map RouteChange.key ∧
        Kernel.Keeps w w₁ ∧ checkPrevious (w₁.table.get key) = .ok () ∧
        routes.add route w =
          ((displace key route (w₁.table.get key) w₁).1,
            routes.push (displace key route (w₁.table.get key) w₁).2.1,
            (displace key route (w₁.table.get key) w₁).2.2) := by
  unfold add
  cases hkey : route.key with
  | error e => exact Or.inl ⟨rfl, Kernel.Keeps.refl w⟩
  | ok key =>
      simp only
      by_cases hany : routes.changes.any (fun change => change.key == key) = true
      · rw [if_pos hany]
        exact Or.inl ⟨rfl, Kernel.Keeps.refl w⟩
      rw [if_neg hany]
      have hnew : key ∉ routes.changes.map RouteChange.key := by
        intro hmem
        obtain ⟨c, hc, hck⟩ := List.mem_map.mp hmem
        exact hany (List.any_eq_true.mpr ⟨c, hc, beq_iff_eq.mpr hck⟩)
      rcases hfind : w.find key with ⟨found, w₁⟩
      have hkeeps := w.find_keeps key
      rw [hfind] at hkeeps
      cases found with
      | error e => exact Or.inl ⟨rfl, hkeeps⟩
      | ok previous =>
          obtain rfl : previous = w₁.table.get key := by
            rw [hkeeps.table]
            exact Kernel.find_eq_ok (by rw [hfind])
          simp only
          cases hcheck : checkPrevious (w₁.table.get key) with
          | error e => exact Or.inl ⟨rfl, hkeeps⟩
          | ok u => exact Or.inr ⟨key, w₁, rfl, hnew, hkeeps, hcheck, rfl⟩

/-- `add` records nothing and changes nothing, or records one change for a new
key; and if it ends well, the route of that change is in the table. -/
theorem add_spec {routes : SessionRoutes} {route : Snapshot} {w : Kernel}
    (hroute : IsRequest route)
    (hfresh : ∀ k, k ∉ routes.changes.map RouteChange.key → w.displaced k = false) :
    ((routes.add route w).2.1 = routes ∧ Kernel.Keeps w (routes.add route w).2.2) ∨
      ∃ c, (routes.add route w).2.1 = routes.push c ∧
        c.key ∉ routes.changes.map RouteChange.key ∧ c.Valid ∧
        c.previous = w.table.get c.key ∧
        Entry c ((routes.add route w).2.2.table.get c.key)
          ((routes.add route w).2.2.displaced c.key) ∧
        Kernel.Frame c.key w (routes.add route w).2.2 ∧
        ((routes.add route w).1 = .ok () → c.Installed (routes.add route w).2.2.table) := by
  rcases add_cases routes route w with hkept | ⟨key, w₁, hkey, hnew, hkeeps, hcheck, hadd⟩
  · exact Or.inl hkept
  have hdisplaced : w₁.displaced key = false := by
    rw [Kernel.displaced_congr hkeeps, hfresh key hnew]
  obtain ⟨attempted, hchange, hentry, hframe, hok⟩ := displace_spec hkey hdisplaced
  rw [hadd]
  refine Or.inr ⟨_, rfl, ?_⟩
  rw [hchange] at hentry hok ⊢
  refine ⟨hnew, ⟨hkey, hroute, fun s hs => ⟨?_, checkPrevious_eq_ok hcheck s hs⟩⟩, ?_, hentry,
    (hkeeps.frame key).trans hframe, hok⟩
  · exact w₁.table.keyed key s hs
  · show w₁.table.get key = w.table.get key
    rw [hkeeps.table]

theorem add_journalled {initial : Table} {routes : SessionRoutes} {route : Snapshot} {w : Kernel}
    (h : Journalled initial routes.changes w) (hroute : IsRequest route) :
    Journalled initial (routes.add route w).2.1.changes (routes.add route w).2.2 := by
  rcases add_spec hroute h.undisplaced with
    ⟨hroutes, hkeeps⟩ | ⟨c, hroutes, hnew, hvalid, hprevious, hentry, hframe, _⟩
  · rw [hroutes]
    exact h.keeps hkeeps
  · rw [hroutes]
    exact h.push hnew hvalid hprevious hentry hframe

/-- The run lemma: any list of requests of the shape, with any failures. -/
theorem addAll_journalled {initial : Table} {requests : List (Except IoError Snapshot)}
    (hrequests : ∀ route, .ok route ∈ requests → IsRequest route) {routes : SessionRoutes}
    {w : Kernel} (h : Journalled initial routes.changes w) :
    Journalled initial (routes.addAll w requests).2.1.changes (routes.addAll w requests).2.2 := by
  induction requests generalizing routes w with
  | nil => exact h
  | cons request rest ih =>
      cases request with
      | error e => exact h
      | ok route =>
          have hadd := add_journalled h (hrequests route List.mem_cons_self)
          have hrest : ∀ route, .ok route ∈ rest → IsRequest route :=
            fun route hr => hrequests route (List.mem_cons_of_mem _ hr)
          unfold addAll
          rcases heq : routes.add route w with ⟨result, routes', w'⟩
          rw [heq] at hadd
          cases result with
          | error e => exact hadd
          | ok u => exact ih hrest hadd

/-- An `add` that ends well leaves the routes of all changes in the table. -/
theorem add_installed {initial : Table} {routes : SessionRoutes} {route : Snapshot} {w : Kernel}
    (h : Journalled initial routes.changes w) (hroute : IsRequest route)
    (hinstalled : ∀ c ∈ routes.changes, c.Installed w.table)
    (hok : (routes.add route w).1 = .ok ()) :
    ∀ c ∈ (routes.add route w).2.1.changes, c.Installed (routes.add route w).2.2.table := by
  intro c hc
  rcases add_spec hroute h.undisplaced with
    ⟨hroutes, hkeeps⟩ | ⟨d, hroutes, hnew, _, _, _, hframe, hend⟩
  · rw [hroutes] at hc
    rw [hkeeps.table]
    exact hinstalled c hc
  · rw [hroutes] at hc
    rcases List.mem_append.mp hc with hold | hlast
    · have hne : d.key ≠ c.key := fun he => hnew (he ▸ List.mem_map_of_mem hold)
      obtain ⟨hattempted, m, hm, hget⟩ := hinstalled c hold
      exact ⟨hattempted, m, hm, (hframe.get c.key hne).trans hget⟩
    · rw [List.mem_singleton.mp hlast]
      exact hend hok

/-- If `install` ends well, the route of every change is in the table. -/
theorem addAll_installed {initial : Table} {requests : List (Except IoError Snapshot)}
    (hrequests : ∀ route, .ok route ∈ requests → IsRequest route) {routes : SessionRoutes}
    {w : Kernel} (h : Journalled initial routes.changes w)
    (hinstalled : ∀ c ∈ routes.changes, c.Installed w.table)
    (hok : (routes.addAll w requests).1 = .ok ()) :
    ∀ c ∈ (routes.addAll w requests).2.1.changes,
      c.Installed (routes.addAll w requests).2.2.table := by
  induction requests generalizing routes w with
  | nil => exact hinstalled
  | cons request rest ih =>
      cases request with
      | error e => cases hok
      | ok route =>
          have hroute := hrequests route List.mem_cons_self
          have hadd := add_journalled h hroute
          have hstep := add_installed h hroute hinstalled
          unfold addAll at hok ⊢
          rcases heq : routes.add route w with ⟨result, routes', w'⟩
          rw [heq] at hadd hok hstep
          cases result with
          | error e => cases hok
          | ok u =>
              exact ih (fun route hr => hrequests route (List.mem_cons_of_mem _ hr)) hadd
                (hstep rfl) hok

end SessionRoutes

end Macos
end Daemon
end WgKotlin
