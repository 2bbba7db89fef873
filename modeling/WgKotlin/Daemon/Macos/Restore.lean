import WgKotlin.Daemon.Macos.Journal

/-!
# Restoring the routes of a session

`restore_with` reads one entry for each change and infers from it what became of
the requests.  Every state that the journal allows leads back to the entry that
was there before the session.
-/

namespace WgKotlin
namespace Daemon
namespace Macos

open Proto Library

/-- The route as it comes back when it is added again. -/
def Snapshot.normal (s : Snapshot) : Option Snapshot :=
  match s.message .add with
  | .ok m => some { bytes := m }
  | .error _ => none

/-- What `restore` leaves in the entry of its key. -/
def RouteChange.outcome (c : RouteChange) (current : Option Snapshot) : Option Snapshot :=
  if current.isSome && !c.addAttempted then current else c.previous.bind Snapshot.normal

/-- The end of `restore`, once the key is free. -/
theorem requestPrevious_add {w : Kernel} {c : RouteChange} (hc : c.Valid) (hw : w.Answers)
    (hfree : w.table.get c.key = none) :
    ∃ w', requestPrevious w c.previous .add = (.ok (), w') ∧ w'.Answers ∧
      ∀ j, w'.table.get j =
        if c.key = j then c.previous.bind Snapshot.normal else w.table.get j := by
  cases hprevious : c.previous with
  | none =>
      refine ⟨w, rfl, hw, fun j => ?_⟩
      by_cases hj : c.key = j
      · rw [if_pos hj, ← hj]
        exact hfree
      · rw [if_neg hj]
  | some s =>
      obtain ⟨hkey, m, hm⟩ := hc.previous s hprevious
      obtain ⟨w', hrequest, hanswers, hsets⟩ := Kernel.request_add_of_answers hw hkey hm hfree
      refine ⟨w', hrequest, hanswers, fun j => ?_⟩
      rw [hsets.get j]
      simp only [Option.bind_some, Snapshot.normal, hm]

/-- `restore` ends well from each state of its key, and touches no other. -/
theorem RouteChange.restore_spec {w : Kernel} {c : RouteChange} {displaced : Bool} (hc : c.Valid)
    (hw : w.Answers) (hentry : Entry c (w.table.get c.key) displaced) :
    ∃ w', c.restore w = (.ok (), w') ∧ w'.Answers ∧
      ∀ j, w'.table.get j =
        if c.key = j then c.outcome (w.table.get c.key) else w.table.get j := by
  generalize hcurrent : w.table.get c.key = current at hentry
  cases hentry with
  | kept hattempted hprevious =>
      rename_i s
      refine ⟨w, ?_, hw, fun j => ?_⟩
      · rw [restore, Kernel.find_of_answers hw, hcurrent]
        simp only [hattempted, Bool.not_false, if_true]
      · by_cases hj : c.key = j
        · rw [if_pos hj, ← hj, hcurrent]
          simp [outcome, hattempted]
        · rw [if_neg hj]
  | gone =>
      rw [restore, Kernel.find_of_answers hw, hcurrent]
      exact requestPrevious_add hc hw hcurrent
  | replaced hattempted hm =>
      rename_i m
      obtain ⟨m', hm'⟩ := exists_message (message_message hm) .delete
      have hkey : Snapshot.key { bytes := m } = .ok c.key := (key_message hm).trans hc.key
      have hpath := samePath_message hc.request hc.key hm
      obtain ⟨w₁, hdelete, hw₁, hsets⟩ := Kernel.request_delete_of_answers hw hkey hm'
        (by rw [hcurrent]; rfl)
      obtain ⟨w₂, hadd, hw₂, hget⟩ := requestPrevious_add hc hw₁ hsets.get_self
      refine ⟨w₂, ?_, hw₂, fun j => ?_⟩
      · rw [restore, Kernel.find_of_answers hw, hcurrent]
        simp only [hattempted, Bool.not_true, Bool.false_eq_true, if_false, hpath, hdelete, hadd]
      · rw [hget j]
        by_cases hj : c.key = j
        · rw [if_pos hj, if_pos hj]
          simp [outcome, hattempted]
        · rw [if_neg hj, if_neg hj, hsets.get_ne hj]

namespace SessionRoutes

/-- The run lemma of `restore_with`: every change is undone, each in its own entry. -/
theorem restoreAll_spec {changes : List RouteChange} {w : Kernel} (hw : w.Answers)
    (hnodup : (changes.map RouteChange.key).Nodup) (hvalid : ∀ c ∈ changes, c.Valid)
    (hentry : ∀ c ∈ changes, ∃ displaced, Entry c (w.table.get c.key) displaced) :
    ∃ w', restoreAll w changes = ([], w') ∧ w'.Answers ∧
      (∀ c ∈ changes, w'.table.get c.key = c.outcome (w.table.get c.key)) ∧
      ∀ j, j ∉ changes.map RouteChange.key → w'.table.get j = w.table.get j := by
  induction changes generalizing w with
  | nil => exact ⟨w, rfl, hw, fun c hc => (by cases hc), fun _ _ => rfl⟩
  | cons c rest ih =>
      obtain ⟨hc, hrest⟩ := List.nodup_cons.mp hnodup
      obtain ⟨displaced, hentryc⟩ := hentry c List.mem_cons_self
      obtain ⟨w₁, hrestore, hw₁, hget₁⟩ := RouteChange.restore_spec
        (hvalid c List.mem_cons_self) hw hentryc
      -- The keys of the other changes are not this one.
      have hkeep : ∀ d ∈ rest, w₁.table.get d.key = w.table.get d.key := by
        intro d hd
        rw [hget₁, if_neg]
        intro he
        exact hc (he ▸ List.mem_map_of_mem hd)
      obtain ⟨w₂, hrun, hw₂, hdone, hother⟩ := ih hw₁ hrest
        (fun d hd => hvalid d (List.mem_cons_of_mem c hd))
        (fun d hd => by
          rw [hkeep d hd]
          exact hentry d (List.mem_cons_of_mem c hd))
      refine ⟨w₂, ?_, hw₂, ?_, ?_⟩
      · rw [restoreAll, hrestore]
        exact hrun
      · intro d hd
        rcases List.mem_cons.mp hd with rfl | hd
        · rw [hother d.key hc, hget₁, if_pos rfl]
        · rw [hdone d hd, hkeep d hd]
      · intro j hj
        rw [List.map_cons, List.mem_cons, not_or] at hj
        rw [hother j hj.2, hget₁, if_neg (Ne.symm hj.1)]

theorem restoreWith_spec (strerror : Int32 → String) {routes : SessionRoutes} {w : Kernel}
    (hw : w.Answers) (hnodup : (routes.changes.map RouteChange.key).Nodup)
    (hvalid : ∀ c ∈ routes.changes, c.Valid)
    (hentry : ∀ c ∈ routes.changes, ∃ displaced, Entry c (w.table.get c.key) displaced) :
    ∃ w', routes.restoreWith strerror w = (.ok (), new, w') ∧
      (∀ c ∈ routes.changes, w'.table.get c.key = c.outcome (w.table.get c.key)) ∧
      ∀ j, j ∉ routes.changes.map RouteChange.key → w'.table.get j = w.table.get j := by
  have hreverse : (routes.changes.reverse.map RouteChange.key).Nodup := by
    rw [List.map_reverse]
    exact List.nodup_reverse.mpr hnodup
  obtain ⟨w', hrun, _, hdone, hother⟩ := restoreAll_spec hw hreverse
    (fun c hc => hvalid c (List.mem_reverse.mp hc))
    (fun c hc => hentry c (List.mem_reverse.mp hc))
  refine ⟨w', ?_, fun c hc => hdone c (List.mem_reverse.mpr hc), fun j hj => hother j ?_⟩
  · rw [restoreWith, hrun]
    rfl
  · rw [List.map_reverse, List.mem_reverse]
    exact hj

end SessionRoutes

/-- What a restored entry is, from whether its route was deleted. -/
theorem Entry.outcome_eq {c : RouteChange} {current : Option Snapshot} {displaced : Bool}
    (h : Entry c current displaced) :
    c.outcome current = if displaced then c.previous.bind Snapshot.normal else c.previous := by
  have hfree : c.previous.bind Snapshot.normal =
      if c.previous.isSome then c.previous.bind Snapshot.normal else c.previous := by
    cases c.previous with
    | none => rfl
    | some s => rfl
  cases h with
  | kept hattempted hprevious => simp [RouteChange.outcome, hattempted, hprevious]
  | gone => exact hfree
  | replaced hattempted hm =>
      rw [RouteChange.outcome, hattempted]
      simpa using hfree

namespace SessionRoutes

/-- Restoring a journalled table: what was deleted is added again, and nothing else
has changed. -/
theorem restoreWith_journalled (strerror : Int32 → String) {initial : Table}
    {routes : SessionRoutes} {w : Kernel} (h : Journalled initial routes.changes w)
    (hw : w.Answers) :
    ∃ w', routes.restoreWith strerror w = (.ok (), new, w') ∧
      ∀ k, w'.table.get k =
        if w.displaced k then (initial.get k).bind Snapshot.normal else initial.get k := by
  obtain ⟨w', hrestore, hdone, hother⟩ := restoreWith_spec strerror hw h.nodup h.valid
    fun c hc => ⟨_, h.entry c hc⟩
  refine ⟨w', hrestore, fun k => ?_⟩
  by_cases hk : k ∈ routes.changes.map RouteChange.key
  · obtain ⟨c, hc, rfl⟩ := List.mem_map.mp hk
    rw [hdone c hc, ← h.previous c hc]
    exact (h.entry c hc).outcome_eq
  · rw [hother k hk, h.undisplaced k hk]
    exact h.untouched k hk

/-- A session that adds routes, with any failures on the way, and is then restored
by a kernel that answers, leaves the table as it was: the routes it has deleted
come back as they are added again, and every other entry is untouched. -/
theorem restoreWith_undoes_addAll (strerror : Int32 → String) (initial : Table)
    (requests : List (Except IoError Snapshot))
    (hrequests : ∀ route, .ok route ∈ requests → IsRequest route)
    (faults : List (Option Fault)) (lookups : List (Option IoError)) :
    ∃ result routes w routes' w',
      new.addAll (Kernel.start initial faults lookups) requests = (result, routes, w) ∧
      routes.restoreWith strerror w.answering = (.ok (), routes', w') ∧
      routes'.changes = [] ∧
      (∀ k, initial.get k = none → w'.table.get k = none) ∧
      (∀ k s, initial.get k = some s → w.displaced k = true →
        ∃ m, s.message .add = .ok m ∧ w'.table.get k = some { bytes := m }) ∧
      (∀ k s, initial.get k = some s → w.displaced k = false → w'.table.get k = some s) ∧
      ∀ v, routes'.restoreWith strerror v = (.ok (), routes', v) := by
  rcases hadds : new.addAll (Kernel.start initial faults lookups) requests with
    ⟨result, routes, w⟩
  have hjournal := addAll_journalled hrequests (journalled_start initial faults lookups)
  rw [hadds] at hjournal
  have hanswering : Journalled initial routes.changes w.answering := hjournal.keeps ⟨rfl, rfl⟩
  obtain ⟨w', hrestore, hfinal⟩ := restoreWith_journalled strerror hanswering w.answers_answering
  refine ⟨result, routes, w, new, w', rfl, hrestore, rfl, ?_, ?_, ?_, fun v => rfl⟩
  · intro k hk
    rw [hfinal k, hk]
    exact ite_self _
  · intro k s hs hdisplaced
    obtain ⟨m, hm⟩ := hjournal.message_of_displaced hdisplaced hs
    have hdone : w.answering.displaced k = true := hdisplaced
    refine ⟨m, hm, ?_⟩
    rw [hfinal k, hdone, hs, if_pos rfl, Option.bind_some, Snapshot.normal, hm]
  · intro k s hs hdisplaced
    have hkept : w.answering.displaced k = false := hdisplaced
    rw [hfinal k, hkept, hs]
    rfl

/-- `0.0.0.0/0` -/
def defaultRoute : Route where
  destination := { family := .v4, octets := [0, 0, 0, 0], size := rfl }
  prefixLen := 0
  ifName := some "utun7"

def defaultKey : RouteKey :=
  { family := afInet, destination := [0, 0, 0, 0], mask := [0, 0, 0, 0], host := false, scope := 0 }

/-- The default route over the interface `index`. -/
def defaultSnapshot (index : Nat) : Snapshot where
  bytes := (stampTun index 144 false).bytes ++ padded (ipAddress defaultRoute.network) ++
    padded (linkAddress index) ++ padded (ipAddress defaultRoute.mask)

theorem key_defaultSnapshot : (defaultSnapshot 2).key = .ok defaultKey := by decide +kernel

/-- A host whose default route leads over the interface 2. -/
def lanTable : Table := Table.empty.insert (defaultSnapshot 2) key_defaultSnapshot

/-- The request of a session that captures everything. -/
def captureAll : List (Except IoError Snapshot) :=
  requests (fun _ => 7) (.os 6) [defaultRoute] []

/-- The default route is deleted, and the answer to the request that replaces it is
lost: the session still gives the route back. -/
theorem restoreWith_after_lost_answer :
    ∃ routes w routes' w' m,
      new.addAll (Kernel.start lanTable [none, some { error := .os 60, effective := true }] [])
        captureAll = (.error (.os 60), routes, w) ∧
      routes.restoreWith (fun _ => "Operation timed out") w.answering = (.ok (), routes', w') ∧
      (defaultSnapshot 2).message .add = .ok m ∧
      w'.table.get defaultKey = some { bytes := m } := by
  have hrequests : ∀ route, .ok route ∈ captureAll → IsRequest route :=
    isRequest_of_mem_requests (fun _ h => by cases h)
  obtain ⟨result, routes, w, routes', w', hadds, hrestore, _, _, hdisplaced, _, _⟩ :=
    restoreWith_undoes_addAll (fun _ => "Operation timed out") lanTable captureAll hrequests
      [none, some { error := .os 60, effective := true }] []
  have hresult : (new.addAll (Kernel.start lanTable
      [none, some { error := .os 60, effective := true }] []) captureAll).1 =
      .error (.os 60) := by decide +kernel
  have hlost : (new.addAll (Kernel.start lanTable
      [none, some { error := .os 60, effective := true }] []) captureAll).2.2.displaced
      defaultKey = true := by decide +kernel
  rw [hadds] at hresult hlost
  have hend : result = .error (.os 60) := hresult
  subst hend
  obtain ⟨m, hm, hget⟩ := hdisplaced defaultKey (defaultSnapshot 2) rfl hlost
  exact ⟨routes, w, routes', w', m, hadds, hrestore, hm, hget⟩

end SessionRoutes

end Macos
end Daemon
end WgKotlin
