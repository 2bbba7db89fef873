import WgKotlin.Daemon.Macos.Restore

/-!
# Restoring routes over a table that fails

The requests of `restore_with` can fail too, and the table may have changed since the session
was installed.  `restore` touches the key of its change only, leaves a route alone that is not
the session's, and when it reports success the previous route is back.
-/

namespace WgKotlin
namespace Daemon
namespace Macos

open Proto Library

/-! ### Errors of the code -/

theorem readSlots_ne_os (addrs index count : Nat) (rest : Bytes) (code : Int32) :
    readSlots addrs index count rest ≠ .error (.os code) := by
  induction count generalizing index rest with
  | zero => exact fun h => (by cases h)
  | succ count ih =>
      intro h
      rw [readSlots.eq_def] at h
      simp only at h
      split at h
      · split at h
        · cases h
        · split at h
          · cases h
          · rcases bind_eq_error.mp h with hslots | ⟨slots, _, hlast⟩
            · exact ih _ _ hslots
            · cases hlast
      · rcases bind_eq_error.mp h with hslots | ⟨slots, _, hlast⟩
        · exact ih _ _ hslots
        · cases hlast

theorem header_ne_os (bytes : Bytes) (code : Int32) : header bytes ≠ .error (.os code) := by
  unfold header
  split <;> exact fun h => (by cases h)

/-- The codes of the system come from the system. -/
theorem message_ne_os (route : Snapshot) (operation : Operation) (code : Int32) :
    route.message operation ≠ .error (.os code) := by
  intro h
  unfold Snapshot.message at h
  rcases bind_eq_error.mp h with hheader | ⟨head, _, hrest⟩
  · exact header_ne_os _ _ hheader
  · split at hrest
    · cases hrest
    · split at hrest
      · cases hrest
      · rcases bind_eq_error.mp hrest with hslots | ⟨attrs, _, hlast⟩
        · exact readSlots_ne_os _ _ _ _ _ hslots
        · simp only at hlast
          split at hlast <;> cases hlast

/-! ### A kernel that may fail -/

namespace Kernel

/-- A request that is answered with `ESRCH` has found no route, or has deleted it. -/
def Honest (w : Kernel) : Prop :=
  ∀ fault, some fault ∈ w.faults → fault.error = .os esrch → fault.effective = true

variable {w : Kernel} {route : Snapshot} {k : RouteKey}

theorem find_faults (w : Kernel) (key : RouteKey) : (w.find key).2.faults = w.faults := by
  unfold find
  simp only
  split <;> rfl

theorem carryOut_faults (w : Kernel) (operation : Operation) (m : Bytes) :
    (w.carryOut operation m).faults = w.faults.tail := by
  unfold carryOut
  split <;> rfl

theorem request_faults (w : Kernel) (route : Snapshot) (operation : Operation) :
    (w.request route operation).2.faults = w.faults ∨
      (w.request route operation).2.faults = w.faults.tail := by
  unfold request
  split
  · exact Or.inl rfl
  · unfold exchange
    split
    · split
      · exact Or.inr (carryOut_faults w operation _)
      · exact Or.inr rfl
    · exact Or.inr (carryOut_faults w operation _)

theorem Honest.of_faults {w' : Kernel} (h : w.Honest)
    (hfaults : w'.faults = w.faults ∨ w'.faults = w.faults.tail) : w'.Honest := by
  intro fault hfault
  rcases hfaults with heq | heq
  · exact h fault (heq ▸ hfault)
  · exact h fault (List.mem_of_mem_tail (heq ▸ hfault))

/-- A deletion that is answered with success or with `ESRCH` has left no route. -/
theorem request_delete_gone (h : w.Honest) (hkey : route.key = .ok k)
    (hthere : (w.table.get k).isSome = true)
    (hresult : (w.request route .delete).1 = .ok () ∨
      (w.request route .delete).1 = .error (.os esrch)) :
    Sets w (w.request route .delete).2 .delete k none := by
  rcases request_delete (w := w) hkey with ⟨hfail, hkeeps⟩ | hsets
  · have hesrch := hresult.resolve_left hfail
    unfold request at hesrch hkeeps
    cases hm : route.message .delete with
    | error e =>
        rw [hm] at hesrch
        have herror : e = .os esrch := Except.error.inj hesrch
        exact absurd (hm.trans (congrArg Except.error herror)) (message_ne_os route .delete esrch)
    | ok m =>
        -- the only way is a fault that took effect, and that is a change
        have happly : w.table.apply .delete m = .ok (k, w.table.erase k) := by
          rw [Table.apply_delete ((key_message hm).trans hkey), if_pos hthere]
        rw [hm] at hesrch hkeeps
        simp only [exchange, happly] at hesrch hkeeps
        cases hfault : w.faults.head?.join with
        | none =>
            rw [hfault] at hesrch
            cases hesrch
        | some fault =>
            rw [hfault] at hesrch hkeeps
            have hmem : some fault ∈ w.faults :=
              List.mem_of_head? (Option.join_eq_some_iff.mp hfault)
            have heffective := h fault hmem (Except.error.inj hesrch)
            simp only [heffective, if_true, carryOut_of_ok happly] at hkeeps
            have hlength := congrArg List.length hkeeps.effects
            simp at hlength
  · exact hsets

end Kernel

/-! ### Restoring over any table -/

theorem requestPrevious_faults (w : Kernel) (previous : Option Snapshot) (operation : Operation) :
    (requestPrevious w previous operation).2.faults = w.faults ∨
      (requestPrevious w previous operation).2.faults = w.faults.tail := by
  cases previous with
  | none => exact Or.inl rfl
  | some route => exact w.request_faults route operation

/-- The end of `restore`: it touches its key only, and success says what is there. -/
theorem requestPrevious_add_frame {w : Kernel} {c : RouteChange} (hc : c.Valid)
    (hfree : w.table.get c.key = none) :
    (∀ j, c.key ≠ j → (requestPrevious w c.previous .add).2.table.get j = w.table.get j) ∧
      ((requestPrevious w c.previous .add).1 = .ok () →
        (requestPrevious w c.previous .add).2.table.get c.key =
          c.previous.bind Snapshot.normal) := by
  cases hprevious : c.previous with
  | none => exact ⟨fun _ _ => rfl, fun _ => hfree⟩
  | some s =>
      show (∀ j, c.key ≠ j → (w.request s .add).2.table.get j = w.table.get j) ∧
        ((w.request s .add).1 = .ok () → (w.request s .add).2.table.get c.key = s.normal)
      rcases Kernel.request_add (w := w) (hc.previous s hprevious).1 with
        ⟨hfail, hkeeps⟩ | ⟨m, hm, hsets⟩
      · exact ⟨fun j _ => by rw [hkeeps.table], fun hok => absurd hok hfail⟩
      · refine ⟨fun j hj => hsets.get_ne hj, fun _ => ?_⟩
        rw [hsets.get_self, Snapshot.normal, hm]

/-- Someone else has put a route of their own in the place of the session's. -/
def RouteChange.Foreign (c : RouteChange) (current : Option Snapshot) : Prop :=
  c.addAttempted = true ∧ ∃ s, current = some s ∧ s.samePath c.route ≠ .ok true

/-- What one `restore` does, over any table and with any failures. -/
structure RouteChange.Restored (c : RouteChange) (w : Kernel) (result : Except IoError Unit)
    (w' : Kernel) : Prop where
  honest : w'.Honest
  frame : ∀ j, c.key ≠ j → w'.table.get j = w.table.get j
  success : result = .ok () → w'.table.get c.key = c.outcome (w.table.get c.key)
  foreign : c.Foreign (w.table.get c.key) →
    w'.table.get c.key = w.table.get c.key ∧ result ≠ .ok ()

/-- A `restore` that stops before it has changed anything. -/
theorem RouteChange.Restored.of_table {c : RouteChange} {w w' : Kernel} {e : IoError}
    (hw' : w'.Honest) (htable : w'.table = w.table) : c.Restored w (.error e) w' where
  honest := hw'
  frame := fun j _ => by rw [htable]
  success := fun h => by cases h
  foreign := fun _ => ⟨by rw [htable], fun h => by cases h⟩

/-- The end of `restore`, from a kernel in which the key is free. -/
theorem RouteChange.Restored.of_free {c : RouteChange} {w w' : Kernel} (hc : c.Valid)
    (hw' : w'.Honest) (hfree : w'.table.get c.key = none)
    (hframe : ∀ j, c.key ≠ j → w'.table.get j = w.table.get j)
    (hours : ¬ c.Foreign (w.table.get c.key))
    (houtcome : c.outcome (w.table.get c.key) = c.previous.bind Snapshot.normal) :
    c.Restored w (requestPrevious w' c.previous .add).1
      (requestPrevious w' c.previous .add).2 where
  honest := hw'.of_faults (requestPrevious_faults w' c.previous .add)
  frame := fun j hj => ((requestPrevious_add_frame hc hfree).1 j hj).trans (hframe j hj)
  success := fun hok => ((requestPrevious_add_frame hc hfree).2 hok).trans houtcome.symm
  foreign := fun hforeign => absurd hforeign hours

/-- The step lemma of `restore_with`. -/
theorem RouteChange.restore_restored {w : Kernel} {c : RouteChange} (hc : c.Valid)
    (hhonest : w.Honest) : c.Restored w (c.restore w).1 (c.restore w).2 := by
  unfold restore
  have hkeeps := w.find_keeps c.key
  have hfaults := w.find_faults c.key
  rcases hfind : w.find c.key with ⟨found, w₁⟩
  rw [hfind] at hkeeps hfaults
  have htable : w₁.table = w.table := hkeeps.table
  have hw₁ : w₁.Honest := hhonest.of_faults (Or.inl hfaults)
  cases found with
  | error e => exact .of_table hw₁ htable
  | ok found =>
      have hfound : found = w.table.get c.key := Kernel.find_eq_ok (congrArg Prod.fst hfind)
      cases found with
      | none =>
          refine .of_free hc hw₁ (by rw [htable, ← hfound]) (fun j _ => by rw [htable]) ?_ ?_
          · rintro ⟨_, s, hs, _⟩
            rw [← hfound] at hs
            cases hs
          · rw [← hfound]
            rfl
      | some current =>
          simp only
          by_cases hattempted : c.addAttempted = true
          · rw [hattempted, Bool.not_true, if_neg Bool.false_ne_true]
            cases hpath : current.samePath c.route with
            | error e => exact .of_table hw₁ htable
            | ok same =>
                cases same with
                | false => exact .of_table hw₁ htable
                | true =>
                    have hours : ¬ c.Foreign (w.table.get c.key) := by
                      rintro ⟨_, s, hs, hne⟩
                      rw [← hfound] at hs
                      cases hs
                      exact hne hpath
                    have houtcome : c.outcome (w.table.get c.key) =
                        c.previous.bind Snapshot.normal := by
                      simp [outcome, hattempted]
                    have hkey : current.key = .ok c.key := w.table.keyed c.key current hfound.symm
                    have hthere : (w₁.table.get c.key).isSome = true := by
                      rw [htable, ← hfound]
                      rfl
                    have hgone := Kernel.request_delete_gone hw₁ hkey hthere
                    have hdelete := Kernel.request_delete (w := w₁) hkey
                    have hnext := w₁.request_faults current .delete
                    simp only
                    rcases hrequest : w₁.request current .delete with ⟨result, w₂⟩
                    rw [hrequest] at hgone hdelete hnext
                    have hw₂ : w₂.Honest := hw₁.of_faults hnext
                    -- both answers with which `restore` goes on say that the route is gone
                    have hlast : Kernel.Sets w₁ w₂ .delete c.key none →
                        c.Restored w (requestPrevious w₂ c.previous .add).1
                          (requestPrevious w₂ c.previous .add).2 := fun hsets =>
                      .of_free hc hw₂ hsets.get_self
                        (fun j hj => (hsets.get_ne hj).trans (by rw [htable])) hours houtcome
                    cases result with
                    | ok _ => exact hlast (hgone (Or.inl rfl))
                    | error e =>
                        by_cases hesrch : e = .os esrch
                        · simp only [if_pos hesrch]
                          exact hlast (hgone (Or.inr (congrArg Except.error hesrch)))
                        · simp only [if_neg hesrch]
                          refine ⟨hw₂, fun j hj => ?_, fun h => (by cases h), fun h =>
                            absurd h hours⟩
                          rcases hdelete with ⟨_, hkept⟩ | hsets
                          · rw [hkept.table, htable]
                          · rw [hsets.get_ne hj, htable]
          · rw [Bool.not_eq_true] at hattempted
            rw [hattempted, Bool.not_false, if_pos rfl]
            refine ⟨hw₁, fun j _ => by rw [htable], fun _ => ?_, fun hforeign => ?_⟩
            · rw [htable, ← hfound]
              simp [outcome, hattempted]
            · rw [hforeign.1] at hattempted
              cases hattempted

namespace SessionRoutes

/-- What `restore_with` does, over any table and with any failures. -/
structure RestoredAll (changes : List RouteChange) (w : Kernel) (errors : List IoError)
    (w' : Kernel) : Prop where
  frame : ∀ j, j ∉ changes.map RouteChange.key → w'.table.get j = w.table.get j
  success : errors = [] → ∀ c ∈ changes, w'.table.get c.key = c.outcome (w.table.get c.key)
  foreign : ∀ c ∈ changes, c.Foreign (w.table.get c.key) →
    w'.table.get c.key = w.table.get c.key ∧ errors ≠ []

theorem RestoredAll.cons {c : RouteChange} {rest : List RouteChange} {w w₁ w₂ : Kernel}
    {result : Except IoError Unit} {errors errors' : List IoError}
    (hfresh : c.key ∉ rest.map RouteChange.key) (hfirst : c.Restored w result w₁)
    (hrest : RestoredAll rest w₁ errors w₂) (hok : errors' = [] → result = .ok () ∧ errors = []) :
    RestoredAll (c :: rest) w errors' w₂ := by
  have hkeep : ∀ d ∈ rest, w₁.table.get d.key = w.table.get d.key := by
    intro d hd
    exact hfirst.frame d.key fun he => hfresh (he ▸ List.mem_map_of_mem hd)
  have hself : w₂.table.get c.key = w₁.table.get c.key := hrest.frame c.key hfresh
  constructor
  · intro j hj
    rw [List.map_cons, List.mem_cons, not_or] at hj
    exact (hrest.frame j hj.2).trans (hfirst.frame j (Ne.symm hj.1))
  · intro hnone d hd
    obtain ⟨hresult, herrors⟩ := hok hnone
    rcases List.mem_cons.mp hd with rfl | hd
    · exact hself.trans (hfirst.success hresult)
    · exact (hrest.success herrors d hd).trans (by rw [hkeep d hd])
  · intro d hd hforeign
    rcases List.mem_cons.mp hd with rfl | hd
    · obtain ⟨hleft, hfail⟩ := hfirst.foreign hforeign
      exact ⟨hself.trans hleft, fun hnone => hfail (hok hnone).1⟩
    · rw [← hkeep d hd] at hforeign ⊢
      obtain ⟨hleft, hfail⟩ := hrest.foreign d hd hforeign
      exact ⟨hleft, fun hnone => hfail (hok hnone).2⟩

/-- The run lemma of `restore_with`. -/
theorem restoreAll_restoredAll {changes : List RouteChange} {w : Kernel} (hhonest : w.Honest)
    (hnodup : (changes.map RouteChange.key).Nodup) (hvalid : ∀ c ∈ changes, c.Valid) :
    RestoredAll changes w (restoreAll w changes).1 (restoreAll w changes).2 := by
  induction changes generalizing w with
  | nil =>
      exact ⟨fun _ _ => rfl, fun _ c hc => absurd hc List.not_mem_nil,
        fun c hc => absurd hc List.not_mem_nil⟩
  | cons c rest ih =>
      obtain ⟨hfresh, hrest⟩ := List.nodup_cons.mp hnodup
      have hfirst := RouteChange.restore_restored (hvalid c List.mem_cons_self) hhonest
      unfold restoreAll
      rcases hrestore : c.restore w with ⟨result, w₁⟩
      rw [hrestore] at hfirst
      have hothers := ih hfirst.honest hrest fun d hd => hvalid d (List.mem_cons_of_mem c hd)
      cases result with
      | ok _ => exact .cons hfresh hfirst hothers fun hnone => ⟨rfl, hnone⟩
      | error e => exact .cons hfresh hfirst hothers fun h => (by cases h)

/-- The same for the result that the session sees, with the changes in their order. -/
theorem restoreWith_restoredAll (strerror : Int32 → String) {routes : SessionRoutes} {w : Kernel}
    (hhonest : w.Honest) (hnodup : (routes.changes.map RouteChange.key).Nodup)
    (hvalid : ∀ c ∈ routes.changes, c.Valid) :
    ∃ errors, RestoredAll routes.changes w errors (routes.restoreWith strerror w).2.2 ∧
      ((routes.restoreWith strerror w).1 = .ok () ↔ errors = []) := by
  have hreverse : (routes.changes.reverse.map RouteChange.key).Nodup := by
    rw [List.map_reverse]
    exact List.nodup_reverse.mpr hnodup
  have hrun := restoreAll_restoredAll hhonest hreverse
    fun c hc => hvalid c (List.mem_reverse.mp hc)
  refine ⟨(restoreAll w routes.changes.reverse).1, ⟨fun j hj => hrun.frame j ?_,
    fun hnone c hc => hrun.success hnone c (List.mem_reverse.mpr hc),
    fun c hc => hrun.foreign c (List.mem_reverse.mpr hc)⟩, ?_⟩
  · rw [List.map_reverse, List.mem_reverse]
    exact hj
  · show (if (restoreAll w routes.changes.reverse).1.isEmpty then Except.ok () else _) = _ ↔ _
    cases (restoreAll w routes.changes.reverse).1 with
    | nil => exact ⟨fun _ => rfl, fun _ => rfl⟩
    | cons e errors => exact ⟨fun h => (by cases h), fun h => (by cases h)⟩

/-- Restoring a journalled table, when it reports success. -/
theorem RestoredAll.reverted {initial : Table} {routes : SessionRoutes} {w w' : Kernel}
    (h : Journalled initial routes.changes w) (hrestored : RestoredAll routes.changes w [] w')
    (k : RouteKey) :
    w'.table.get k =
      if w.displaced k then (initial.get k).bind Snapshot.normal else initial.get k := by
  by_cases hk : k ∈ routes.changes.map RouteChange.key
  · obtain ⟨c, hc, rfl⟩ := List.mem_map.mp hk
    rw [hrestored.success rfl c hc, ← h.previous c hc]
    exact (h.entry c hc).outcome_eq
  · rw [hrestored.frame k hk, h.undisplaced k hk]
    exact h.untouched k hk

theorem displace_honest {w : Kernel} (h : w.Honest) (key : RouteKey) (route : Snapshot)
    (previous : Option Snapshot) : (displace key route previous w).2.2.Honest := by
  unfold displace
  have hnext := h.of_faults (requestPrevious_faults w previous .delete)
  rcases hdelete : requestPrevious w previous .delete with ⟨result, w₁⟩
  rw [hdelete] at hnext
  have hw₁ : w₁.Honest := hnext
  cases result with
  | error e => exact hw₁
  | ok _ => exact hw₁.of_faults (w₁.request_faults route .add)

theorem add_honest {w : Kernel} (h : w.Honest) (routes : SessionRoutes) (route : Snapshot) :
    (routes.add route w).2.2.Honest := by
  unfold add
  cases route.key with
  | error e => exact h
  | ok key =>
      simp only
      split
      · exact h
      · have hnext := h.of_faults (Or.inl (w.find_faults key))
        rcases hfind : w.find key with ⟨found, w₁⟩
        rw [hfind] at hnext
        have hw₁ : w₁.Honest := hnext
        cases found with
        | error e => exact hw₁
        | ok previous =>
            simp only
            cases checkPrevious previous with
            | error e => exact hw₁
            | ok _ => exact displace_honest hw₁ key route previous

theorem addAll_honest {w : Kernel} (h : w.Honest) (routes : SessionRoutes)
    (requests : List (Except IoError Snapshot)) : (routes.addAll w requests).2.2.Honest := by
  induction requests generalizing routes w with
  | nil => exact h
  | cons request rest ih =>
      cases request with
      | error e => exact h
      | ok route =>
          unfold addAll
          have hnext := add_honest h routes route
          rcases hadd : routes.add route w with ⟨result, routes', w'⟩
          rw [hadd] at hnext
          cases result with
          | error e => exact hnext
          | ok _ => exact ih hnext routes'

/-! ### What the journal holds -/

theorem displace_route (key : RouteKey) (route : Snapshot) (previous : Option Snapshot)
    (w : Kernel) : (displace key route previous w).2.1.route = route := by
  unfold displace
  rcases requestPrevious w previous .delete with ⟨result, w₁⟩
  cases result <;> rfl

/-- `add` records nothing or a change for its route. -/
theorem add_changes (routes : SessionRoutes) (route : Snapshot) (w : Kernel) :
    (routes.add route w).2.1 = routes ∨
      ∃ c, (routes.add route w).2.1 = routes.push c ∧ c.route = route := by
  rcases add_cases routes route w with ⟨hkept, _⟩ | ⟨key, w₁, _, _, _, _, hadd⟩
  · exact Or.inl hkept
  · rw [hadd]
    exact Or.inr ⟨_, rfl, displace_route key route (w₁.table.get key) w₁⟩

/-- A change of the journal is for one of the requests. -/
theorem route_mem_addAll {requests : List (Except IoError Snapshot)} {routes : SessionRoutes}
    {w : Kernel} {c : RouteChange} (hc : c ∈ (routes.addAll w requests).2.1.changes) :
    c ∈ routes.changes ∨ .ok c.route ∈ requests := by
  induction requests generalizing routes w with
  | nil => exact Or.inl hc
  | cons request rest ih =>
      cases request with
      | error e => exact Or.inl hc
      | ok route =>
          unfold addAll at hc
          have hchanges := add_changes routes route w
          rcases hadd : routes.add route w with ⟨result, routes', w'⟩
          rw [hadd] at hc hchanges
          have hstep : c ∈ routes'.changes → c ∈ routes.changes ∨ c.route = route := by
            intro hmem
            rcases hchanges with hsame | ⟨d, hpush, hroute⟩
            · exact Or.inl (hsame ▸ hmem)
            · have hsplit : c ∈ (routes.push d).changes := hpush ▸ hmem
              rcases List.mem_append.mp hsplit with hold | hlast
              · exact Or.inl hold
              · rw [List.mem_singleton.mp hlast]
                exact Or.inr hroute
          have hhere : c ∈ routes'.changes →
              c ∈ routes.changes ∨ .ok c.route ∈ (.ok route :: rest) := by
            intro hmem
            rcases hstep hmem with hold | hroute
            · exact Or.inl hold
            · exact Or.inr (hroute ▸ List.mem_cons_self)
          cases result with
          | error e => exact hhere hc
          | ok _ =>
              rcases ih hc with hmem | hlater
              · exact hhere hmem
              · exact Or.inr (List.mem_cons_of_mem _ hlater)

theorem add_keeps_changes (routes : SessionRoutes) (route : Snapshot) (w : Kernel) :
    ∀ c ∈ routes.changes, c ∈ (routes.add route w).2.1.changes := by
  intro c hc
  rcases add_changes routes route w with hsame | ⟨d, hpush, _⟩
  · rw [hsame]
    exact hc
  · rw [hpush]
    exact List.mem_append_left _ hc

theorem addAll_keeps_changes (requests : List (Except IoError Snapshot)) (routes : SessionRoutes)
    (w : Kernel) : ∀ c ∈ routes.changes, c ∈ (routes.addAll w requests).2.1.changes := by
  intro c hc
  induction requests generalizing routes w with
  | nil => exact hc
  | cons request rest ih =>
      cases request with
      | error e => exact hc
      | ok route =>
          unfold addAll
          have hkeep := add_keeps_changes routes route w c hc
          rcases hadd : routes.add route w with ⟨result, routes', w'⟩
          rw [hadd] at hkeep
          cases result with
          | error e => exact hkeep
          | ok _ => exact ih routes' w' hkeep

/-- An `add` that ends well holds the key of its route. -/
theorem add_holds (routes : SessionRoutes) (route : Snapshot) (w : Kernel)
    (hok : (routes.add route w).1 = .ok ()) :
    ∃ c ∈ (routes.add route w).2.1.changes, route.key = .ok c.key := by
  unfold add at hok ⊢
  cases hkey : route.key with
  | error e =>
      rw [hkey] at hok
      cases hok
  | ok key =>
      rw [hkey] at hok
      simp only at hok ⊢
      by_cases hany : routes.changes.any (fun change => change.key == key) = true
      · rw [if_pos hany]
        obtain ⟨c, hc, hequal⟩ := List.any_eq_true.mp hany
        exact ⟨c, hc, congrArg Except.ok (beq_iff_eq.mp hequal).symm⟩
      · rw [if_neg hany] at hok ⊢
        rcases hfind : w.find key with ⟨found, w₁⟩
        rw [hfind] at hok
        cases found with
        | error e => cases hok
        | ok previous =>
            simp only at hok ⊢
            cases hcheck : checkPrevious previous with
            | error e =>
                rw [hcheck] at hok
                cases hok
            | ok _ =>
                refine ⟨(displace key route previous w₁).2.1,
                  List.mem_append_right _ (List.mem_singleton_self _), ?_⟩
                unfold displace
                rcases requestPrevious w₁ previous .delete with ⟨result, w₂⟩
                cases result <;> rfl

/-- An `install` that ends well holds the keys of all its requests. -/
theorem addAll_holds (requests : List (Except IoError Snapshot)) (routes : SessionRoutes)
    (w : Kernel) (hok : (routes.addAll w requests).1 = .ok ()) :
    ∀ request ∈ requests, ∃ route, request = .ok route ∧
      ∃ c ∈ (routes.addAll w requests).2.1.changes, route.key = .ok c.key := by
  induction requests generalizing routes w with
  | nil => exact fun _ h => absurd h List.not_mem_nil
  | cons first rest ih =>
      cases first with
      | error e => cases hok
      | ok route =>
          intro request hrequest
          unfold addAll at hok ⊢
          have hholds := add_holds routes route w
          rcases hadd : routes.add route w with ⟨result, routes', w'⟩
          rw [hadd] at hok hholds
          cases result with
          | error e => cases hok
          | ok _ =>
              rcases List.mem_cons.mp hrequest with rfl | hlater
              · obtain ⟨c, hc, hkey⟩ := hholds rfl
                exact ⟨route, rfl, c, addAll_keeps_changes rest routes' w' c hc, hkey⟩
              · exact ih routes' w' hok request hlater

end SessionRoutes

end Macos
end Daemon
end WgKotlin
