import WgKotlin.Daemon.Server
import WgKotlin.Library.Holders

/-!
# Reservations of interface names

As long as each device has the name it was asked for, `active_sessions` holds
exactly the names of the tasks that are not finished, each held by one task.  So
two sessions never work on one interface at a time.
-/

namespace WgKotlin
namespace Daemon

open Proto Library

/-- The name that a task holds. -/
def SessionTask.held (task : SessionTask) : Option String :=
  if task.phase.isFinished then none else some task.name

def heldBy (sessions : List SessionTask) (t : Nat) : Option String :=
  sessions[t]?.bind SessionTask.held

theorem heldBy_append (sessions : List SessionTask) (name : String) :
    heldBy (sessions ++ [SessionTask.spawn name]) =
      Function.update (heldBy sessions) sessions.length (some name) := by
  funext t
  by_cases ht : t = sessions.length
  · rw [ht, Function.update_self, heldBy, List.getElem?_concat_length]
    rfl
  · rw [Function.update_of_ne ht, heldBy, heldBy]
    by_cases hlt : t < sessions.length
    · rw [List.getElem?_append_left hlt]
    · have hlen : (sessions ++ [SessionTask.spawn name]).length ≤ t := by
        rw [List.length_append, List.length_singleton]
        omega
      rw [List.getElem?_eq_none hlen, List.getElem?_eq_none (by omega)]

theorem heldBy_set {sessions : List SessionTask} {t : Nat} {task task' : SessionTask}
    (ht : sessions[t]? = some task) :
    heldBy (sessions.set t task') = Function.update (heldBy sessions) t task'.held := by
  have hlt : t < sessions.length := (List.getElem?_eq_some_iff.mp ht).1
  funext u
  by_cases hu : u = t
  · rw [hu, Function.update_self, heldBy, List.getElem?_set_self hlt]
    rfl
  · rw [Function.update_of_ne hu, heldBy, heldBy, List.getElem?_set_ne (Ne.symm hu)]

/-- The removals that a task has made. -/
def System.removalsOf (s : System) (t : Nat) : List (Nat × String × Bool) :=
  s.removals.filter fun removal => removal.1 = t

/-- One removal by each task that is finished, of its own name, which was there. -/
def expectedRemovals (t : Nat) (task : Option SessionTask) : List (Nat × String × Bool) :=
  match task with
  | some task => if task.phase.isFinished then [(t, task.name, true)] else []
  | none => []

/-- The device of a session has the name that it was asked for. -/
def System.ReportsName (s : System) : Label → Prop
  | .session t (.started (.ok device)) => ∀ task ∈ s.sessions[t]?, device = task.name
  | _ => True

instance (s : System) : ∀ l, Decidable (s.ReportsName l)
  | .session t (.started (.ok device)) =>
    inferInstanceAs (Decidable (∀ task ∈ s.sessions[t]?, device = task.name))
  | .session _ (.started (.error _)) => isTrue trivial
  | .session _ (.begin _) | .session _ .announced | .session _ (.readerEnded _) => isTrue trivial
  | .session _ (.turn _) | .session _ (.closed _) | .session _ .readerJoined => isTrue trivial
  | .session _ .release | .connection _ _ | .accept _ | .stop | .join _ => isTrue trivial
  | .joinedAll | .observe | .timeout => isTrue trivial

structure System.Reserved (s : System) : Prop where
  bounded : s.active.card ≤ maxActiveSessions
  holds : Holds (heldBy s.sessions) s.active
  removals : ∀ t, s.removalsOf t = expectedRemovals t s.sessions[t]?
  named : ∀ (t : Nat) (task : SessionTask) (tun : TunSession), s.sessions[t]? = some task →
    task.phase.tun = some tun → tun.interfaceName = task.name

namespace System

theorem reserved_start : start.Reserved where
  bounded := Nat.zero_le _
  holds := ⟨fun a => ⟨fun h => absurd h (Finset.notMem_empty a), fun ⟨_, h⟩ => (by cases h)⟩,
    fun _ _ _ h => (by cases h)⟩
  removals := fun _ => rfl
  named := fun _ _ _ h => by cases h

theorem Reserved.quiet {s s' : System} (h : s.Reserved) (hquiet : Quiet s s') : s'.Reserved := by
  have hremovals : ∀ t, s'.removalsOf t = s.removalsOf t := by
    intro t
    rw [removalsOf, removalsOf, hquiet.removals]
  constructor
  · rw [hquiet.active]
    exact h.bounded
  · rw [hquiet.active, hquiet.sessions]
    exact h.holds
  · intro t
    rw [hremovals, hquiet.sessions]
    exact h.removals t
  · rw [hquiet.sessions]
    exact h.named

theorem Reserved.reserves {s s' : System} {name : String} (h : s.Reserved)
    (hreserves : Reserves name s s') : s'.Reserved := by
  have hremovals : ∀ t, s'.removalsOf t = s.removalsOf t := by
    intro t
    rw [removalsOf, removalsOf, hreserves.removals]
  have hfresh : heldBy s.sessions s.sessions.length = none := by
    rw [heldBy, List.getElem?_eq_none (Nat.le_refl _)]
    rfl
  constructor
  · rw [hreserves.active, Finset.card_insert_of_notMem hreserves.free]
    exact hreserves.room
  · rw [hreserves.active, hreserves.sessions, heldBy_append]
    exact h.holds.reserve hfresh hreserves.free
  · intro t
    rw [hremovals, h.removals, hreserves.sessions]
    cases hget : (s.sessions ++ [SessionTask.spawn name])[t]? with
    | none =>
        rw [List.getElem?_eq_none]
        have hlen := List.getElem?_eq_none_iff.mp hget
        rw [List.length_append] at hlen
        omega
    | some task =>
        rcases getElem?_spawn hget with hold | ⟨rfl, rfl⟩
        · rw [hold]
        · rw [List.getElem?_eq_none (Nat.le_refl _)]
          rfl
  · intro t task tun ht htun
    rw [hreserves.sessions] at ht
    rcases getElem?_spawn ht with hold | ⟨rfl, rfl⟩
    · exact h.named t task tun hold htun
    · cases htun

/-- The name that a task gives up is the one it holds. -/
theorem Reserved.released {s : System} {t : Nat} {task : SessionTask} (h : s.Reserved)
    (ht : s.sessions[t]? = some task) : task.phase.released task.name = task.name := by
  unfold SessionPhase.released
  split
  next tun htun => exact h.named t task tun ht htun
  · rfl

theorem Reserved.held {s : System} {t : Nat} {task : SessionTask} (h : s.Reserved)
    (ht : s.sessions[t]? = some task) (hlive : task.phase.isFinished = false) :
    heldBy s.sessions t = some task.name ∧ task.name ∈ s.active := by
  have hheld : heldBy s.sessions t = some task.name := by
    rw [heldBy, ht]
    show task.held = _
    rw [SessionTask.held, hlive]
    rfl
  exact ⟨hheld, h.holds.mem hheld⟩

/-- A step of a task that is not its last. -/
theorem Reserved.moves {s s' : System} {t : Nat} {task task' : SessionTask} (h : s.Reserved)
    (ht : s.sessions[t]? = some task) (hlive : task.phase.isFinished = false)
    (hlive' : task'.phase.isFinished = false) (hname : task'.name = task.name)
    (htun : ∀ tun, task'.phase.tun = some tun → tun.interfaceName = task'.name)
    (hactive : s'.active = s.active) (hsessions : s'.sessions = s.sessions.set t task')
    (hlog : s'.removals = s.removals) : s'.Reserved := by
  have hlt : t < s.sessions.length := (List.getElem?_eq_some_iff.mp ht).1
  have hremovals : ∀ u, s'.removalsOf u = s.removalsOf u := by
    intro u
    rw [removalsOf, removalsOf, hlog]
  constructor
  · rw [hactive]
    exact h.bounded
  · have hheld : task'.held = heldBy s.sessions t := by
      rw [(h.held ht hlive).1, SessionTask.held, hlive', hname]
      rfl
    rw [hactive, hsessions, heldBy_set ht, hheld, Function.update_eq_self]
    exact h.holds
  · intro u
    rw [hremovals, h.removals, hsessions]
    by_cases hu : t = u
    · subst hu
      rw [List.getElem?_set_self hlt, ht]
      simp only [expectedRemovals, hlive, hlive']
      rfl
    · rw [List.getElem?_set_ne hu]
  · intro u task'' tun hu htun''
    rw [hsessions] at hu
    by_cases htu : t = u
    · subst htu
      rw [List.getElem?_set_self hlt, Option.some.injEq] at hu
      subst hu
      exact htun tun htun''
    · rw [List.getElem?_set_ne htu] at hu
      exact h.named u task'' tun hu htun''

/-- The last step of a task. -/
theorem Reserved.removes {s : System} {t : Nat} {task task' : SessionTask} (h : s.Reserved)
    (ht : s.sessions[t]? = some task) (hlive : task.phase.isFinished = false)
    (hphase : task'.phase = .finished task.phase.tun) (hname : task'.name = task.name) :
    (s.afterTask t task' (.removes task.name)).Reserved := by
  have hlt : t < s.sessions.length := (List.getElem?_eq_some_iff.mp ht).1
  obtain ⟨hheld, hmem⟩ := h.held ht hlive
  have hfinished : task'.phase.isFinished = true := by rw [hphase]; rfl
  constructor
  · show (s.active.erase task.name).card ≤ _
    exact Nat.le_trans (Finset.card_le_card (Finset.erase_subset _ _)) h.bounded
  · show Holds (heldBy (s.sessions.set t task')) (s.active.erase task.name)
    have hnone : task'.held = none := by rw [SessionTask.held, hfinished]; rfl
    rw [heldBy_set ht, hnone]
    exact h.holds.release hheld
  · intro u
    have hlog : (s.afterTask t task' (.removes task.name)).removalsOf u =
        s.removalsOf u ++ if t = u then [(t, task.name, true)] else [] := by
      show (s.removals ++ [(t, task.name, decide (task.name ∈ s.active))]).filter _ = _
      rw [List.filter_append, decide_eq_true hmem]
      by_cases hu : t = u
      · simp [removalsOf, hu]
      · simp [removalsOf, hu]
    rw [hlog, h.removals]
    show _ = expectedRemovals u (s.sessions.set t task')[u]?
    by_cases hu : t = u
    · subst hu
      rw [List.getElem?_set_self hlt, ht, if_pos rfl]
      simp only [expectedRemovals, hlive, hfinished, hname]
      rfl
    · rw [List.getElem?_set_ne hu, if_neg hu, List.append_nil]
  · intro u task'' tun hu htun
    have hu' : (s.sessions.set t task')[u]? = some task'' := hu
    by_cases htu : t = u
    · subst htu
      rw [List.getElem?_set_self hlt, Option.some.injEq] at hu'
      subst hu'
      rw [hphase] at htun
      rw [hname]
      exact h.named t task tun ht htun
    · rw [List.getElem?_set_ne htu] at hu'
      exact h.named u task'' tun hu' htun

theorem reserved_step {macos : Bool} {s s' : System} {l : Label} (hnames : s.ReportsName l)
    (h : s.Reserved) (hstep : s.step macos l = some s') : s'.Reserved := by
  rcases step_cases hstep with
    hquiet | ⟨name, hreserves⟩ | ⟨t, event, task, task', effect, rfl, ht, htask, rfl⟩
  · exact h.quiet hquiet
  · exact h.reserves hreserves
  · obtain ⟨hname, hsteps⟩ := SessionTask.step_cases htask
    obtain ⟨hlive, hafter⟩ := hsteps.after
    have htun : ∀ tun, task'.phase.tun = some tun → tun.interfaceName = task'.name := by
      intro tun htun
      rw [hname]
      rcases hsteps.interfaceName htun with ⟨tun₀, htun₀, heq⟩ | hevent
      · rw [heq]
        exact h.named t task tun₀ ht htun₀
      · rw [hevent] at hnames
        exact hnames task ht
    cases effect with
    | quiet => exact h.moves ht hlive hafter hname htun rfl rfl rfl
    | cleanedUp => exact h.moves ht hlive hafter hname htun rfl rfl rfl
    | removes removed =>
        obtain ⟨hphase, hremoved⟩ := hafter
        rw [h.released ht] at hremoved
        rw [hremoved]
        exact h.removes ht hlive hphase hname

/-- In every state that is reached, if each device has the name it was asked for: at
most 16 names are reserved; a task has its name reserved until it is finished, and
no other unfinished task has that name; each finished task has made one removal, of
its own name, and that name was there; and when all tasks are finished no name is
reserved. -/
theorem reservations_exclusive (macos : Bool) {labels : List Label} {s : System}
    (hnames : Along (step macos) ReportsName start labels)
    (hrun : run (step macos) start labels = some s) :
    s.active.card ≤ maxActiveSessions ∧
      (∀ (t : Nat) (task : SessionTask), s.sessions[t]? = some task →
        task.phase.isFinished = false → task.name ∈ s.active) ∧
      (∀ (t u : Nat) (task other : SessionTask), s.sessions[t]? = some task →
        s.sessions[u]? = some other → task.phase.isFinished = false →
        other.phase.isFinished = false → task.name = other.name → t = u) ∧
      (∀ (t : Nat) (task : SessionTask), s.sessions[t]? = some task →
        s.removalsOf t = if task.phase.isFinished then [(t, task.name, true)] else []) ∧
      ((∀ task ∈ s.sessions, task.phase.isFinished = true) → s.active = ∅) := by
  have h : s.Reserved := along_invariant (P := fun _ => True) (I := Reserved)
    (fun s l s' _ hl hs hstep => reserved_step hl hs hstep) (fun _ _ => trivial) reserved_start
    hnames hrun
  refine ⟨h.bounded, ?_, ?_, ?_, ?_⟩
  · intro t task ht hlive
    exact (h.held ht hlive).2
  · intro t u task other ht hu hlive hlive' hname
    have hother := (h.held hu hlive').1
    rw [← hname] at hother
    exact h.holds.unique t u task.name (h.held ht hlive).1 hother
  · intro t task ht
    rw [h.removals, ht]
    rfl
  · intro hall
    apply h.holds.eq_empty
    intro t
    unfold heldBy
    cases ht : s.sessions[t]? with
    | none => rfl
    | some task =>
        show task.held = none
        rw [SessionTask.held, hall task (List.mem_of_getElem? ht)]
        rfl

/-- Two connections ask for one interface.  The second one is refused while the first
session runs, and the first session is then closed although its cleanup fails. -/
def contended : List Label :=
  opens 0 ++ [.session 0 (.begin false), .session 0 (.started (.ok "utun7"))] ++ opens 1 ++
    [.session 0 .announced, .session 0 (.turn .responsesClosed),
      .session 0 (.closed (.error "route changed outside its session; leaving it untouched")),
      .session 0 (.readerEnded none), .session 0 .readerJoined, .session 0 .release]

theorem reservations_exclusive_contended :
    ∃ s, run (step true) start contended = some s ∧
      s.connections[1]? = some (.responding (.error
        { code := .failedPrecondition, message := "Session already active for utun7" })) ∧
      s.removalsOf 0 = [(0, "utun7", true)] ∧ s.active = ∅ := by
  have hnames : Along (step true) ReportsName start contended := by decide +kernel
  have hend : (run (step true) start contended).map (fun s => (s.connections[1]?, s.sessions)) =
      some (some (.responding (.error
        { code := .failedPrecondition, message := "Session already active for utun7" })),
        [{ name := "utun7"
           phase := .finished (some
             { interfaceName := "utun7", closed := true, cleanupHook := false })
           reports := [{
             code := .internal
             message := "failed closing TUN session: " ++
               "route changed outside its session; leaving it untouched" }] }]) := by
    decide +kernel
  obtain ⟨s, hrun, hs⟩ := Option.map_eq_some_iff.mp hend
  rw [Prod.mk.injEq] at hs
  obtain ⟨hconnection, hsessions⟩ := hs
  obtain ⟨_, _, _, hremovals, hempty⟩ := reservations_exclusive true hnames hrun
  refine ⟨s, hrun, hconnection, ?_, hempty ?_⟩
  · rw [hremovals 0 _ (by rw [hsessions]; rfl)]
    rfl
  · intro task htask
    rw [hsessions, List.mem_singleton] at htask
    rw [htask]
    rfl

end System

end Daemon
end WgKotlin
