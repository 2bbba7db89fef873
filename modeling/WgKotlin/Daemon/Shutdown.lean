import WgKotlin.Daemon.Server

/-!
# The shutdown of the daemon

`run` first joins all connections and then waits until no name is reserved.  A
session task can outlive the connection that spawned it, but it removes at most
one name, and only at its end.  So there are at least as many names as there are
tasks that are not finished, whatever names their devices report, and an empty set
means that every task is finished.
-/

namespace WgKotlin
namespace Daemon

open Proto Library

namespace System

/-- The number of tasks that are not finished. -/
def unfinished (s : System) : Nat := s.sessions.countP fun task => !task.phase.isFinished

structure Accounted (s : System) : Prop where
  counted : s.unfinished ≤ s.active.card
  sound : ∀ (t : Nat) (task : SessionTask), s.sessions[t]? = some task →
    task.phase.Sound ∧ s.cleanups.count t = task.phase.cleanups
  fresh : ∀ t, s.sessions.length ≤ t → s.cleanups.count t = 0

theorem accounted_start : start.Accounted where
  counted := Nat.le_refl 0
  sound := fun _ _ h => by cases h
  fresh := fun _ _ => rfl

/-- No names, no tasks that are not finished. -/
theorem Accounted.isFinished {s : System} (h : s.Accounted) (hactive : s.active = ∅) :
    ∀ task ∈ s.sessions, task.phase.isFinished = true := by
  have hcount := h.counted
  rw [hactive, Finset.card_empty, Nat.le_zero, unfinished, List.countP_eq_zero] at hcount
  intro task htask
  have hnot := hcount task htask
  cases hphase : task.phase.isFinished with
  | true => rfl
  | false =>
      rw [hphase] at hnot
      exact absurd rfl hnot

theorem Accounted.quiet {s s' : System} (h : s.Accounted) (hquiet : Quiet s s') :
    s'.Accounted := by
  constructor
  · rw [unfinished, hquiet.sessions, hquiet.active]
    exact h.counted
  · rw [hquiet.sessions, hquiet.cleanups]
    exact h.sound
  · rw [hquiet.sessions, hquiet.cleanups]
    exact h.fresh

theorem Accounted.reserves {s s' : System} {name : String} (h : s.Accounted)
    (hreserves : Reserves name s s') : s'.Accounted := by
  constructor
  · have hcount := h.counted
    rw [unfinished] at hcount
    rw [unfinished, hreserves.sessions, hreserves.active,
      Finset.card_insert_of_notMem hreserves.free, List.countP_append]
    show _ + 1 ≤ _
    omega
  · intro t task ht
    rw [hreserves.sessions] at ht
    rw [hreserves.cleanups]
    rcases getElem?_spawn ht with hold | ⟨rfl, rfl⟩
    · exact h.sound t task hold
    · exact ⟨trivial, h.fresh _ (Nat.le_refl _)⟩
  · intro t ht
    rw [hreserves.sessions, List.length_append, List.length_singleton] at ht
    rw [hreserves.cleanups]
    exact h.fresh t (by omega)

theorem countP_set_of_getElem? {p : SessionTask → Bool} {sessions : List SessionTask} {t : Nat}
    {task task' : SessionTask} (ht : sessions[t]? = some task) (htask : p task = true) :
    (sessions.set t task').countP p + 1 =
      sessions.countP p + if p task' = true then 1 else 0 := by
  obtain ⟨hlt, hget⟩ := List.getElem?_eq_some_iff.mp ht
  have hpos : 0 < sessions.countP p :=
    List.countP_pos_iff.mpr ⟨task, List.mem_of_getElem? ht, htask⟩
  rw [List.countP_set hlt, hget, htask, if_pos rfl]
  omega

/-- What a step of a task does to the names and to the tasks that are not finished. -/
theorem unfinished_afterTask {s : System} {t : Nat} {task task' : SessionTask}
    {effect : TaskEffect} (ht : s.sessions[t]? = some task)
    (hlive : task.phase.isFinished = false)
    (hafter : SessionPhase.After task.name task.phase task'.phase effect)
    (hcount : s.unfinished ≤ s.active.card) :
    (s.afterTask t task' effect).unfinished ≤ (s.afterTask t task' effect).active.card := by
  have hset : (s.sessions.set t task').countP (fun task => !task.phase.isFinished) + 1 = _ :=
    countP_set_of_getElem? ht (by simp [hlive])
  rw [unfinished] at hcount
  cases effect with
  | quiet =>
      have hlive' : task'.phase.isFinished = false := hafter
      simp only [hlive', Bool.not_false, if_true] at hset
      show (s.sessions.set t task').countP _ ≤ s.active.card
      omega
  | cleanedUp =>
      have hlive' : task'.phase.isFinished = false := hafter
      simp only [hlive', Bool.not_false, if_true] at hset
      show (s.sessions.set t task').countP _ ≤ s.active.card
      omega
  | removes name =>
      have hfinished : task'.phase.isFinished = true := by
        rw [hafter.1]
        rfl
      have herase := Finset.pred_card_le_card_erase (s := s.active) (a := name)
      simp only [hfinished, Bool.not_true, Bool.false_eq_true, if_false] at hset
      show (s.sessions.set t task').countP _ ≤ (s.active.erase name).card
      omega

theorem cleanups_afterTask (s : System) (t u : Nat) (task : SessionTask) (effect : TaskEffect) :
    (s.afterTask t task effect).cleanups.count u =
      s.cleanups.count u + if t = u ∧ effect = .cleanedUp then 1 else 0 := by
  cases effect with
  | quiet => simp [afterTask]
  | cleanedUp =>
      show (s.cleanups ++ [t]).count u = _
      rw [List.count_append]
      by_cases hu : t = u
      · simp [hu]
      · simp [hu]
  | removes name => simp [afterTask]

theorem sessions_afterTask (s : System) (t : Nat) (task : SessionTask) (effect : TaskEffect) :
    (s.afterTask t task effect).sessions = s.sessions.set t task := by
  cases effect with
  | quiet => rfl
  | cleanedUp => rfl
  | removes name => rfl

theorem Accounted.afterTask {s : System} {t : Nat} {event : SessionEvent}
    {task task' : SessionTask} {effect : TaskEffect} (h : s.Accounted)
    (ht : s.sessions[t]? = some task)
    (hsteps : SessionPhase.Steps task.name event task.phase task'.phase effect) :
    (s.afterTask t task' effect).Accounted := by
  have hlt : t < s.sessions.length := (List.getElem?_eq_some_iff.mp ht).1
  obtain ⟨hlive, hafter⟩ := hsteps.after
  constructor
  · exact unfinished_afterTask ht hlive hafter h.counted
  · intro u task'' hu
    rw [sessions_afterTask] at hu
    rw [cleanups_afterTask]
    by_cases htu : t = u
    · subst htu
      rw [List.getElem?_set_self hlt, Option.some.injEq] at hu
      subst hu
      obtain ⟨hsound, hcleanups⟩ := h.sound t task ht
      obtain ⟨hsound', hcleanups'⟩ := hsteps.sound hsound
      refine ⟨hsound', ?_⟩
      rw [hcleanups', hcleanups]
      simp
    · rw [List.getElem?_set_ne htu] at hu
      simp only [htu, false_and, if_false]
      exact h.sound u task'' hu
  · intro u hu
    rw [sessions_afterTask, List.length_set] at hu
    have htu : t ≠ u := by omega
    rw [cleanups_afterTask]
    simp only [htu, false_and, if_false]
    exact h.fresh u hu

theorem accounted_step {macos : Bool} {s s' : System} {l : Label} (h : s.Accounted)
    (hstep : s.step macos l = some s') : s'.Accounted := by
  rcases step_cases hstep with
    hquiet | ⟨name, hreserves⟩ | ⟨t, event, task, task', effect, rfl, ht, htask, rfl⟩
  · exact h.quiet hquiet
  · exact h.reserves hreserves
  · exact h.afterTask ht (SessionTask.step_cases htask).2

/-! ### Where `run` is -/

/-- `run` waits for the sessions when all connections are joined, and is done when no
name is reserved. -/
structure Staged (s : System) : Prop where
  accounted : s.Accounted
  joined : s.main = .waiting ∨ s.main = .stopped true → ∀ c ∈ s.connections, c = .joined
  drained : s.main = .stopped true → s.active = ∅

theorem staged_start : start.Staged where
  accounted := accounted_start
  joined := fun _ _ h => by cases h
  drained := fun h => by cases h

/-- A connection that is joined takes no step. -/
theorem step_connection_joined {macos : Bool} {s : System} {c : Nat} {event : ConnectionEvent}
    (h : ∀ connection ∈ s.connections, connection = .joined) :
    s.step macos (.connection c event) = none := by
  simp only [step]
  cases hc : s.connections[c]? with
  | none => rfl
  | some connection =>
      rw [h connection (List.mem_of_getElem? hc)]
      rfl

/-- A task that is finished takes no step. -/
theorem step_session_finished {macos : Bool} {s : System} {t : Nat} {event : SessionEvent}
    (h : ∀ task ∈ s.sessions, task.phase.isFinished = true) :
    s.step macos (.session t event) = none := by
  simp only [step]
  cases ht : s.sessions[t]? with
  | none => rfl
  | some task =>
      cases htask : task.step s.shutdown event with
      | none => simp only [htask]
      | some result =>
          obtain ⟨task', effect⟩ := result
          have hlive := (SessionTask.step_cases htask).2.after.1
          rw [h task (List.mem_of_getElem? ht)] at hlive
          cases hlive

/-- Once the drain has succeeded, no task is left that could do anything. -/
theorem Staged.stuck {macos : Bool} {s : System} (h : s.Staged) (hmain : s.main = .stopped true)
    (l : Label) : s.step macos l = none := by
  have hjoined := h.joined (Or.inr hmain)
  have hfinished := h.accounted.isFinished (h.drained hmain)
  cases l with
  | connection c event => exact step_connection_joined hjoined
  | session t event => exact step_session_finished hfinished
  | _ => simp [step, hmain]

theorem main_afterTask (s : System) (t : Nat) (task : SessionTask) (effect : TaskEffect) :
    (s.afterTask t task effect).main = s.main ∧
      (s.afterTask t task effect).connections = s.connections := by
  cases effect with
  | quiet => exact ⟨rfl, rfl⟩
  | cleanedUp => exact ⟨rfl, rfl⟩
  | removes name => exact ⟨rfl, rfl⟩

/-- The stages of `run`: it does not wait yet, it waits and all connections are
joined, or it is done and no name is reserved. -/
theorem stage_cases {macos : Bool} {s s' : System} {l : Label} (h : s.Staged)
    (hstep : s.step macos l = some s') :
    (s'.main ≠ .waiting ∧ s'.main ≠ .stopped true) ∨
      (∀ c ∈ s'.connections, c = .joined) ∧
        (s'.main = .waiting ∨ s'.main = .stopped true ∧ s'.active = ∅) := by
  have hrunning : s.main ≠ .stopped true := by
    intro hmain
    rw [h.stuck hmain] at hstep
    cases hstep
  cases step_moves hstep with
  | joinedAll _ hjoined => exact Or.inr ⟨hjoined, Or.inl rfl⟩
  | observe hmain hactive => exact Or.inr ⟨h.joined (Or.inl hmain), Or.inr ⟨rfl, hactive⟩⟩
  | accept hmain => exact Or.inl (by simp [hmain])
  | refuse hmain => exact Or.inl (by simp [hmain])
  | stop _ => exact Or.inl (by simp)
  | timeout _ => exact Or.inl (by simp)
  | join hmain _ =>
      refine Or.inl ?_
      rcases hmain with hmain | hmain
      · simp [setConnection, hmain]
      · simp [setConnection, hmain]
  | connection _ hconnection =>
      have hwaiting : s.main ≠ .waiting := by
        intro hmain
        rw [step_connection_joined (h.joined (Or.inl hmain))] at hstep
        cases hstep
      rw [(stepConnection_cases hconnection).1]
      exact Or.inl ⟨hwaiting, hrunning⟩
  | @session t _ _ task' effect _ _ =>
      obtain ⟨hmain, hconnections⟩ := main_afterTask s t task' effect
      rw [hmain, hconnections]
      by_cases hwaiting : s.main = .waiting
      · exact Or.inr ⟨h.joined (Or.inl hwaiting), Or.inl hwaiting⟩
      · exact Or.inl ⟨hwaiting, hrunning⟩

theorem staged_step {macos : Bool} {s s' : System} {l : Label} (h : s.Staged)
    (hstep : s.step macos l = some s') : s'.Staged := by
  have haccounted := accounted_step h.accounted hstep
  rcases stage_cases h hstep with ⟨hwaiting, hstopped⟩ | ⟨hjoined, hmain⟩
  · refine ⟨haccounted, fun hmain => ?_, fun hmain => absurd hmain hstopped⟩
    rcases hmain with hmain | hmain
    · exact absurd hmain hwaiting
    · exact absurd hmain hstopped
  · refine ⟨haccounted, fun _ => hjoined, fun hstopped => ?_⟩
    rcases hmain with hwaiting | ⟨_, hactive⟩
    · rw [hwaiting] at hstopped
      cases hstopped
    · exact hactive

/-! ### The drain -/

/-- The TUN of the task has been started. -/
def Started (t : Nat) (s : System) : Prop :=
  ∃ task, s.sessions[t]? = some task ∧ task.phase.tun.isSome = true

theorem started_step {macos : Bool} {s s' : System} {l : Label} {t : Nat} (h : Started t s)
    (hstep : s.step macos l = some s') : Started t s' := by
  obtain ⟨task, ht, htun⟩ := h
  have hlt : t < s.sessions.length := (List.getElem?_eq_some_iff.mp ht).1
  rcases step_cases hstep with
    hquiet | ⟨name, hreserves⟩ | ⟨u, event, other, other', effect, rfl, hu, hother, rfl⟩
  · exact ⟨task, by rw [hquiet.sessions]; exact ht, htun⟩
  · refine ⟨task, ?_, htun⟩
    rw [hreserves.sessions, List.getElem?_append_left hlt]
    exact ht
  · unfold Started
    rw [sessions_afterTask]
    by_cases hut : u = t
    · subst hut
      rw [hu, Option.some.injEq] at ht
      subst ht
      exact ⟨other', List.getElem?_set_self hlt, (SessionTask.step_cases hother).2.tun_isSome htun⟩
    · exact ⟨task, by rw [List.getElem?_set_ne hut]; exact ht, htun⟩

/-- When `run` finds the sessions drained, every TUN that was started at any point of
the run is closed and its cleanup hook has been run once, no name is reserved, every
connection is joined and every task finished, and nothing can happen any more. -/
theorem drained_sound (macos : Bool) {labels : List Label} {s : System}
    (hrun : run (step macos) start labels = some s) (hdrained : s.main = .stopped true) :
    (∀ front back s₀, labels = front ++ back → run (step macos) start front = some s₀ →
      ∀ t, Started t s₀ → s.cleanups.count t = 1 ∧
        ∃ task tun, s.sessions[t]? = some task ∧ task.phase = .finished (some tun) ∧
          tun.closed = true ∧ tun.cleanupHook = false) ∧
      s.active = ∅ ∧ (∀ connection ∈ s.connections, connection = .joined) ∧
      (∀ task ∈ s.sessions, task.phase.isFinished = true) ∧ ∀ l, s.step macos l = none := by
  have h : s.Staged := reachable_invariant staged_start
    (fun s l s' hs hstep => staged_step hs hstep) ⟨labels, hrun⟩
  have hfinished := h.accounted.isFinished (h.drained hdrained)
  refine ⟨?_, h.drained hdrained, h.joined (Or.inr hdrained), hfinished, h.stuck hdrained⟩
  intro front back s₀ hsplit hfront t hstarted
  rw [hsplit] at hrun
  obtain ⟨mid, hmid, hback⟩ := run_append.mp hrun
  rw [hfront, Option.some.injEq] at hmid
  subst hmid
  obtain ⟨task, ht, htun⟩ := run_invariant (P := fun _ => True) (I := Started t)
    (fun s l s' _ hs hstep => started_step hs hstep) (fun _ _ => trivial) hstarted hback
  obtain ⟨hsound, hcleanups⟩ := h.accounted.sound t task ht
  have hlast := hfinished task (List.mem_of_getElem? ht)
  -- A finished task with a TUN is one that has closed it.
  cases hphase : task.phase with
  | finished tun =>
      rw [hphase] at htun hsound hcleanups
      cases tun with
      | none => cases htun
      | some tun => exact ⟨hcleanups, task, tun, ht, hphase, hsound⟩
  | _ =>
      rw [hphase] at hlast
      cases hlast

/-- A session runs, the daemon is stopped, and the drain succeeds. -/
def stopped : List Label :=
  opens 0 ++
    [.session 0 (.begin false), .session 0 (.started (.ok "utun7")), .session 0 .announced,
    .stop, .connection 0 .leave, .join 0, .joinedAll,
    .session 0 (.turn .responsesClosed), .session 0 (.closed (.ok ())),
    .session 0 (.readerEnded none), .session 0 .readerJoined, .session 0 .release, .observe]

theorem drained_sound_stopped :
    ∃ s, run (step true) start stopped = some s ∧ s.main = .stopped true ∧
      s.cleanups.count 0 = 1 ∧ s.active = ∅ ∧ ∀ l, s.step true l = none := by
  have hmain : (run (step true) start stopped).map (fun s => s.main) = some (.stopped true) := by
    decide +kernel
  obtain ⟨s, hrun, hdrained⟩ := Option.map_eq_some_iff.mp hmain
  obtain ⟨hclosed, hactive, _, _, hstuck⟩ := drained_sound true hrun hdrained
  -- The TUN is there from the seventh step on.
  have hearly : (run (step true) start (stopped.take 7)).map
      (fun s => s.sessions.map fun task => task.phase.tun.isSome) = some [true] := by
    decide +kernel
  obtain ⟨s₀, hfront, hsessions⟩ := Option.map_eq_some_iff.mp hearly
  have hstarted : Started 0 s₀ := by
    obtain ⟨task, rest, hcons, htun, _⟩ := List.map_eq_cons_iff.mp hsessions
    exact ⟨task, by rw [hcons]; rfl, htun⟩
  have hcount := hclosed (stopped.take 7) (stopped.drop 7) s₀
    (List.take_append_drop 7 stopped).symm hfront 0 hstarted
  exact ⟨s, hrun, hdrained, hcount.1, hactive, hstuck⟩

end System

end Daemon
end WgKotlin
