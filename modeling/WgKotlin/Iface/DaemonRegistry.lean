import WgKotlin.Iface.DaemonProcess

/-!
# The daemon in use

A daemon that runs and is in use stays in use until it exits: nothing replaces or
removes the reference to it, whichever calls are made meanwhile.  What `requireDaemon`
returns is that daemon, and a call of `stop` or `kill` that returns has seen the
process exit and has removed the reference.
-/

namespace WgKotlin
namespace Iface

open Library

/-! ### Kinds of points -/

inductive CallKind
  | launch
  | user
  | require
  deriving DecidableEq, Repr

namespace Point

def kind : Point → CallKind
  | bootstrap | connect | destroy | awaitDestroyed | launchThrew | registerGet | registerCheck _
  | registerSet _ | launched => .launch
  | requireGet | requireCheck _ | required _ => .require
  | _ => .user

/-- The thread has seen that the process has exited. -/
def hasSeenExit : Point → Bool
  | unregisterExited | stopUnregister _ | killUnregister _ _ | stopFinally (.ok _)
  | killFinally _ (.ok _) | returned (.ok _) => true
  | _ => false

/-- Nothing follows from the thread being here. -/
def isPlain : Point → Bool
  | registerCheck _ | registerSet _ | launched | requireCheck _ | required (.ok _) => false
  | point => !point.hasSeenExit

end Point

namespace Daemons

theorem kind_afterKill (killer : Killer) (result : Except Throwable Unit) :
    (afterKill killer result).kind = .user := by
  cases killer with
  | stopTry => cases result <;> rfl
  | _ => rfl

theorem afterKill_ne {killer : Killer} {result : Except Throwable Unit} {point : Point}
    (h : point.kind ≠ .user) : afterKill killer result ≠ point := by
  rintro rfl
  exact h (kind_afterKill killer result)

/-- What a step of a thread can be. -/
inductive Turn (s : Daemons) (daemon : Nat) (point : Point) : Option Nat → Point → Prop
  | plain {point' : Point} (hkind : point'.kind = point.kind) (hplain : point'.isPlain = true) :
      Turn s daemon point s.running point'
  | looks (hpoint : point = .registerGet) :
      Turn s daemon point s.running (.registerCheck s.running)
  | finds {current : Option Nat} (hpoint : point = .registerCheck current)
      (hlive : s.isLive current = true) : Turn s daemon point s.running .launched
  | misses {current : Option Nat} (hpoint : point = .registerCheck current)
      (hlive : s.isLive current = false) : Turn s daemon point s.running (.registerSet current)
  | sets (hpoint : point = .registerSet s.running) : Turn s daemon point (some daemon) .launched
  | seesExit {point' : Point} (hkind : point.kind = .user) (hkind' : point'.kind = .user)
      (hreturned : ∀ result, point' ≠ .returned result) (hexited : daemon ∈ s.exited) :
      Turn s daemon point s.running point'
  | killed {killer : Killer} {result : Except Throwable Unit}
      (hpoint : point = .killFinally killer result) (halive : daemon ∉ s.exited) :
      Turn s daemon point s.running (afterKill killer result)
  | killUnregisters {killer : Killer} {result : Except Throwable Unit}
      (hpoint : point = .killUnregister killer result) :
      Turn s daemon point (s.unregistered daemon) (afterKill killer result)
  | stopped {result : Except Throwable Unit} (hpoint : point = .stopFinally result)
      (halive : daemon ∉ s.exited) : Turn s daemon point s.running (.returned result)
  | stopUnregisters {result : Except Throwable Unit}
      (hpoint : point = .stopUnregister result ∨ point = .unregisterExited ∧ result = .ok ()) :
      Turn s daemon point (s.unregistered daemon) (.returned result)
  | requireLooks (hpoint : point = .requireGet) :
      Turn s daemon point s.running (.requireCheck s.running)
  | requires {current : Nat} (hpoint : point = .requireCheck (some current))
      (halive : current ∉ s.exited) : Turn s daemon point s.running (.required (.ok current))

section Turns

variable {s : Daemons} {daemon : Nat} {answer : Answer} {point point' : Point}
  {running : Option Nat}

theorem isAlive_eq_true : s.isAlive daemon = true ↔ daemon ∉ s.exited := decide_eq_true_iff

theorem mem_exited (h : ¬ s.isAlive daemon = true) : daemon ∈ s.exited := by
  simpa [isAlive] using h

theorem waitFor_exited (h : s.waitFor daemon answer = some (.ok true)) : daemon ∈ s.exited := by
  unfold waitFor at h
  split at h
  · split at h
    · cases h
    next hdead => exact mem_exited hdead
  all_goals cases h

theorem stepLaunch_turn (h : s.stepLaunch daemon answer point = some (running, point')) :
    Turn s daemon point running point' := by
  unfold stepLaunch at h
  split at h
  · split at h
    · cases h
      split <;> exact .plain rfl rfl
    · cases h
      exact .plain rfl rfl
    · cases h
  · split at h
    · split at h
      · cases h
        exact .plain rfl rfl
      · cases h
    all_goals
      cases h
      exact .plain rfl rfl
  · split at h
    · cases h
      exact .plain rfl rfl
    · cases h
      exact .plain rfl rfl
    · cases h
  · split at h
    · cases h
    · cases h
      exact .plain rfl rfl
  · cases h
    exact .looks rfl
  · cases h
    split
    next hlive => exact .finds rfl hlive
    next hlive => exact .misses rfl (eq_false_of_ne_true hlive)
  · split at h
    next hrunning =>
      cases h
      subst hrunning
      exact .sets rfl
    next =>
      cases h
      exact .plain rfl rfl
  · cases h

theorem stepKill_turn (h : s.stepKill daemon answer point = some (running, point')) :
    Turn s daemon point running point' := by
  unfold stepKill at h
  split at h
  · cases h
    split <;> exact .plain rfl rfl
  · split at h
    · cases h
      exact .plain rfl rfl
    · cases h
      exact .plain rfl rfl
    · cases h
  · split at h
    · cases h
    next hwait =>
      cases h
      exact .seesExit rfl rfl (fun _ h => by cases h) (waitFor_exited hwait)
    · cases h
      exact .plain rfl rfl
    · cases h
      exact .plain rfl rfl
  · cases h
    split
    next halive => exact .killed rfl (isAlive_eq_true.mp halive)
    next hdead => exact .seesExit rfl rfl (fun _ h => by cases h) (mem_exited hdead)
  · cases h
    exact .killUnregisters rfl
  · cases h

theorem stepStop_turn (h : s.stepStop daemon answer point = some (running, point')) :
    Turn s daemon point running point' := by
  unfold stepStop at h
  split at h
  · cases h
    split
    · split <;> exact .plain rfl rfl
    next hdead => exact .seesExit rfl rfl (fun _ h => by cases h) (mem_exited hdead)
  · cases h
    exact .stopUnregisters (Or.inr ⟨rfl, rfl⟩)
  · split at h
    · cases h
      exact .plain rfl rfl
    · cases h
      exact .plain rfl rfl
    · cases h
      exact .plain rfl rfl
    · cases h
  · split at h
    · cases h
    next hwait =>
      cases h
      exact .seesExit rfl rfl (fun _ h => by cases h) (waitFor_exited hwait)
    · cases h
      exact .plain rfl rfl
    · cases h
      exact .plain rfl rfl
  · cases h
    split
    · exact .plain rfl rfl
    next hdead => exact .seesExit rfl rfl (fun _ h => by cases h) (mem_exited hdead)
  · cases h
    split <;> exact .plain rfl rfl
  · cases h
    split
    next halive => exact .stopped rfl (isAlive_eq_true.mp halive)
    next hdead => exact .seesExit rfl rfl (fun _ h => by cases h) (mem_exited hdead)
  · cases h
    exact .stopUnregisters (Or.inl rfl)
  · cases h

theorem stepRequire_turn (h : s.stepRequire point = some (running, point')) :
    Turn s daemon point running point' := by
  unfold stepRequire at h
  split at h
  · cases h
    exact .requireLooks rfl
  · split at h
    · cases h
      split
      next halive => exact .requires rfl (isAlive_eq_true.mp halive)
      next => exact .plain rfl rfl
    · cases h
      exact .plain rfl rfl
  · cases h

theorem stepThread_turn {thread : CallThread}
    (h : s.stepThread thread answer = some (running, point')) :
    Turn s thread.daemon thread.point running point' := by
  rcases Option.or_eq_some_iff.mp h with h | ⟨_, h⟩
  · exact stepLaunch_turn h
  rcases Option.or_eq_some_iff.mp h with h | ⟨_, h⟩
  · exact stepKill_turn h
  rcases Option.or_eq_some_iff.mp h with h | ⟨_, h⟩
  · exact stepStop_turn h
  · exact stepRequire_turn h

theorem Turn.kind (h : Turn s daemon point running point') : point'.kind = point.kind := by
  cases h with
  | plain hkind _ => exact hkind
  | seesExit hkind hkind' _ _ => exact hkind'.trans hkind.symm
  | killed hpoint _ | killUnregisters hpoint =>
      rw [hpoint]
      exact kind_afterKill _ _
  | stopUnregisters hpoint => rcases hpoint with rfl | ⟨rfl, _⟩ <;> rfl
  | looks hpoint | sets hpoint | requireLooks hpoint =>
      rw [hpoint]
      rfl
  | finds hpoint _ | misses hpoint _ | stopped hpoint _ | requires hpoint _ =>
      rw [hpoint]
      rfl

theorem unregistered_ne (s : Daemons) (daemon : Nat) : s.unregistered daemon ≠ some daemon := by
  unfold unregistered
  split
  · exact fun h => (by cases h)
  next hne => exact hne

theorem unregistered_eq_some {d : Nat} (h : s.unregistered daemon = some d) :
    s.running = some d := by
  unfold unregistered at h
  split at h
  · cases h
  · exact h

/-- Nothing but the end of `launch` sets the reference. -/
theorem Turn.of_running {d : Nat} (h : Turn s daemon point running point')
    (hrunning : running = some d) :
    s.running = some d ∨ point = .registerSet s.running ∧ point' = .launched ∧ d = daemon := by
  cases h with
  | sets hpoint => exact Or.inr ⟨hpoint, rfl, (Option.some.inj hrunning).symm⟩
  | killUnregisters _ | stopUnregisters _ => exact Or.inl (unregistered_eq_some hrunning)
  | _ => exact Or.inl hrunning

theorem hasSeenExit_afterKill {killer : Killer} {result : Except Throwable Unit}
    (h : (afterKill killer result).hasSeenExit = true) :
    (Point.killFinally killer result).hasSeenExit = true := by
  cases result with
  | ok _ => rfl
  | error error => cases killer <;> cases h

theorem hasSeenExit_stopFinally (result : Except Throwable Unit) :
    (Point.stopFinally result).hasSeenExit = (Point.returned result).hasSeenExit := by
  cases result <;> rfl

/-- A thread does not come to know of an exit that has not been. -/
theorem Turn.hasSeenExit (h : Turn s daemon point running point')
    (hpoint : point.hasSeenExit = true → daemon ∈ s.exited)
    (hseen : point'.hasSeenExit = true) : daemon ∈ s.exited := by
  cases h with
  | plain _ hplain =>
      unfold Point.isPlain at hplain
      split at hplain
      all_goals first
        | cases hplain
        | simp [hseen] at hplain
  | seesExit _ _ _ hexited => exact hexited
  | killed hfinally _ =>
      subst hfinally
      exact hpoint (hasSeenExit_afterKill hseen)
  | killUnregisters hkill =>
      subst hkill
      exact hpoint rfl
  | stopped hfinally _ =>
      subst hfinally
      exact hpoint ((hasSeenExit_stopFinally _).trans hseen)
  | stopUnregisters hstop => rcases hstop with rfl | ⟨rfl, _⟩ <;> exact hpoint rfl
  | looks _ | finds _ _ | misses _ _ | sets _ | requireLooks _ | requires _ _ => cases hseen

/-- A call that returns has removed the reference just before. -/
theorem Turn.returned (h : Turn s daemon point running (.returned (.ok ())))
    (hpoint : point.hasSeenExit = true → daemon ∈ s.exited) : running ≠ some daemon := by
  generalize htarget : Point.returned (.ok ()) = target at h
  cases h with
  | plain _ hplain =>
      subst htarget
      cases hplain
  | seesExit _ _ hreturned _ => exact absurd htarget.symm (hreturned _)
  | killed hfinally halive =>
      subst hfinally
      have hseen : (afterKill _ _).hasSeenExit = true := congrArg Point.hasSeenExit htarget.symm
      exact absurd (hpoint (hasSeenExit_afterKill hseen)) halive
  | killUnregisters _ | stopUnregisters _ => exact unregistered_ne s daemon
  | stopped hfinally halive =>
      cases htarget
      subst hfinally
      exact absurd (hpoint rfl) halive
  | looks _ | finds _ _ | misses _ _ | sets _ | requireLooks _ | requires _ _ => cases htarget

/-- A reference that has been read is the one that is there. -/
theorem Turn.looked {d : Nat} (h : Turn s daemon point running point')
    (hpoint' : point' = .registerCheck (some d) ∨ point' = .requireCheck (some d)) :
    s.running = some d ∧ running = s.running := by
  cases h with
  | plain _ hplain => rcases hpoint' with rfl | rfl <;> cases hplain
  | looks _ =>
      rcases hpoint' with hcheck | hcheck
      · exact ⟨Point.registerCheck.inj hcheck, rfl⟩
      · cases hcheck
  | requireLooks _ =>
      rcases hpoint' with hcheck | hcheck
      · cases hcheck
      · exact ⟨Point.requireCheck.inj hcheck, rfl⟩
  | seesExit _ hkind' _ _ => rcases hpoint' with rfl | rfl <;> cases hkind'
  | killed _ _ | killUnregisters _ =>
      rcases hpoint' with hcheck | hcheck <;>
        exact absurd hcheck (afterKill_ne (by simp [Point.kind]))
  | _ => rcases hpoint' with hcheck | hcheck <;> cases hcheck

theorem Turn.misses_live {current : Option Nat}
    (h : Turn s daemon point running (.registerSet current)) : s.isLive current = false := by
  generalize htarget : Point.registerSet current = target at h
  cases h with
  | plain _ hplain =>
      subst htarget
      cases hplain
  | misses _ hlive =>
      cases htarget
      exact hlive
  | seesExit _ hkind' _ _ =>
      subst htarget
      cases hkind'
  | killed _ _ | killUnregisters _ =>
      exact absurd htarget.symm (afterKill_ne (by simp [Point.kind]))
  | _ => cases htarget

end Turns

/-! ### What holds at any time -/

structure Sound (s : Daemons) : Prop where
  bounded : ∀ t ∈ s.threads, t.point.kind = .launch → t.daemon < s.count
  unique : ∀ (i j : Nat) (a b : CallThread), s.threads[i]? = some a → s.threads[j]? = some b →
    a.point.kind = .launch → b.point.kind = .launch → a.daemon = b.daemon → i = j
  /-- The app calls `stop` and `kill` on what it has got from `launch`. -/
  user : ∀ t ∈ s.threads, t.point.kind = .user → ⟨t.daemon, .launched⟩ ∈ s.threads
  misses : ∀ t ∈ s.threads, ∀ current, t.point = .registerSet current → s.isLive current = false
  exits : ∀ t ∈ s.threads, t.point.hasSeenExit = true → t.daemon ∈ s.exited
  removed : ∀ t ∈ s.threads, t.point = .returned (.ok ()) → s.running ≠ some t.daemon
  unset : ∀ t ∈ s.threads, t.point.kind = .launch → t.point ≠ .launched →
    s.running ≠ some t.daemon
  looked : ∀ t ∈ s.threads, ∀ d,
    t.point = .registerCheck (some d) ∨ t.point = .requireCheck (some d) →
    d ∉ s.exited → s.running = some d
  inUse : ∀ d, s.running = some d → d < s.count

theorem sound_start : Sound start where
  bounded := fun t ht => (by cases ht)
  unique := fun i j a b ha => (by cases ha)
  user := fun t ht => (by cases ht)
  misses := fun t ht => (by cases ht)
  exits := fun t ht => (by cases ht)
  removed := fun t ht => (by cases ht)
  unset := fun t ht => (by cases ht)
  looked := fun t ht => (by cases ht)
  inUse := fun d hd => (by cases hd)

section Steps

variable {s s' : Daemons}

theorem Sound.exit (h : Sound s) (daemon : Nat) :
    Sound { s with exited := daemon :: s.exited } where
  bounded := h.bounded
  unique := h.unique
  user := h.user
  misses := by
    intro t ht current hcurrent
    have hlive := h.misses t ht current hcurrent
    cases current with
    | none => rfl
    | some d =>
        have hmem : d ∈ s.exited := by simpa [isLive, isAlive] using hlive
        simp [isLive, isAlive, hmem]
  exits := fun t ht hseen => List.mem_cons_of_mem daemon (h.exits t ht hseen)
  removed := h.removed
  unset := h.unset
  looked := fun t ht d hpoint hd =>
    h.looked t ht d hpoint fun hmem => hd (List.mem_cons_of_mem _ hmem)
  inUse := h.inUse

theorem getElem?_concat_cases {threads : List CallThread} {i : Nat} {a b : CallThread}
    (h : (threads ++ [b])[i]? = some a) : threads[i]? = some a ∨ i = threads.length ∧ a = b := by
  by_cases hi : i < threads.length
  · rw [List.getElem?_append_left hi] at h
    exact Or.inl h
  · have hlt := (List.getElem?_eq_some_iff.mp h).1
    rw [List.length_append, List.length_singleton] at hlt
    have heq : i = threads.length := by omega
    rw [heq, List.getElem?_concat_length] at h
    exact Or.inr ⟨heq, (Option.some.inj h).symm⟩

theorem ne_of_isPlain {point point' : Point} (h : point.isPlain = true)
    (h' : point'.isPlain = false) : point ≠ point' := by
  rintro rfl
  rw [h] at h'
  cases h'

theorem not_hasSeenExit_of_isPlain {point : Point} (h : point.isPlain = true) :
    point.hasSeenExit = false := by
  unfold Point.isPlain at h
  split at h
  all_goals first
    | cases h
    | exact Bool.not_eq_true' _ ▸ h

/-- A new call that has done nothing yet. -/
theorem Sound.call (h : Sound s) {daemon : Nat} {point : Point} (hplain : point.isPlain = true)
    (hlaunch : point.kind = .launch → daemon < s.count ∧ s.running ≠ some daemon ∧
      ∀ t ∈ s.threads, t.point.kind = .launch → t.daemon ≠ daemon)
    (huser : point.kind = .user → ⟨daemon, .launched⟩ ∈ s.threads) :
    Sound (s.call daemon point) := by
  have hmem : ∀ t, t ∈ (s.call daemon point).threads ↔ t ∈ s.threads ∨ t = ⟨daemon, point⟩ :=
    fun t => List.mem_append.trans (or_congr_right List.mem_singleton)
  refine ⟨?_, ?_, ?_, ?_, ?_, ?_, ?_, ?_, h.inUse⟩
  · intro t ht hkind
    rcases (hmem t).mp ht with ht | rfl
    · exact h.bounded t ht hkind
    · exact (hlaunch hkind).1
  · intro i j a b ha hb hakind hbkind hdaemon
    rcases getElem?_concat_cases ha with ha | ⟨hi, rfl⟩ <;>
      rcases getElem?_concat_cases hb with hb | ⟨hj, rfl⟩
    · exact h.unique i j a b ha hb hakind hbkind hdaemon
    · exact absurd hdaemon ((hlaunch hbkind).2.2 a (List.mem_of_getElem? ha) hakind)
    · exact absurd hdaemon.symm ((hlaunch hakind).2.2 b (List.mem_of_getElem? hb) hbkind)
    · rw [hi, hj]
  · intro t ht hkind
    rcases (hmem t).mp ht with ht | rfl
    · exact (hmem _).mpr (Or.inl (h.user t ht hkind))
    · exact (hmem _).mpr (Or.inl (huser hkind))
  · intro t ht current hcurrent
    rcases (hmem t).mp ht with ht | rfl
    · exact h.misses t ht current hcurrent
    · exact absurd hcurrent (ne_of_isPlain hplain rfl)
  · intro t ht hseen
    rcases (hmem t).mp ht with ht | rfl
    · exact h.exits t ht hseen
    · rw [not_hasSeenExit_of_isPlain hplain] at hseen
      cases hseen
  · intro t ht hreturned
    rcases (hmem t).mp ht with ht | rfl
    · exact h.removed t ht hreturned
    · exact absurd hreturned (ne_of_isPlain hplain rfl)
  · intro t ht hkind hpoint
    rcases (hmem t).mp ht with ht | rfl
    · exact h.unset t ht hkind hpoint
    · exact (hlaunch hkind).2.1
  · intro t ht d hlook
    rcases (hmem t).mp ht with ht | rfl
    · exact h.looked t ht d hlook
    · rcases hlook with hlook | hlook <;> exact absurd hlook (ne_of_isPlain hplain rfl)

theorem step_move {index : Nat} {answer : Answer} (h : step s (.move index answer) = some s') :
    ∃ thread running point, s.threads[index]? = some thread ∧
      s.stepThread thread answer = some (running, point) ∧
      s' = { s with
        running := running
        threads := s.threads.set index { thread with point := point } } := by
  simp only [step] at h
  split at h
  next => cases h
  next thread hthread =>
    split at h
    next => cases h
    next running point hstep =>
      exact ⟨thread, running, point, hthread, hstep, (Option.some.inj h).symm⟩

/-- A live daemon that is in use stays in use. -/
theorem Sound.keeps_live (h : Sound s) {thread : CallThread} (hthread : thread ∈ s.threads)
    {running : Option Nat} {point : Point}
    (hturn : Turn s thread.daemon thread.point running point) {d : Nat}
    (hrunning : s.running = some d) (hd : d ∉ s.exited) : running = some d := by
  have hunregister : thread.daemon ∈ s.exited → s.unregistered thread.daemon = some d := by
    intro hexited
    have hne : d ≠ thread.daemon := by
      rintro rfl
      exact hd hexited
    rw [unregistered, if_neg (by rw [hrunning]; exact fun he => hne (Option.some.inj he))]
    exact hrunning
  cases hturn with
  | sets hpoint =>
      have hlive := h.misses thread hthread s.running hpoint
      simp [hrunning, isLive, isAlive, hd] at hlive
  | killUnregisters hpoint =>
      exact hunregister (h.exits thread hthread (by rw [hpoint]; rfl))
  | stopUnregisters hpoint =>
      refine hunregister (h.exits thread hthread ?_)
      rcases hpoint with hpoint | ⟨hpoint, _⟩ <;> rw [hpoint] <;> rfl
  | _ => exact hrunning

theorem getElem?_set_cases {threads : List CallThread} {index i : Nat} {a b : CallThread}
    (h : (threads.set index b)[i]? = some a) :
    i = index ∧ a = b ∨ i ≠ index ∧ threads[i]? = some a := by
  by_cases hi : i = index
  · subst hi
    have hlt : i < threads.length := by
      have hlt := (List.getElem?_eq_some_iff.mp h).1
      rwa [List.length_set] at hlt
    rw [List.getElem?_set_self hlt] at h
    exact Or.inl ⟨rfl, (Option.some.inj h).symm⟩
  · rw [List.getElem?_set_ne (Ne.symm hi)] at h
    exact Or.inr ⟨hi, h⟩

theorem mem_set_cases {threads : List CallThread} {index : Nat} {a b : CallThread}
    (h : a ∈ threads.set index b) : a = b ∨ ∃ i, i ≠ index ∧ threads[i]? = some a := by
  obtain ⟨i, hi⟩ := List.getElem?_of_mem h
  rcases getElem?_set_cases hi with ⟨_, rfl⟩ | ⟨hne, hi⟩
  · exact Or.inl rfl
  · exact Or.inr ⟨i, hne, hi⟩

theorem stepThread_launched {daemon : Nat} {answer : Answer} :
    s.stepThread ⟨daemon, .launched⟩ answer = none := rfl

section Move

variable {index : Nat} {thread : CallThread} {answer : Answer} {running : Option Nat}
  {point : Point}

/-- The reference is not set to the daemon of another call of `launch`. -/
theorem Sound.not_set (h : Sound s) (hthread : s.threads[index]? = some thread)
    (hturn : Turn s thread.daemon thread.point running point) {i : Nat} {t : CallThread}
    (ht : s.threads[i]? = some t) (hi : i ≠ index) (hkind : t.point.kind = .launch)
    (hrunning : s.running ≠ some t.daemon) : running ≠ some t.daemon := by
  intro hset
  rcases hturn.of_running hset with hold | ⟨hpoint, _, hdaemon⟩
  · exact hrunning hold
  · exact hi (h.unique i index t thread ht hthread hkind (by rw [hpoint]; rfl) hdaemon)

theorem launched_stays (hthread : s.threads[index]? = some thread)
    (hstep : s.stepThread thread answer = some (running, point)) {d : Nat}
    (hd : ⟨d, .launched⟩ ∈ s.threads) :
    ∃ i, i ≠ index ∧ s.threads[i]? = some ⟨d, .launched⟩ := by
  obtain ⟨i, hi⟩ := List.getElem?_of_mem hd
  refine ⟨i, ?_, hi⟩
  rintro rfl
  rw [hthread] at hi
  cases hi
  rw [stepThread_launched] at hstep
  cases hstep

theorem Sound.move (h : Sound s) (hthread : s.threads[index]? = some thread)
    (hstep : s.stepThread thread answer = some (running, point)) :
    Sound { s with
      running := running
      threads := s.threads.set index { thread with point := point } } := by
  have hmem := List.mem_of_getElem? hthread
  have hturn := stepThread_turn hstep
  have hkind := hturn.kind
  refine ⟨?_, ?_, ?_, ?_, ?_, ?_, ?_, ?_, ?_⟩
  · intro t ht hlaunch
    rcases mem_set_cases ht with rfl | ⟨i, _, hi⟩
    · exact h.bounded thread hmem (hkind ▸ hlaunch)
    · exact h.bounded t (List.mem_of_getElem? hi) hlaunch
  · intro i j a b ha hb halaunch hblaunch hdaemon
    rcases getElem?_set_cases ha with ⟨hi, rfl⟩ | ⟨_, ha⟩ <;>
      rcases getElem?_set_cases hb with ⟨hj, rfl⟩ | ⟨_, hb⟩
    · rw [hi, hj]
    · exact hi ▸ h.unique index j thread b hthread hb (hkind ▸ halaunch) hblaunch hdaemon
    · exact hj ▸ h.unique i index a thread ha hthread halaunch (hkind ▸ hblaunch) hdaemon
    · exact h.unique i j a b ha hb halaunch hblaunch hdaemon
  · intro t ht huser
    have hold : ⟨t.daemon, .launched⟩ ∈ s.threads := by
      rcases mem_set_cases ht with rfl | ⟨i, _, hi⟩
      · exact h.user thread hmem (hkind ▸ huser)
      · exact h.user t (List.mem_of_getElem? hi) huser
    obtain ⟨i, hi, hget⟩ := launched_stays hthread hstep hold
    refine List.mem_of_getElem? (i := i) ?_
    rw [List.getElem?_set_ne hi.symm, hget]
  · intro t ht current hcurrent
    rcases mem_set_cases ht with rfl | ⟨i, _, hi⟩
    · simp only at hcurrent
      subst hcurrent
      exact hturn.misses_live
    · exact h.misses t (List.mem_of_getElem? hi) current hcurrent
  · intro t ht hseen
    rcases mem_set_cases ht with rfl | ⟨i, _, hi⟩
    · exact hturn.hasSeenExit (h.exits thread hmem) hseen
    · exact h.exits t (List.mem_of_getElem? hi) hseen
  · intro t ht hreturned
    rcases mem_set_cases ht with rfl | ⟨i, _, hi⟩
    · simp only at hreturned
      subst hreturned
      exact hturn.returned (h.exits thread hmem)
    · -- The call of `launch` that has made this daemon is over.
      have ht := List.mem_of_getElem? hi
      have huser := h.user t ht (by rw [hreturned]; rfl)
      obtain ⟨k, hk, hlaunched⟩ := launched_stays hthread hstep huser
      exact (h.not_set hthread hturn hlaunched hk rfl (h.removed t ht hreturned) :)
  · intro t ht hlaunch hpoint
    rcases mem_set_cases ht with rfl | ⟨i, hne, hi⟩
    · have hthreadPoint : thread.point ≠ .launched := by
        intro hlaunched
        obtain ⟨daemon, threadPoint⟩ := thread
        cases hlaunched
        rw [stepThread_launched] at hstep
        cases hstep
      intro hset
      rcases hturn.of_running hset with hold | ⟨_, hlaunched, _⟩
      · exact h.unset thread hmem (hkind ▸ hlaunch) hthreadPoint hold
      · exact hpoint hlaunched
    · have ht := List.mem_of_getElem? hi
      exact h.not_set hthread hturn hi hne hlaunch (h.unset t ht hlaunch hpoint)
  · intro t ht d hlook hd
    rcases mem_set_cases ht with rfl | ⟨i, _, hi⟩
    · obtain ⟨hold, hsame⟩ := hturn.looked hlook
      exact hsame.trans hold
    · exact h.keeps_live hmem hturn (h.looked t (List.mem_of_getElem? hi) d hlook hd) hd
  · intro d hd
    rcases hturn.of_running hd with hold | ⟨hpoint, _, rfl⟩
    · exact h.inUse d hold
    · exact h.bounded thread hmem (by rw [hpoint]; rfl)

end Move

theorem mem_of_hasLaunched {daemon : Nat} (h : s.hasLaunched daemon = true) :
    ⟨daemon, .launched⟩ ∈ s.threads := by
  obtain ⟨t, ht, heq⟩ := List.any_eq_true.mp h
  simp only [Bool.and_eq_true, beq_iff_eq] at heq
  obtain ⟨rfl, hpoint⟩ := heq
  exact hpoint ▸ ht

theorem sound_step {label : Label} (h : Sound s) (hstep : step s label = some s') : Sound s' := by
  cases label with
  | exit daemon =>
      simp only [step] at hstep
      split at hstep
      · cases hstep
        exact h.exit daemon
      · cases hstep
  | launch =>
      cases hstep
      have hmore : Sound { s with count := s.count + 1 } :=
        { h with
          bounded := fun t ht hkind => Nat.lt_succ_of_lt (h.bounded t ht hkind)
          inUse := fun d hd => Nat.lt_succ_of_lt (h.inUse d hd) }
      refine hmore.call rfl (fun _ => ⟨Nat.lt_succ_self _, ?_, ?_⟩) (fun hkind => by cases hkind)
      · intro hrunning
        exact Nat.lt_irrefl _ (h.inUse s.count hrunning)
      · intro t ht hkind hdaemon
        exact Nat.lt_irrefl _ (hdaemon ▸ h.bounded t ht hkind)
  | stop daemon atOnce =>
      simp only [step] at hstep
      split at hstep
      next hlaunched =>
        cases hstep
        exact h.call rfl (fun hkind => by cases hkind) fun _ => mem_of_hasLaunched hlaunched
      next => cases hstep
  | kill daemon =>
      simp only [step] at hstep
      split at hstep
      next hlaunched =>
        cases hstep
        exact h.call rfl (fun hkind => by cases hkind) fun _ => mem_of_hasLaunched hlaunched
      next => cases hstep
  | require =>
      cases hstep
      exact h.call rfl (fun hkind => by cases hkind) (fun hkind => by cases hkind)
  | move index answer =>
      obtain ⟨thread, running, point, hthread, hmoved, rfl⟩ := step_move hstep
      exact h.move hthread hmoved

theorem sound_of_reachable (h : Reachable step start s) : Sound s :=
  reachable_invariant sound_start (fun _ _ _ hs hstep => sound_step hs hstep) h

theorem step_exited {label : Label} {d : Nat} (hstep : step s label = some s')
    (hd : d ∈ s.exited) : d ∈ s'.exited := by
  cases label with
  | exit daemon =>
      simp only [step] at hstep
      split at hstep
      · cases hstep
        exact List.mem_cons_of_mem daemon hd
      · cases hstep
  | move index answer =>
      obtain ⟨thread, running, point, _, _, rfl⟩ := step_move hstep
      exact hd
  | stop _ _ | kill _ =>
      simp only [step] at hstep
      split at hstep
      · cases hstep
        exact hd
      · cases hstep
  | launch | require =>
      cases hstep
      exact hd

theorem step_keeps_live {label : Label} {d : Nat} (h : Sound s) (hstep : step s label = some s')
    (hrunning : s.running = some d) (hd : d ∉ s.exited) : s'.running = some d := by
  cases label with
  | move index answer =>
      obtain ⟨thread, running, point, hthread, hmoved, rfl⟩ := step_move hstep
      exact h.keeps_live (List.mem_of_getElem? hthread) (stepThread_turn hmoved) hrunning hd
  | exit _ | stop _ _ | kill _ =>
      simp only [step] at hstep
      split at hstep
      · cases hstep
        exact hrunning
      · cases hstep
  | launch | require =>
      cases hstep
      exact hrunning

/-- Over any number of steps. -/
theorem run_keeps_live {labels : List Label} {d : Nat} (h : Sound s)
    (hrun : run step s labels = some s') (hrunning : s.running = some d) (hd : d ∉ s'.exited) :
    s'.running = some d := by
  have hinv : Sound s' ∧ (d ∉ s'.exited → s'.running = some d) := by
    refine run_invariant (P := fun _ => True)
      (I := fun t => Sound t ∧ (d ∉ t.exited → t.running = some d)) ?_ (fun _ _ => trivial)
      ⟨h, fun _ => hrunning⟩ hrun
    intro t label t' _ ht hstep
    refine ⟨sound_step ht.1 hstep, fun hd' => ?_⟩
    have hlive : d ∉ t.exited := fun hmem => hd' (step_exited hstep hmem)
    exact step_keeps_live ht.1 hstep (ht.2 hlive) hlive
  exact hinv.2 hd

theorem Turn.required {daemon d : Nat} {point : Point} {running : Option Nat}
    (h : Turn s daemon point running (.required (.ok d))) :
    point = .requireCheck (some d) ∧ d ∉ s.exited := by
  generalize htarget : Point.required (.ok d) = target at h
  cases h with
  | plain _ hplain =>
      subst htarget
      cases hplain
  | requires hpoint halive =>
      cases htarget
      exact ⟨hpoint, halive⟩
  | seesExit _ hkind' _ _ =>
      subst htarget
      cases hkind'
  | killed _ _ | killUnregisters _ =>
      exact absurd htarget.symm (afterKill_ne (by simp [Point.kind]))
  | _ => cases htarget

theorem Turn.launched {daemon : Nat} {point : Point} {running : Option Nat}
    (h : Turn s daemon point running .launched) :
    running = some daemon ∨
      ∃ k, point = .registerCheck (some k) ∧ k ∉ s.exited ∧ running = s.running := by
  generalize htarget : Point.launched = target at h
  cases h with
  | plain _ hplain =>
      subst htarget
      cases hplain
  | @finds current hpoint hlive =>
      cases current with
      | none => cases hlive
      | some k => exact Or.inr ⟨k, hpoint, isAlive_eq_true.mp hlive, rfl⟩
  | sets _ => exact Or.inl rfl
  | seesExit _ hkind' _ _ =>
      subst htarget
      cases hkind'
  | killed _ _ | killUnregisters _ =>
      exact absurd htarget.symm (afterKill_ne (by simp [Point.kind]))
  | _ => cases htarget

end Steps

/-- In any order of the calls and the exits: a live daemon in use stays in use until it exits;
`requireDaemon` returns the daemon in use, and that is alive; when `launch` returns there is a
live daemon in use or its own; the daemon of a call of `launch` that has failed is not in use;
and when `stop` or `kill` has returned the process has exited and is not in use. -/
theorem daemon_in_use {s : Daemons} (hs : Reachable step start s) :
    (∀ labels s' d, run step s labels = some s' → s.running = some d → d ∉ s'.exited →
      s'.running = some d) ∧
    (∀ index answer s' thread, step s (.move index answer) = some s' →
      s'.threads[index]? = some thread →
      (∀ d, thread.point = .required (.ok d) → s'.running = some d ∧ d ∉ s'.exited) ∧
      (thread.point = .launched →
        ∃ k, s'.running = some k ∧ (k = thread.daemon ∨ k ∉ s'.exited))) ∧
    ∀ thread ∈ s.threads,
      (thread.point = .launchThrew → s.running ≠ some thread.daemon) ∧
      (thread.point = .returned (.ok ()) →
        thread.daemon ∈ s.exited ∧ s.running ≠ some thread.daemon) := by
  have hsound := sound_of_reachable hs
  refine ⟨?_, ?_, ?_⟩
  · intro labels s' d hrun hrunning hd
    exact run_keeps_live hsound hrun hrunning hd
  · intro index answer s' thread hstep hthread
    obtain ⟨old, running, point, hold, hmoved, rfl⟩ := step_move hstep
    have hturn := stepThread_turn hmoved
    have hmem := List.mem_of_getElem? hold
    rcases getElem?_set_cases hthread with ⟨_, rfl⟩ | ⟨hne, _⟩
    · refine ⟨?_, ?_⟩
      · intro d hpoint
        simp only at hpoint
        subst hpoint
        obtain ⟨hcheck, halive⟩ := hturn.required
        have hrunning := hsound.looked old hmem d (Or.inr hcheck) halive
        exact ⟨hsound.keeps_live hmem hturn hrunning halive, halive⟩
      · intro hpoint
        simp only at hpoint
        subst hpoint
        rcases hturn.launched with hset | ⟨k, hcheck, halive, hsame⟩
        · exact ⟨old.daemon, hset, Or.inl rfl⟩
        · have hrunning := hsound.looked old hmem k (Or.inl hcheck) halive
          exact ⟨k, hsame.trans hrunning, Or.inr halive⟩
    · exact absurd rfl hne
  · intro thread hthread
    refine ⟨?_, ?_⟩
    · intro hpoint
      refine hsound.unset thread hthread ?_ ?_
      · rw [hpoint]
        rfl
      · rw [hpoint]
        exact fun h => (by cases h)
    · intro hpoint
      exact ⟨hsound.exits thread hthread (by rw [hpoint]; rfl),
        hsound.removed thread hthread hpoint⟩

/-- Two calls of `launch` find no daemon in use, and the second loses the race. -/
def racedLabels : List Label :=
  [.launch, .move 0 .done, .move 0 .done, .launch, .move 1 .done, .move 1 .done, .move 0 .done,
    .move 1 .done, .move 0 .done, .move 1 .done, .move 0 .done, .move 1 .done, .move 1 .done,
    .move 1 .done]

/-- The first daemon does not answer and is killed. -/
def killedLabels : List Label :=
  [.stop 0 false, .move 2 .done, .move 2 .ioException, .move 2 .done, .move 2 .done, .move 2 .done,
    .exit 0, .move 2 .done, .move 2 .done, .move 2 .done, .move 2 .done, .move 2 .done]

theorem daemon_in_use_killed :
    ∃ s s', run step start racedLabels = some s ∧ s.running = some 0 ∧
      run step s killedLabels = some s' ∧ 0 ∈ s'.exited ∧ s'.running ≠ some 0 := by
  have hraced : (run step start racedLabels).map (fun s => s.running) = some (some 0) := by
    decide
  obtain ⟨s, hrun, hrunning⟩ := Option.map_eq_some_iff.mp hraced
  have hkilled : (run step start (racedLabels ++ killedLabels)).map (fun s => s.threads[2]?) =
      some (some ⟨0, .returned (.ok ())⟩) := by
    decide
  obtain ⟨s', hall, hthread⟩ := Option.map_eq_some_iff.mp hkilled
  obtain ⟨mid, hmid, hback⟩ := run_append.mp hall
  rw [hrun] at hmid
  cases hmid
  obtain ⟨_, _, hthreads⟩ := daemon_in_use ⟨_, hall⟩
  obtain ⟨hexited, hremoved⟩ := (hthreads _ (List.mem_of_getElem? hthread)).2 rfl
  exact ⟨s, s', hrun, hrunning, hback, hexited, hremoved⟩

end Daemons
end Iface
end WgKotlin
