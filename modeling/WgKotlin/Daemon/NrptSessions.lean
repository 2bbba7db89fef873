import WgKotlin.Daemon.Nrpt
import WgKotlin.Library.Run

/-!
# NRPT rules over the lives of several daemons

Daemons come and go, process ids are used again, and each session of a daemon runs its
scripts while those of other sessions and other daemons run.  A script lists all rules
first and removes the ones that it selects later, one by one; when its daemon is killed
the script goes on.

What keeps the sessions apart is the comment of a rule.  No two processes have the same
id and creation time, and a daemon has one session for an interface at a time.
-/

namespace WgKotlin
namespace Daemon
namespace Windows

open Library

/-! ### The system -/

structure Instance where
  pid : Nat
  createdAt : Nat
  deriving DecidableEq, Repr

/-- The numbers that a process of Windows can have. -/
def Instance.Valid (process : Instance) : Prop :=
  0 < process.pid ∧ process.pid < 2 ^ 31 ∧ process.createdAt < 2 ^ 63

instance (process : Instance) : Decidable process.Valid := inferInstanceAs (Decidable (_ ∧ _))

structure NrptRule extends Rule where
  nameSpace : String
  nameServers : List String
  deriving DecidableEq, Repr

/-- Where a session stands.  A script that removes rules has some of those that it has
listed left to look at. -/
inductive NrptPoint
  /-- `clear_stale_nrpt_rules_once`, before its lock -/
  | preparing
  | sweepStarts
  | sweeping (left : List NrptRule)
  | sweepRemoves (rule : NrptRule) (left : List NrptRule)
  | prepared
  /-- `clear_nrpt_rules`, in the setup or as part of the clean-up -/
  | clearStarts (cleanup : Bool)
  | clearing (cleanup : Bool) (left : List NrptRule)
  | setting (left : List String)
  | running
  /-- closed, and its clean-up has gone well -/
  | cleaned
  | ended
  deriving DecidableEq

namespace NrptPoint

def active : NrptPoint → Bool
  | .cleaned | .ended => false
  | _ => true

/-- Nothing is asserted of the rules. -/
def idle : NrptPoint → Bool
  | .preparing | .sweepStarts | .prepared | .clearStarts _ | .ended => true
  | _ => false

/-- The lock of `clear_stale_nrpt_rules_once` is held. -/
def locks : NrptPoint → Bool
  | .sweepStarts | .sweeping _ | .sweepRemoves _ _ => true
  | _ => false

end NrptPoint

structure NrptSession where
  daemon : Instance
  interfaceName : String
  namespaces : List String
  servers : List String
  point : NrptPoint

namespace NrptSession

def comment (session : NrptSession) : String :=
  ownComment session.daemon.pid session.daemon.createdAt session.interfaceName

def rule (session : NrptSession) (nameSpace name : String) : NrptRule where
  name := name
  comment := session.comment
  nameSpace := nameSpace
  nameServers := session.servers

/-- The rules are set if there are namespaces and servers. -/
def setsRules (session : NrptSession) : Bool :=
  !session.namespaces.isEmpty && !session.servers.isEmpty

/-- Namespaces and servers of the rules that the session asks for. -/
def expected (session : NrptSession) : List (String × List String) :=
  if session.setsRules then session.namespaces.map (·, session.servers) else []

/-- The sessions have the same comment. -/
def SameKey (t u : NrptSession) : Prop :=
  t.daemon = u.daemon ∧ t.interfaceName = u.interfaceName

end NrptSession

structure NrptSystem where
  live : List Instance
  /-- all processes that there have been -/
  past : List Instance
  rules : List NrptRule
  /-- all names that rules have had -/
  used : List String
  /-- the daemons whose `STATE` is true -/
  cleared : List Instance
  sessions : List NrptSession

inductive NrptAnswer
  | done
  /-- what the script sees of the process that made the rule -/
  | seen (process : Except ProcessException Process)
  /-- the name of the rule that is added -/
  | named (name : String)
  /-- an error, or a script that takes too long -/
  | fails
  /-- a route that cannot be added -/
  | undo

inductive NrptLabel
  | birth (process : Instance)
  | exit (process : Instance)
  | addOther (rule : NrptRule)
  | removeOther (rule : NrptRule)
  | open (daemon : Instance) (interfaceName : String) (namespaces servers : List String)
  | move (index : Nat) (answer : NrptAnswer)

/-- Access to the process is denied. -/
def isDenied : Except ProcessException Process → Bool
  | .error .win32 => true
  | .ok ⟨.error .win32, _⟩ => true
  | .ok ⟨.ok false, .error .win32⟩ => true
  | _ => false

theorem isDenied_iff {process : Except ProcessException Process} (pid : Nat) :
    isDenied process = true ↔ DeniedOwner (fun _ => process) pid := by
  constructor
  · intro h
    unfold isDenied at h
    split at h
    · exact Or.inl rfl
    · exact Or.inr ⟨_, rfl, Or.inl rfl⟩
    · exact Or.inr ⟨_, rfl, Or.inr ⟨rfl, rfl⟩⟩
    · cases h
  · rintro (hdenied | ⟨⟨exited, start⟩, hfound, hexited | ⟨hexited, hstart⟩⟩)
    · simp only at hdenied
      rw [hdenied]
      rfl
    · simp only at hfound hexited
      rw [hfound, hexited]
      rfl
    · simp only at hfound hexited hstart
      rw [hfound, hexited, hstart]
      rfl

/-- The script is told that it may not look at a process. -/
def NrptLabel.denies : NrptLabel → Bool
  | .move _ (.seen process) => isDenied process
  | _ => false

/-- What can be seen of a process id.  A process that exits while it is looked at is seen in
part. -/
def observes (live : List Instance) (pid : Nat) (seen : Except ProcessException Process) : Bool :=
  match seen with
  | .ok ⟨.ok false, .ok start⟩ => live.contains ⟨pid, start⟩
  | seen => isDenied seen || live.all fun process => process.pid != pid

namespace NrptSystem

def start : NrptSystem where
  live := []
  past := []
  rules := []
  used := []
  cleared := []
  sessions := []

/-- `Remove-DnsClientNrptRule` -/
def remove (s : NrptSystem) (rule : NrptRule) : NrptSystem :=
  { s with rules := s.rules.filter fun other => other.name != rule.name }

/-- `Add-DnsClientNrptRule` -/
def add (s : NrptSystem) (rule : NrptRule) : NrptSystem :=
  { s with rules := s.rules ++ [rule], used := rule.name :: s.used }

variable (culture : Culture)

/-- A step of a script.  It does not need its daemon.  A rule that another script has removed
since cannot be removed. -/
def stepScript (s : NrptSystem) (session : NrptSession) :
    NrptPoint → NrptAnswer → Option (NrptSystem × NrptPoint)
  | .sweepStarts, .done => some (s, .sweeping s.rules)
  | .sweeping (rule :: left), .seen process =>
    match staleOwner culture rule.comment with
    | none => some (s, .sweeping left)
    | some (pid, _) =>
      if observes s.live pid process then
        if isStale culture (fun _ => process) rule.comment then some (s, .sweepRemoves rule left)
        else some (s, .sweeping left)
      else none
  | .sweepRemoves rule left, .done =>
    if rule ∈ s.rules then some (s.remove rule, .sweeping left) else none
  | .clearStarts cleanup, .done => some (s, .clearing cleanup s.rules)
  | .clearing cleanup (rule :: left), .done =>
    if culture.equal rule.comment session.comment then
      if rule ∈ s.rules then some (s.remove rule, .clearing cleanup left) else none
    else some (s, .clearing cleanup left)
  | .setting (nameSpace :: left), .named name =>
    if name ∈ s.used then none
    else some (s.add (session.rule nameSpace name), .setting left)
  | _, _ => none

/-- A step of the daemon between two scripts. -/
def stepDaemon (s : NrptSystem) (session : NrptSession) :
    NrptPoint → NrptAnswer → Option (NrptSystem × NrptPoint)
  | .preparing, .done =>
    if s.sessions.any fun other => other.daemon == session.daemon && other.point.locks then none
    else if session.daemon ∈ s.cleared then some (s, .prepared)
    else some (s, .sweepStarts)
  -- the routes of the endpoints
  | .preparing, .fails => some (s, .ended)
  | .sweeping [], .done => some ({ s with cleared := session.daemon :: s.cleared }, .prepared)
  | .sweepStarts, .fails | .sweeping _, .fails | .sweepRemoves _ _, .fails => some (s, .ended)
  -- the device, the interrupt event or the route manager
  | .prepared, .fails => some (s, .ended)
  | .prepared, .undo => some (s, .clearStarts true)
  | .prepared, .done => some (s, .clearStarts false)
  | .clearStarts false, .fails | .clearing false _, .fails => some (s, .clearStarts true)
  | .clearStarts true, .fails | .clearing true _, .fails => some (s, .ended)
  | .clearing false [], .done =>
    some (s, if session.setsRules then .setting session.namespaces else .running)
  | .clearing true [], .done => some (s, .cleaned)
  | .setting [], .done => some (s, .running)
  | .setting _, .fails => some (s, .clearStarts true)
  -- `TunSession::close`
  | .running, .done => some (s, .clearStarts true)
  | _, _ => none

def stepSession (s : NrptSystem) (session : NrptSession) (answer : NrptAnswer) :
    Option (NrptSystem × NrptPoint) :=
  match stepScript culture s session session.point answer with
  | some next => some next
  | none => if session.daemon ∈ s.live then stepDaemon s session session.point answer else none

/-- The daemon has reserved the interface for a session that has not ended. -/
def reserved (s : NrptSystem) (daemon : Instance) (interfaceName : String) : Bool :=
  s.sessions.any fun other =>
    other.daemon == daemon && other.interfaceName == interfaceName && other.point.active

def step (s : NrptSystem) : NrptLabel → Option NrptSystem
  | .birth process =>
    if process.Valid ∧ process ∉ s.past ∧ ∀ other ∈ s.live, other.pid ≠ process.pid then
      some { s with live := process :: s.live, past := process :: s.past }
    else none
  | .exit process => some { s with live := s.live.filter (· != process) }
  | .addOther rule =>
    if rule.name ∉ s.used ∧ staleOwner culture rule.comment = none then some (s.add rule) else none
  | .removeOther rule =>
    if rule ∈ s.rules ∧ staleOwner culture rule.comment = none then some (s.remove rule) else none
  | .open daemon interfaceName namespaces servers =>
    if daemon ∈ s.live ∧ validateInterfaceName false interfaceName = .ok () ∧
        s.reserved daemon interfaceName = false then
      some { s with
        sessions := s.sessions ++ [⟨daemon, interfaceName, namespaces, servers, .preparing⟩] }
    else none
  | .move index answer =>
    match s.sessions[index]? with
    | none => none
    | some session =>
      match stepSession culture s session answer with
      | none => none
      | some (s', point) =>
        some { s' with sessions := s'.sessions.set index { session with point := point } }

/-! ### What a step does -/

/-- The moves of a session. -/
inductive Turn (s : NrptSystem) (session : NrptSession) (answer : NrptAnswer) :
    NrptSystem → NrptPoint → Prop
  | plain {point : NrptPoint} (hactive : session.point.active = true)
      (hidle : point.idle = true) (hlock : session.point.locks = true → point = .ended) :
      Turn s session answer s point
  | lists (h : session.point = .sweepStarts) : Turn s session answer s (.sweeping s.rules)
  | keeps {rule : NrptRule} {left : List NrptRule} {process : Except ProcessException Process}
      (h : session.point = .sweeping (rule :: left)) (hanswer : answer = .seen process)
      (hkept : ∀ pid start, staleOwner culture rule.comment = some (pid, start) →
        observes s.live pid process = true ∧
          isStale culture (fun _ => process) rule.comment = false) :
      Turn s session answer s (.sweeping left)
  | condemns {rule : NrptRule} {left : List NrptRule} {pid start : Nat}
      {process : Except ProcessException Process} (h : session.point = .sweeping (rule :: left))
      (howner : staleOwner culture rule.comment = some (pid, start))
      (hseen : observes s.live pid process = true)
      (hstale : isStale culture (fun _ => process) rule.comment = true) :
      Turn s session answer s (.sweepRemoves rule left)
  | sweeps {rule : NrptRule} {left : List NrptRule} (h : session.point = .sweepRemoves rule left)
      (hrule : rule ∈ s.rules) : Turn s session answer (s.remove rule) (.sweeping left)
  | swept (h : session.point = .sweeping []) :
      Turn s session answer { s with cleared := session.daemon :: s.cleared } .prepared
  | listsOwn {cleanup : Bool} (h : session.point = .clearStarts cleanup) :
      Turn s session answer s (.clearing cleanup s.rules)
  | spares {cleanup : Bool} {rule : NrptRule} {left : List NrptRule}
      (h : session.point = .clearing cleanup (rule :: left))
      (hother : culture.equal rule.comment session.comment = false) :
      Turn s session answer s (.clearing cleanup left)
  | clears {cleanup : Bool} {rule : NrptRule} {left : List NrptRule}
      (h : session.point = .clearing cleanup (rule :: left))
      (hown : culture.equal rule.comment session.comment = true) (hrule : rule ∈ s.rules) :
      Turn s session answer (s.remove rule) (.clearing cleanup left)
  | goesOn (h : session.point = .clearing false []) :
      Turn s session answer s (if session.setsRules then .setting session.namespaces else .running)
  | cleans (h : session.point = .clearing true []) : Turn s session answer s .cleaned
  | adds {nameSpace : String} {left : List String} {name : String}
      (h : session.point = .setting (nameSpace :: left)) (hfresh : name ∉ s.used) :
      Turn s session answer (s.add (session.rule nameSpace name)) (.setting left)
  | runs (h : session.point = .setting []) : Turn s session answer s .running

variable {culture} {s s' : NrptSystem} {session : NrptSession} {answer : NrptAnswer}
  {point : NrptPoint}

theorem stepScript_turn (h : stepScript culture s session session.point answer = some (s', point)) :
    Turn culture s session answer s' point := by
  unfold stepScript at h
  split at h
  next hpoint =>
    cases h
    exact .lists hpoint
  next rule left process hpoint =>
    split at h
    next hnone =>
      cases h
      refine .keeps hpoint rfl fun pid start howner => ?_
      rw [hnone] at howner
      cases howner
    next pid start howner =>
      split at h
      next hseen =>
        split at h
        next hstale =>
          cases h
          exact .condemns hpoint howner hseen hstale
        next hstale =>
          cases h
          refine .keeps hpoint rfl fun pid' start' howner' => ?_
          rw [howner] at howner'
          cases howner'
          exact ⟨hseen, Bool.eq_false_iff.mpr hstale⟩
      next => cases h
  next rule left hpoint =>
    split at h
    next hrule =>
      cases h
      exact .sweeps hpoint hrule
    next => cases h
  next cleanup hpoint =>
    cases h
    exact .listsOwn hpoint
  next cleanup rule left hpoint =>
    split at h
    next hown =>
      split at h
      next hrule =>
        cases h
        exact .clears hpoint hown hrule
      next => cases h
    next hother =>
      cases h
      exact .spares hpoint (Bool.eq_false_iff.mpr hother)
  next nameSpace left name hpoint =>
    split at h
    next => cases h
    next hfresh =>
      cases h
      exact .adds hpoint hfresh
  next => cases h

theorem stepDaemon_turn (h : stepDaemon s session session.point answer = some (s', point)) :
    Turn culture s session answer s' point := by
  have hplain : ∀ {from' to' : NrptPoint}, session.point = from' → from'.active = true →
      to'.idle = true → (from'.locks = true → to' = .ended) →
      Turn culture s session answer s to' := by
    intro from' to' hpoint hactive hidle hlock
    subst hpoint
    exact .plain hactive hidle hlock
  unfold stepDaemon at h
  split at h
  case h_1 hpoint =>
    split at h
    · cases h
    · split at h
      · cases h
        exact hplain hpoint rfl rfl (by simp [NrptPoint.locks])
      · cases h
        exact hplain hpoint rfl rfl (by simp [NrptPoint.locks])
  case h_3 hpoint =>
    cases h
    exact .swept hpoint
  case h_14 hpoint =>
    cases h
    exact .goesOn hpoint
  case h_15 hpoint =>
    cases h
    exact .cleans hpoint
  case h_16 hpoint =>
    cases h
    exact .runs hpoint
  case h_19 => cases h
  all_goals
    cases h
    exact hplain (by assumption) rfl rfl (by simp [NrptPoint.locks])

theorem step_move {index : Nat} (h : step culture s (.move index answer) = some s') :
    ∃ session s₁ point, s.sessions[index]? = some session ∧ Turn culture s session answer s₁ point ∧
      s' = { s₁ with sessions := s₁.sessions.set index { session with point := point } } := by
  unfold step at h
  simp only at h
  split at h
  · cases h
  next session hsession =>
    split at h
    · cases h
    next s₁ point hmoved =>
      refine ⟨session, s₁, point, hsession, ?_, (Option.some.inj h).symm⟩
      unfold stepSession at hmoved
      split at hmoved
      next next hscript =>
        cases hmoved
        exact stepScript_turn hscript
      next =>
        split at hmoved
        · exact stepDaemon_turn hmoved
        · cases hmoved

theorem Turn.active (h : Turn culture s session answer s' point) : session.point.active = true := by
  cases h with
  | plain hactive _ _ => exact hactive
  | lists h | keeps h _ _ | condemns h _ _ _ | sweeps h _ | swept h | listsOwn h | spares h _
  | clears h _ _ | goesOn h | cleans h | adds h _ | runs h =>
      rw [h]
      rfl

theorem Turn.sessions (h : Turn culture s session answer s' point) : s'.sessions = s.sessions := by
  cases h <;> rfl

/-! ### What nobody takes back -/

/-- Names are not given twice, nor are the numbers of a process. -/
structure Grows (s s' : NrptSystem) : Prop where
  used : ∀ name ∈ s.used, name ∈ s'.used
  past : ∀ process ∈ s.past, process ∈ s'.past
  rules : ∀ rule ∈ s'.rules, rule ∈ s.rules ∨ rule.name ∉ s.used
  live : ∀ process ∈ s'.live, process ∈ s.live ∨ process ∉ s.past

theorem Grows.remove (s : NrptSystem) (rule : NrptRule) : Grows s (s.remove rule) where
  used := fun _ h => h
  past := fun _ h => h
  rules := fun _ h => Or.inl (List.mem_of_mem_filter h)
  live := fun _ h => Or.inl h

theorem Grows.add {rule : NrptRule} (hfresh : rule.name ∉ s.used) : Grows s (s.add rule) where
  used := fun _ h => List.mem_cons_of_mem _ h
  past := fun _ h => h
  rules := by
    intro other hother
    rcases List.mem_append.mp hother with hother | hother
    · exact Or.inl hother
    · rw [List.mem_singleton.mp hother]
      exact Or.inr hfresh
  live := fun _ h => Or.inl h

theorem Grows.birth {process : Instance} (hnew : process ∉ s.past) :
    Grows s { s with live := process :: s.live, past := process :: s.past } where
  used := fun _ h => h
  past := fun _ h => List.mem_cons_of_mem _ h
  rules := fun _ h => Or.inl h
  live := by
    intro other hother
    rcases List.mem_cons.mp hother with rfl | hother
    · exact Or.inr hnew
    · exact Or.inl hother

theorem Grows.exit (s : NrptSystem) (process : Instance) :
    Grows s { s with live := s.live.filter (· != process) } where
  used := fun _ h => h
  past := fun _ h => h
  rules := fun _ h => Or.inl h
  live := fun _ h => Or.inl (List.mem_of_mem_filter h)

/-- The rules have been listed: nothing else will have their names, and their owners are
known. -/
def Listed (s : NrptSystem) (rules : List NrptRule) : Prop :=
  ∀ rule ∈ rules, rule.name ∈ s.used ∧
    (∀ other ∈ s.rules, other.name = rule.name → other = rule) ∧
    ∀ daemon : Instance, ∀ name, daemon.Valid → IsUtun name →
      rule.comment = ownComment daemon.pid daemon.createdAt name → daemon ∈ s.past

theorem Listed.grows {rules : List NrptRule} (h : Listed s rules) (hgrows : Grows s s') :
    Listed s' rules := by
  intro rule hrule
  obtain ⟨hused, hsame, howner⟩ := h rule hrule
  refine ⟨hgrows.used _ hused, ?_, ?_⟩
  · intro other hother hname
    rcases hgrows.rules other hother with hold | hfresh
    · exact hsame other hold hname
    · rw [hname] at hfresh
      exact absurd hused hfresh
  · intro daemon name hvalid hutun hcomment
    exact hgrows.past _ (howner daemon name hvalid hutun hcomment)

/-- The process that made the rule is gone. -/
def OwnerGone (s : NrptSystem) (rule : NrptRule) : Prop :=
  ∀ daemon : Instance, ∀ name, daemon.Valid → IsUtun name →
    rule.comment = ownComment daemon.pid daemon.createdAt name → daemon ∉ s.live

theorem OwnerGone.grows {rule : NrptRule} (h : OwnerGone s rule) (hlisted : Listed s [rule])
    (hgrows : Grows s s') : OwnerGone s' rule := by
  intro daemon name hvalid hutun hcomment hlive
  rcases hgrows.live daemon hlive with hlive | hnew
  · exact h daemon name hvalid hutun hcomment hlive
  · exact hnew ((hlisted rule List.mem_cons_self).2.2 daemon name hvalid hutun hcomment)

/-! ### The rules of a session -/

/-- Namespaces and servers of the rules with a comment. -/
def served (rules : List NrptRule) (comment : String) : List (String × List String) :=
  (rules.filter fun rule => rule.comment == comment).map fun rule =>
    (rule.nameSpace, rule.nameServers)

theorem served_remove {rule : NrptRule} {comment : String} (hlisted : Listed s [rule])
    (hne : rule.comment ≠ comment) :
    served (s.remove rule).rules comment = served s.rules comment := by
  unfold served remove
  simp only
  rw [List.filter_filter]
  congr 1
  refine List.filter_congr fun other hother => ?_
  by_cases hcomment : other.comment = comment
  · have hname : other.name ≠ rule.name := by
      intro hname
      rw [(hlisted rule List.mem_cons_self).2.1 other hother hname] at hcomment
      exact hne hcomment
    simp [hcomment, hname]
  · simp [hcomment]

theorem served_add (s : NrptSystem) (rule : NrptRule) (comment : String) :
    served (s.add rule).rules comment = served s.rules comment ++
      if rule.comment = comment then [(rule.nameSpace, rule.nameServers)] else [] := by
  unfold served add
  rw [List.filter_append, List.map_append]
  by_cases h : rule.comment = comment
  · simp [h]
  · simp [h]

theorem served_eq_nil {rules : List NrptRule} {comment : String}
    (h : ∀ rule ∈ rules, rule.comment ≠ comment) : served rules comment = [] := by
  unfold served
  rw [List.map_eq_nil_iff, List.filter_eq_nil_iff]
  intro rule hrule
  simpa using h rule hrule

/-! ### Comments of sessions -/

/-- The numbers and the name of a session are those of a daemon. -/
structure Proper (session : NrptSession) : Prop where
  valid : session.daemon.Valid
  utun : IsUtun session.interfaceName

theorem equal_comment {t u : NrptSession} (ht : Proper t) (hu : Proper u) :
    culture.equal t.comment u.comment = true ↔ t.SameKey u := by
  unfold NrptSession.comment NrptSession.SameKey
  rw [equal_ownComment hu.utun ht.utun]
  constructor
  · rintro ⟨hpid, hcreated, hname⟩
    refine ⟨?_, hname⟩
    cases ht' : t.daemon
    cases hu' : u.daemon
    simp_all
  · rintro ⟨hdaemon, hname⟩
    rw [hdaemon, hname]
    exact ⟨rfl, rfl, rfl⟩

theorem ownComment_ne_of_unknown {comment name : String} {daemon : Instance}
    (hvalid : daemon.Valid) (hutun : IsUtun name) (h : staleOwner culture comment = none) :
    comment ≠ ownComment daemon.pid daemon.createdAt name := by
  intro heq
  have hform : HasForm culture comment daemon.pid daemon.createdAt := by
    rw [heq]
    exact hasForm_ownComment hvalid.1 hvalid.2.1 hvalid.2.2 hutun
  rw [← staleOwner_eq_some, h] at hform
  cases hform

/-! ### The invariant -/

/-- What is known at the point of a session. -/
def At (s : NrptSystem) (session : NrptSession) : Prop :=
  match session.point with
  | .sweeping left => Listed s left
  | .sweepRemoves rule left => Listed s (rule :: left) ∧ OwnerGone s rule
  | .clearing _ left =>
    Listed s left ∧ ∀ rule ∈ s.rules, rule.comment = session.comment → rule ∈ left
  | .setting left =>
    session.daemon ∈ s.live → session.setsRules = true ∧
      ∃ done, session.namespaces = done ++ left ∧
        served s.rules session.comment = done.map (·, session.servers)
  | .running => session.daemon ∈ s.live → served s.rules session.comment = session.expected
  | _ => True

/-- A step that is not made for the session. -/
structure Frames (s s' : NrptSystem) (session : NrptSession) : Prop where
  grows : Grows s s'
  mine : ∀ rule ∈ s'.rules, rule.comment = session.comment → rule ∈ s.rules
  kept : session.daemon ∈ s'.live → session.daemon ∈ s.live ∧
    served s'.rules session.comment = served s.rules session.comment

theorem At.frame (h : At s session) (hframes : Frames s s' session) : At s' session := by
  unfold At at h ⊢
  split
  next left hpoint =>
    rw [hpoint] at h
    exact Listed.grows h hframes.grows
  next rule left hpoint =>
    rw [hpoint] at h
    have hrule : Listed s [rule] := fun other hother =>
      h.1 other (List.mem_cons.mpr (Or.inl (List.mem_singleton.mp hother)))
    exact ⟨h.1.grows hframes.grows, h.2.grows hrule hframes.grows⟩
  next left hpoint =>
    rw [hpoint] at h
    refine ⟨h.1.grows hframes.grows, fun rule hrule hcomment => ?_⟩
    exact h.2 rule (hframes.mine rule hrule hcomment) hcomment
  next left hpoint =>
    rw [hpoint] at h
    intro hlive
    obtain ⟨hold, hserved⟩ := hframes.kept hlive
    rw [hserved]
    exact h hold
  next hpoint =>
    rw [hpoint] at h
    intro hlive
    obtain ⟨hold, hserved⟩ := hframes.kept hlive
    rw [hserved]
    exact h hold
  next => trivial

theorem Frames.same (hrules : s'.rules = s.rules) (hused : s'.used = s.used)
    (hpast : s'.past = s.past) (hlive : s'.live = s.live) : Frames s s' session where
  grows := ⟨fun _ h => hused ▸ h, fun _ h => hpast ▸ h, fun _ h => Or.inl (hrules ▸ h),
    fun _ h => Or.inl (hlive ▸ h)⟩
  mine := fun _ h _ => hrules ▸ h
  kept := fun h => ⟨hlive ▸ h, by rw [hrules]⟩

theorem Frames.remove {rule : NrptRule} (hlisted : Listed s [rule])
    (hne : session.daemon ∈ s.live → rule.comment ≠ session.comment) :
    Frames s (s.remove rule) session where
  grows := Grows.remove s rule
  mine := fun _ h _ => List.mem_of_mem_filter h
  kept := fun h => ⟨h, served_remove hlisted (hne h)⟩

theorem Frames.add {rule : NrptRule} (hfresh : rule.name ∉ s.used)
    (hne : rule.comment ≠ session.comment) : Frames s (s.add rule) session where
  grows := Grows.add hfresh
  mine := by
    intro other hother hcomment
    rcases List.mem_append.mp hother with hother | hother
    · exact hother
    · rw [List.mem_singleton.mp hother] at hcomment
      exact absurd hcomment hne
  kept := fun h => ⟨h, by rw [served_add, if_neg hne, List.append_nil]⟩

/-- What a session does leaves the others alone. -/
theorem Turn.frames {t : NrptSession} (hturn : Turn culture s session answer s' point)
    (hrules : Listed s s.rules) (hat : At s session) (hsession : Proper session) (ht : Proper t)
    (hne : ¬ t.SameKey session) : Frames s s' t := by
  have hone : ∀ rule ∈ s.rules, Listed s [rule] := by
    intro rule hrule other hother
    rw [List.mem_singleton.mp hother]
    exact hrules rule hrule
  cases hturn with
  | plain _ _ _ | lists _ | keeps _ _ _ | condemns _ _ _ _ | listsOwn _ | spares _ _ | goesOn _
  | swept _ | cleans _ | runs _ => exact Frames.same rfl rfl rfl rfl
  | @sweeps rule left hpoint hrule =>
      refine Frames.remove (hone rule hrule) fun hlive hcomment => ?_
      unfold At at hat
      rw [hpoint] at hat
      exact hat.2 t.daemon t.interfaceName ht.valid ht.utun hcomment hlive
  | @clears cleanup rule left _ hown hrule =>
      refine Frames.remove (hone rule hrule) fun _ hcomment => hne ?_
      rw [hcomment] at hown
      exact (equal_comment ht hsession).mp hown
  | adds _ hfresh =>
      refine Frames.add hfresh fun hcomment => hne ?_
      have hself : culture.equal session.comment session.comment = true :=
        (equal_comment hsession hsession).mpr ⟨rfl, rfl⟩
      have hsame : session.comment = t.comment := hcomment
      nth_rewrite 1 [hsame] at hself
      exact (equal_comment ht hsession).mp hself

/-- There is no rule with the comment of the session. -/
def Unruled (s : NrptSystem) (session : NrptSession) : Prop :=
  ∀ rule ∈ s.rules, rule.comment ≠ session.comment

structure Sound (s : NrptSystem) : Prop where
  listed : Listed s s.rules
  live : ∀ process ∈ s.live, process ∈ s.past
  valid : ∀ process ∈ s.past, process.Valid
  distinct : ∀ p ∈ s.live, ∀ q ∈ s.live, p.pid = q.pid → p = q
  proper : ∀ t ∈ s.sessions, t.daemon ∈ s.past ∧ IsUtun t.interfaceName
  order : ∀ (i j : Nat) (t u : NrptSession), s.sessions[i]? = some t → s.sessions[j]? = some u →
    i < j → t.SameKey u → t.point.active = false
  points : ∀ t ∈ s.sessions, At s t
  cleaned : ∀ (i : Nat) (t : NrptSession), s.sessions[i]? = some t → t.point = .cleaned →
    Unruled s t ∨ ∃ (j : Nat) (u : NrptSession), i < j ∧ s.sessions[j]? = some u ∧ t.SameKey u

theorem Sound.of_frames (h : Sound s) (hgrows : Grows s s')
    (hsessions : s'.sessions = s.sessions)
    (hlisted : ∀ rule ∈ s'.rules, rule ∉ s.rules → Listed s' [rule])
    (hlive : ∀ process ∈ s'.live, process ∈ s'.past)
    (hvalid : ∀ process ∈ s'.past, process.Valid)
    (hdistinct : ∀ p ∈ s'.live, ∀ q ∈ s'.live, p.pid = q.pid → p = q)
    (hframes : ∀ t ∈ s.sessions, Frames s s' t) : Sound s' where
  listed := by
    intro rule hrule
    by_cases hold : rule ∈ s.rules
    · exact (h.listed.grows hgrows) rule hold
    · exact hlisted rule hrule hold rule List.mem_cons_self
  live := hlive
  valid := hvalid
  distinct := hdistinct
  proper := by
    intro t ht
    rw [hsessions] at ht
    exact ⟨hgrows.past _ (h.proper t ht).1, (h.proper t ht).2⟩
  order := by
    rw [hsessions]
    exact h.order
  points := by
    intro t ht
    rw [hsessions] at ht
    exact (h.points t ht).frame (hframes t ht)
  cleaned := by
    rw [hsessions]
    intro i t hi hpoint
    rcases h.cleaned i t hi hpoint with hnone | hlater
    · have hframe := hframes t (List.mem_of_getElem? hi)
      exact Or.inl fun rule hrule hcomment =>
        hnone rule (hframe.mine rule hrule hcomment) hcomment
    · exact Or.inr hlater

theorem sound_start : Sound start where
  listed := fun _ h => (by cases h)
  live := fun _ h => (by cases h)
  valid := fun _ h => (by cases h)
  distinct := fun _ h => (by cases h)
  proper := fun _ h => (by cases h)
  order := fun _ _ _ _ h => (by cases h)
  points := fun _ h => (by cases h)
  cleaned := fun _ _ h => (by cases h)

theorem Sound.is_proper (h : Sound s) {t : NrptSession} (ht : t ∈ s.sessions) : Proper t :=
  ⟨h.valid _ (h.proper t ht).1, (h.proper t ht).2⟩

theorem Sound.listed_one (h : Sound s) {rule : NrptRule} (hrule : rule ∈ s.rules) :
    Listed s [rule] := by
  intro other hother
  rw [List.mem_singleton.mp hother]
  exact h.listed rule hrule

theorem Sound.birth (h : Sound s) {process : Instance} (hvalid : process.Valid)
    (hnew : process ∉ s.past) (hfree : ∀ other ∈ s.live, other.pid ≠ process.pid) :
    Sound { s with live := process :: s.live, past := process :: s.past } := by
  refine h.of_frames (Grows.birth hnew) rfl (fun rule hrule hno => absurd hrule hno) ?_ ?_ ?_ ?_
  · intro other hother
    rcases List.mem_cons.mp hother with rfl | hother
    · exact List.mem_cons_self
    · exact List.mem_cons_of_mem _ (h.live other hother)
  · intro other hother
    rcases List.mem_cons.mp hother with rfl | hother
    · exact hvalid
    · exact h.valid other hother
  · intro p hp q hq hpid
    rcases List.mem_cons.mp hp with hp | hp
    · rcases List.mem_cons.mp hq with hq | hq
      · rw [hp, hq]
      · exact absurd (hpid.symm.trans (congrArg Instance.pid hp)) (hfree q hq)
    · rcases List.mem_cons.mp hq with hq | hq
      · exact absurd (hpid.trans (congrArg Instance.pid hq)) (hfree p hp)
      · exact h.distinct p hp q hq hpid
  · intro t ht
    refine ⟨Grows.birth hnew, fun _ h _ => h, fun hlive => ⟨?_, rfl⟩⟩
    rcases List.mem_cons.mp hlive with heq | hlive
    · exact absurd (heq ▸ (h.proper t ht).1) hnew
    · exact hlive

theorem Sound.exit (h : Sound s) (process : Instance) :
    Sound { s with live := s.live.filter (· != process) } := by
  refine h.of_frames (Grows.exit s process) rfl (fun rule hrule hno => absurd hrule hno)
    (fun other hother => h.live other (List.mem_of_mem_filter hother)) h.valid
    (fun p hp q hq => h.distinct p (List.mem_of_mem_filter hp) q (List.mem_of_mem_filter hq))
    fun t _ => ?_
  exact ⟨Grows.exit s process, fun _ h _ => h, fun hlive => ⟨List.mem_of_mem_filter hlive, rfl⟩⟩

/-- A rule that is added has a new name, and its owner is known. -/
theorem listed_add (h : Sound s) {rule : NrptRule} (hfresh : rule.name ∉ s.used)
    (howner : ∀ daemon : Instance, ∀ name, daemon.Valid → IsUtun name →
      rule.comment = ownComment daemon.pid daemon.createdAt name → daemon ∈ s.past) :
    ∀ other ∈ (s.add rule).rules, other ∉ s.rules → Listed (s.add rule) [other] := by
  intro other hother hno
  have heq : other = rule := by
    rcases List.mem_append.mp hother with hold | hnew
    · exact absurd hold hno
    · exact List.mem_singleton.mp hnew
  intro third hthird
  rw [List.mem_singleton.mp hthird, heq]
  refine ⟨List.mem_cons_self, ?_, howner⟩
  intro fourth hfourth hname
  rcases List.mem_append.mp hfourth with hold | hnew
  · exact absurd (hname ▸ (h.listed fourth hold).1) hfresh
  · exact List.mem_singleton.mp hnew

theorem Sound.addOther (h : Sound s) {rule : NrptRule} (hfresh : rule.name ∉ s.used)
    (hunknown : staleOwner culture rule.comment = none) : Sound (s.add rule) := by
  refine h.of_frames (Grows.add hfresh) rfl (listed_add h hfresh ?_) h.live h.valid h.distinct ?_
  · intro daemon name hvalid hutun hcomment
    exact absurd hcomment (ownComment_ne_of_unknown hvalid hutun hunknown)
  · intro t ht
    obtain ⟨hvalid, hutun⟩ := h.is_proper ht
    exact Frames.add hfresh (ownComment_ne_of_unknown hvalid hutun hunknown)

theorem Sound.removeOther (h : Sound s) {rule : NrptRule} (hrule : rule ∈ s.rules)
    (hunknown : staleOwner culture rule.comment = none) : Sound (s.remove rule) := by
  refine h.of_frames (Grows.remove s rule) rfl
    (fun other hother hno => absurd (List.mem_of_mem_filter hother) hno) h.live h.valid
    h.distinct ?_
  intro t ht
  obtain ⟨hvalid, hutun⟩ := h.is_proper ht
  exact Frames.remove (h.listed_one hrule) fun _ => ownComment_ne_of_unknown hvalid hutun hunknown

theorem getElem?_concat_cases {α : Type} {l : List α} {a b : α} {i : Nat}
    (h : (l ++ [a])[i]? = some b) : l[i]? = some b ∨ i = l.length ∧ b = a := by
  rcases Nat.lt_trichotomy i l.length with hlt | heq | hgt
  · rw [List.getElem?_append_left hlt] at h
    exact Or.inl h
  · rw [heq, List.getElem?_concat_length] at h
    exact Or.inr ⟨heq, (Option.some.inj h).symm⟩
  · rw [List.getElem?_eq_none (by simp; omega)] at h
    cases h

theorem getElem?_append_of_some {α : Type} {l m : List α} {a : α} {i : Nat}
    (h : l[i]? = some a) : (l ++ m)[i]? = some a := by
  rw [List.getElem?_append_left (List.getElem?_eq_some_iff.mp h).1]
  exact h

theorem isUtun_of_validated {name : String} (h : validateInterfaceName false name = .ok ()) :
    IsUtun name := by
  obtain ⟨suffix, hname, _, hne, hdigits, _⟩ := validateInterfaceName_eq_ok.mp h
  exact ⟨suffix, ⟨hne, hdigits⟩, hname⟩

theorem Sound.opens (h : Sound s) {daemon : Instance} {interfaceName : String}
    (namespaces servers : List String) (hlive : daemon ∈ s.live)
    (hname : validateInterfaceName false interfaceName = .ok ())
    (hfree : s.reserved daemon interfaceName = false) :
    Sound { s with
      sessions := s.sessions ++ [⟨daemon, interfaceName, namespaces, servers, .preparing⟩] } where
  listed := h.listed
  live := h.live
  valid := h.valid
  distinct := h.distinct
  proper := by
    intro t ht
    rcases List.mem_append.mp ht with ht | ht
    · exact h.proper t ht
    · rw [List.mem_singleton.mp ht]
      exact ⟨h.live daemon hlive, isUtun_of_validated hname⟩
  order := by
    intro i j t u hi hj hlt hsame
    rcases getElem?_concat_cases hi with hi' | ⟨hi', _⟩
    · rcases getElem?_concat_cases hj with hj' | ⟨_, hu⟩
      · exact h.order i j t u hi' hj' hlt hsame
      · subst hu
        have hany := List.any_eq_false.mp hfree t (List.mem_of_getElem? hi')
        cases hactive : t.point.active with
        | false => rfl
        | true => simp [hactive, hsame.1, hsame.2] at hany
    · have hbound := (List.getElem?_eq_some_iff.mp hj).1
      rw [List.length_append, List.length_singleton] at hbound
      omega
  points := by
    intro t ht
    rcases List.mem_append.mp ht with ht | ht
    · exact (h.points t ht :)
    · rw [List.mem_singleton.mp ht]
      trivial
  cleaned := by
    intro i t hi hpoint
    rcases getElem?_concat_cases hi with hi' | ⟨_, ht⟩
    · rcases h.cleaned i t hi' hpoint with hnone | ⟨j, u, hlt, hj, hsame⟩
      · exact Or.inl hnone
      · exact Or.inr ⟨j, u, hlt, getElem?_append_of_some hj, hsame⟩
    · subst ht
      cases hpoint

/-! ### Moves of a session -/

theorem at_of_idle (h : session.point.idle = true) : At s session := by
  unfold At
  split
  all_goals
    first
    | trivial
    | (rename_i hpoint
       rw [hpoint] at h
       cases h)

theorem at_of_not_active (h : session.point.active = false) : At s session := by
  unfold At
  split
  all_goals
    first
    | trivial
    | (rename_i hpoint
       rw [hpoint] at h
       cases h)

/-- A script that finds a rule to be stale has seen that its owner is gone. -/
theorem ownerGone_of_seen {rule : NrptRule} {pid start : Nat}
    {process : Except ProcessException Process}
    (hdistinct : ∀ p ∈ s.live, ∀ q ∈ s.live, p.pid = q.pid → p = q)
    (howner : staleOwner culture rule.comment = some (pid, start))
    (hseen : observes s.live pid process = true)
    (hstale : isStale culture (fun _ => process) rule.comment = true) : OwnerGone s rule := by
  intro daemon name hvalid hutun hcomment hlive
  obtain ⟨pid', start', howner', hdenied, hdead⟩ := isStale_iff_owner.mp hstale
  rw [howner] at howner'
  cases howner'
  rw [staleOwner_eq_some, hcomment] at howner
  obtain ⟨rfl, rfl⟩ := eq_of_hasForm_ownComment hutun howner
  unfold observes at hseen
  split at hseen
  next _ start =>
    rw [List.contains_iff_mem] at hseen
    have hsame := hdistinct daemon hlive ⟨daemon.pid, start⟩ hseen rfl
    refine hdead ⟨_, rfl, rfl, ?_⟩
    rw [hsame]
  next =>
    rw [Bool.or_eq_true, List.all_eq_true] at hseen
    rcases hseen with hseen | hseen
    · exact hdenied ((isDenied_iff _).mp hseen)
    · have hne := hseen daemon hlive
      simp at hne

theorem Turn.at_point (hturn : Turn culture s session answer s' point) (h : Sound s)
    (hsession : session ∈ s.sessions) : At s' { session with point := point } := by
  have hat := h.points session hsession
  have hproper := h.is_proper hsession
  have hself : culture.equal session.comment session.comment = true :=
    (equal_comment hproper hproper).mpr ⟨rfl, rfl⟩
  unfold At at hat
  cases hturn with
  | plain _ hidle _ => exact at_of_idle hidle
  | lists _ => exact h.listed
  | keeps hpoint _ _ =>
      rw [hpoint] at hat
      exact fun rule hrule => hat rule (List.mem_cons_of_mem _ hrule)
  | condemns hpoint howner hseen hstale =>
      rw [hpoint] at hat
      exact ⟨hat, ownerGone_of_seen h.distinct howner hseen hstale⟩
  | @sweeps rule left hpoint _ =>
      rw [hpoint] at hat
      have hleft : Listed s left := fun rule hrule => hat.1 rule (List.mem_cons_of_mem _ hrule)
      exact hleft.grows (Grows.remove s rule)
  | swept _ => trivial
  | listsOwn _ => exact ⟨h.listed, fun _ hrule _ => hrule⟩
  | @spares cleanup rule left hpoint hother =>
      rw [hpoint] at hat
      refine ⟨fun rule hrule => hat.1 rule (List.mem_cons_of_mem _ hrule), ?_⟩
      intro other hmem hcomment
      rcases List.mem_cons.mp (hat.2 other hmem hcomment) with heq | hleft
      · have hown : rule.comment = session.comment := heq ▸ hcomment
        rw [hown, hself] at hother
        cases hother
      · exact hleft
  | @clears cleanup rule left hpoint hown hrule =>
      rw [hpoint] at hat
      have hleft : Listed s left := fun rule hrule => hat.1 rule (List.mem_cons_of_mem _ hrule)
      refine ⟨hleft.grows (Grows.remove s rule), ?_⟩
      intro other hmem hcomment
      obtain ⟨hold, hname⟩ := List.mem_filter.mp hmem
      rcases List.mem_cons.mp (hat.2 other hold hcomment) with heq | hleft
      · rw [heq] at hname
        simp at hname
      · exact hleft
  | goesOn hpoint =>
      rw [hpoint] at hat
      have hnone : served s.rules session.comment = [] := by
        refine served_eq_nil fun rule hrule hcomment => ?_
        have hmem := hat.2 rule hrule hcomment
        cases hmem
      by_cases hsets : session.setsRules = true
      · rw [if_pos hsets]
        exact fun _ => ⟨hsets, [], rfl, hnone⟩
      · rw [if_neg hsets]
        intro _
        show served s.rules session.comment = session.expected
        rw [hnone, NrptSession.expected, if_neg hsets]
  | cleans _ => trivial
  | @adds nameSpace left name hpoint hfresh =>
      rw [hpoint] at hat
      intro hlive
      obtain ⟨hsets, done, hnamespaces, hserved⟩ := hat hlive
      refine ⟨hsets, done ++ [nameSpace], ?_, ?_⟩
      · show session.namespaces = done ++ [nameSpace] ++ left
        rw [hnamespaces, List.append_assoc]
        rfl
      · show served (s.add (session.rule nameSpace name)).rules session.comment = _
        have hown : (session.rule nameSpace name).comment = session.comment := rfl
        rw [served_add, if_pos hown, hserved, List.map_append]
        rfl
  | runs hpoint =>
      rw [hpoint] at hat
      intro hlive
      obtain ⟨hsets, done, hnamespaces, hserved⟩ := hat hlive
      show served s.rules session.comment = session.expected
      rw [hserved, NrptSession.expected, if_pos hsets, hnamespaces, List.append_nil]

/-- When the clean-up has gone well, the rules of the session are gone. -/
theorem Turn.unruled (hturn : Turn culture s session answer s' point) (h : Sound s)
    (hsession : session ∈ s.sessions) (hcleaned : point = .cleaned) : Unruled s' session := by
  have hat := h.points session hsession
  unfold At at hat
  cases hturn with
  | plain _ hidle _ =>
      rw [hcleaned] at hidle
      cases hidle
  | cleans hpoint =>
      rw [hpoint] at hat
      intro rule hrule hcomment
      have hmem := hat.2 rule hrule hcomment
      cases hmem
  | goesOn _ =>
      split at hcleaned
      · cases hcleaned
      · cases hcleaned
  | _ => cases hcleaned

theorem ownComment_owner {daemon daemon' : Instance} {name name' : String} (hname : IsUtun name)
    (hname' : IsUtun name')
    (h : ownComment daemon.pid daemon.createdAt name =
      ownComment daemon'.pid daemon'.createdAt name') : daemon = daemon' := by
  have hself : asciiCulture.equal (ownComment daemon.pid daemon.createdAt name)
      (ownComment daemon'.pid daemon'.createdAt name') = true := by
    rw [h]
    exact (equal_ownComment hname' hname').mpr ⟨rfl, rfl, rfl⟩
  obtain ⟨hpid, hcreated, _⟩ := (equal_ownComment hname' hname).mp hself
  cases daemon
  cases daemon'
  simp_all

theorem Turn.grows (hturn : Turn culture s session answer s' point) : Grows s s' := by
  have hsame : Grows s s :=
    ⟨fun _ h => h, fun _ h => h, fun _ h => Or.inl h, fun _ h => Or.inl h⟩
  cases hturn with
  | swept _ => exact ⟨hsame.used, hsame.past, hsame.rules, hsame.live⟩
  | @sweeps rule _ _ _ | @clears _ rule _ _ _ _ => exact Grows.remove s rule
  | adds _ hfresh => exact Grows.add hfresh
  | _ => exact hsame

theorem step_grows {label : NrptLabel} (hstep : step culture s label = some s') : Grows s s' := by
  cases label with
  | birth process =>
      obtain ⟨⟨_, hnew, _⟩, hs⟩ := Option.ite_none_right_eq_some.mp hstep
      cases hs
      exact Grows.birth hnew
  | exit process =>
      cases hstep
      exact Grows.exit s process
  | addOther rule =>
      obtain ⟨⟨hfresh, _⟩, hs⟩ := Option.ite_none_right_eq_some.mp hstep
      cases hs
      exact Grows.add hfresh
  | removeOther rule =>
      obtain ⟨_, hs⟩ := Option.ite_none_right_eq_some.mp hstep
      cases hs
      exact Grows.remove s rule
  | «open» daemon interfaceName namespaces servers =>
      obtain ⟨_, hs⟩ := Option.ite_none_right_eq_some.mp hstep
      cases hs
      exact ⟨fun _ h => h, fun _ h => h, fun _ h => Or.inl h, fun _ h => Or.inl h⟩
  | move index answer =>
      obtain ⟨session, s₁, point, hsession, hturn, rfl⟩ := step_move hstep
      have hgrows := hturn.grows
      exact ⟨hgrows.used, hgrows.past, hgrows.rules, hgrows.live⟩

theorem Turn.processes (hturn : Turn culture s session answer s' point) :
    s'.live = s.live ∧ s'.past = s.past := by
  cases hturn <;> exact ⟨rfl, rfl⟩

theorem Turn.listed (hturn : Turn culture s session answer s' point) (h : Sound s)
    (hsession : session ∈ s.sessions) : Listed s' s'.rules := by
  intro rule hrule
  by_cases hold : rule ∈ s.rules
  · exact (h.listed.grows hturn.grows) rule hold
  · cases hturn with
    | @sweeps other _ _ _ | @clears _ other _ _ _ _ =>
        exact absurd (List.mem_of_mem_filter hrule) hold
    | adds _ hfresh =>
        refine listed_add h hfresh ?_ rule hrule hold rule List.mem_cons_self
        intro daemon name _ hutun hcomment
        rw [← ownComment_owner (h.is_proper hsession).utun hutun hcomment]
        exact (h.proper session hsession).1
    | _ => exact absurd hrule hold

theorem Sound.turn (h : Sound s) {index : Nat} (hsession : s.sessions[index]? = some session)
    (hturn : Turn culture s session answer s' point) :
    Sound { s' with sessions := s'.sessions.set index { session with point := point } } := by
  have hmem := List.mem_of_getElem? hsession
  have hset : ∀ i t, (s'.sessions.set index { session with point := point })[i]? = some t →
      i = index ∧ t = { session with point := point } ∨ i ≠ index ∧ s.sessions[i]? = some t := by
    intro i t ht
    rw [hturn.sessions, List.getElem?_set] at ht
    split at ht
    next heq =>
      split at ht
      · exact Or.inl ⟨heq.symm, (Option.some.inj ht).symm⟩
      · cases ht
    next hne => exact Or.inr ⟨Ne.symm hne, ht⟩
  have hmems : ∀ t ∈ s'.sessions.set index { session with point := point },
      t = { session with point := point } ∨
        ∃ i, i ≠ index ∧ s.sessions[i]? = some t := by
    intro t ht
    obtain ⟨i, hi⟩ := List.mem_iff_getElem?.mp ht
    rcases hset i t hi with ⟨_, heq⟩ | ⟨hne, hold⟩
    · exact Or.inl heq
    · exact Or.inr ⟨i, hne, hold⟩
  have hearlier : ∀ {i t}, s.sessions[i]? = some t → i ≠ index → t.SameKey session →
      i < index ∧ t.point.active = false := by
    intro i t hi hne hsame
    rcases Nat.lt_or_gt_of_ne hne with hlt | hgt
    · exact ⟨hlt, h.order i index t session hi hsession hlt hsame⟩
    · have hended := h.order index i session t hsession hi hgt ⟨hsame.1.symm, hsame.2.symm⟩
      rw [hturn.active] at hended
      cases hended
  have hframes : ∀ {i : Nat} {t : NrptSession}, s.sessions[i]? = some t → ¬ t.SameKey session →
      Frames s s' t := fun hi hsame =>
    hturn.frames h.listed (h.points session hmem) (h.is_proper hmem)
      (h.is_proper (List.mem_of_getElem? hi)) hsame
  refine ⟨hturn.listed h hmem, ?_, ?_, ?_, ?_, ?_, ?_, ?_⟩
  · simp only [hturn.processes.1, hturn.processes.2]
    exact h.live
  · simp only [hturn.processes.2]
    exact h.valid
  · simp only [hturn.processes.1]
    exact h.distinct
  · intro t ht
    simp only [hturn.processes.2]
    rcases hmems t ht with rfl | ⟨i, _, hi⟩
    · exact h.proper session hmem
    · exact h.proper t (List.mem_of_getElem? hi)
  · intro i j t u hi hj hlt hsame
    rcases hset i t hi with ⟨hi', ht⟩ | ⟨_, hi'⟩
    · -- it is not the last one of its interface, and would have ended
      rcases hset j u hj with ⟨hj', _⟩ | ⟨_, hj'⟩
      · omega
      · subst ht
        have hended := h.order index j session u hsession hj' (hi' ▸ hlt) hsame
        rw [hturn.active] at hended
        cases hended
    · rcases hset j u hj with ⟨hj', hu⟩ | ⟨_, hj'⟩
      · subst hu
        exact h.order i index t session hi' hsession (hj' ▸ hlt) hsame
      · exact h.order i j t u hi' hj' hlt hsame
  · intro t ht
    rcases hmems t ht with rfl | ⟨i, hne, hi⟩
    · exact (hturn.at_point h hmem :)
    · by_cases hsame : t.SameKey session
      · exact at_of_not_active (hearlier hi hne hsame).2
      · exact ((h.points t (List.mem_of_getElem? hi)).frame (hframes hi hsame) :)
  · intro i t hi hpoint
    rcases hset i t hi with ⟨hi', ht⟩ | ⟨hne, hi'⟩
    · subst ht
      exact Or.inl (hturn.unruled h hmem hpoint :)
    · by_cases hsame : t.SameKey session
      · refine Or.inr ⟨index, { session with point := point }, (hearlier hi' hne hsame).1, ?_,
          hsame⟩
        rw [hturn.sessions]
        exact List.getElem?_set_self (List.getElem?_eq_some_iff.mp hsession).1
      · rcases h.cleaned i t hi' hpoint with hnone | ⟨j, u, hlt, hj, hkey⟩
        · exact Or.inl fun rule hrule hcomment =>
            hnone rule ((hframes hi' hsame).mine rule hrule hcomment) hcomment
        · refine Or.inr ⟨j, u, hlt, ?_, hkey⟩
          have hother : index ≠ j := by
            rintro rfl
            rw [hsession] at hj
            cases hj
            exact hsame hkey
          rw [hturn.sessions]
          show (s.sessions.set index _)[j]? = some u
          rw [List.getElem?_set_ne hother]
          exact hj

theorem Sound.step (h : Sound s) {label : NrptLabel} (hstep : step culture s label = some s') :
    Sound s' := by
  cases label with
  | birth process =>
      obtain ⟨⟨hvalid, hnew, hfree⟩, hs⟩ := Option.ite_none_right_eq_some.mp hstep
      cases hs
      exact h.birth hvalid hnew hfree
  | exit process =>
      cases hstep
      exact h.exit process
  | addOther rule =>
      obtain ⟨⟨hfresh, hunknown⟩, hs⟩ := Option.ite_none_right_eq_some.mp hstep
      cases hs
      exact h.addOther hfresh hunknown
  | removeOther rule =>
      obtain ⟨⟨hrule, hunknown⟩, hs⟩ := Option.ite_none_right_eq_some.mp hstep
      cases hs
      exact h.removeOther hrule hunknown
  | «open» daemon interfaceName namespaces servers =>
      obtain ⟨⟨hlive, hname, hfree⟩, hs⟩ := Option.ite_none_right_eq_some.mp hstep
      cases hs
      exact h.opens namespaces servers hlive hname hfree
  | move index answer =>
      obtain ⟨session, s₁, point, hsession, hturn, rfl⟩ := step_move hstep
      exact h.turn hsession hturn

theorem sound_of_reachable (hs : Reachable (step culture) start s) : Sound s :=
  reachable_invariant sound_start (fun _ _ _ h hstep => h.step hstep) hs

/-! ### The sweep of a new daemon -/

/-- The rule was made by a daemon that has exited. -/
def Orphaned (s : NrptSystem) (rule : NrptRule) : Prop :=
  ∃ daemon : Instance, ∃ name, daemon.Valid ∧ IsUtun name ∧
    rule.comment = ownComment daemon.pid daemon.createdAt name ∧ daemon ∈ s.past ∧
    daemon ∉ s.live

theorem Orphaned.grows {rule : NrptRule} (h : Orphaned s rule) (hgrows : Grows s s') :
    Orphaned s' rule := by
  obtain ⟨daemon, name, hvalid, hutun, hcomment, hpast, hdead⟩ := h
  refine ⟨daemon, name, hvalid, hutun, hcomment, hgrows.past daemon hpast, fun hlive => ?_⟩
  rcases hgrows.live daemon hlive with hold | hnew
  · exact hdead hold
  · exact hnew hpast

/-- An orphaned rule is kept only if its owner may not be looked at. -/
theorem Orphaned.denied {rule : NrptRule} {process : Except ProcessException Process}
    (h : Orphaned s rule)
    (hkept : ∀ pid start, staleOwner culture rule.comment = some (pid, start) →
      observes s.live pid process = true ∧
        isStale culture (fun _ => process) rule.comment = false) : isDenied process = true := by
  obtain ⟨daemon, name, hvalid, hutun, hcomment, _, hdead⟩ := h
  have howner : staleOwner culture rule.comment = some (daemon.pid, daemon.createdAt) := by
    rw [staleOwner_eq_some, hcomment]
    exact hasForm_ownComment hvalid.1 hvalid.2.1 hvalid.2.2 hutun
  obtain ⟨hseen, hstale⟩ := hkept _ _ howner
  rw [Bool.eq_false_iff, Ne, isStale_iff_owner] at hstale
  by_contra hallowed
  refine hstale ⟨_, _, howner, fun hdenied => hallowed ((isDenied_iff _).mpr hdenied), ?_⟩
  rintro ⟨⟨exited, start⟩, hfound, hexited, hstart⟩
  simp only at hfound hexited hstart
  rw [hfound, hexited, hstart] at hseen
  exact hdead (List.contains_iff_mem.mp hseen)

/-- What the sweep still has to do about a rule. -/
def Pending (rule : NrptRule) : NrptPoint → Prop
  | .sweeping left => rule ∈ left
  | .sweepRemoves next left => rule = next ∨ rule ∈ left
  | .ended => True
  | _ => False

theorem Pending.waits {rule : NrptRule} (h : Pending rule point) :
    point.locks = true ∨ point = .ended := by
  cases point with
  | sweeping _ | sweepRemoves _ _ => exact Or.inl rfl
  | ended => exact Or.inr rfl
  | preparing | sweepStarts | prepared | clearStarts _ | clearing _ _ | setting _ | running
  | cleaned => exact h.elim

/-- A rule that is gone does not come back. -/
theorem mem_of_grows {rule : NrptRule} (hgrows : Grows s s') (hused : rule.name ∈ s.used)
    (h : rule ∈ s'.rules) : rule ∈ s.rules := by
  rcases hgrows.rules rule h with hold | hfresh
  · exact hold
  · exact absurd hused hfresh

theorem Turn.pending {rule : NrptRule} (hturn : Turn culture s session answer s' point)
    (hused : rule.name ∈ s.used) (horphaned : Orphaned s rule)
    (hallowed : ∀ process, answer = .seen process → isDenied process = false)
    (h : rule ∈ s.rules → Pending rule session.point) (hrule : rule ∈ s'.rules) :
    Pending rule point := by
  have hpending := h (mem_of_grows hturn.grows hused hrule)
  cases hturn with
  | plain hactive hidle hlock =>
      rcases hpending.waits with hlocks | hended
      · rw [hlock hlocks]
        trivial
      · rw [hended] at hactive
        cases hactive
  | lists _ => exact hrule
  | @keeps next left process hpoint hanswer hkept =>
      rw [hpoint] at hpending
      rcases List.mem_cons.mp hpending with heq | hleft
      · subst heq
        have hdenied := horphaned.denied hkept
        rw [hallowed process hanswer] at hdenied
        cases hdenied
      · exact hleft
  | condemns hpoint _ _ _ =>
      rw [hpoint] at hpending
      exact List.mem_cons.mp hpending
  | @sweeps next left hpoint _ =>
      rw [hpoint] at hpending
      rcases hpending with heq | hleft
      · have hname := (List.mem_filter.mp hrule).2
        rw [heq] at hname
        simp at hname
      · exact hleft
  | swept hpoint =>
      rw [hpoint] at hpending
      cases hpending
  | listsOwn hpoint | spares hpoint _ | clears hpoint _ _ | goesOn hpoint | cleans hpoint
  | adds hpoint _ | runs hpoint =>
      rw [hpoint] at hpending
      exact hpending.elim

/-- The sweep has yet to come to the rule, or the rule is gone. -/
structure Sweeps (rule : NrptRule) (index : Nat) (s : NrptSystem) : Prop where
  used : rule.name ∈ s.used
  orphaned : Orphaned s rule
  pending : ∃ session, s.sessions[index]? = some session ∧
    (rule ∈ s.rules → Pending rule session.point)

theorem Sweeps.step {rule : NrptRule} {index : Nat} {label : NrptLabel} (h : Sweeps rule index s)
    (hallowed : label.denies = false) (hstep : step culture s label = some s') :
    Sweeps rule index s' := by
  have hgrows := step_grows hstep
  obtain ⟨session, hsession, hpending⟩ := h.pending
  refine ⟨hgrows.used _ h.used, h.orphaned.grows hgrows, ?_⟩
  have hkeeps : rule ∈ s'.rules → Pending rule session.point :=
    fun hrule => hpending (mem_of_grows hgrows h.used hrule)
  cases label with
  | birth process =>
      obtain ⟨_, hs⟩ := Option.ite_none_right_eq_some.mp hstep
      cases hs
      exact ⟨session, hsession, hkeeps⟩
  | exit process =>
      cases hstep
      exact ⟨session, hsession, hkeeps⟩
  | addOther other =>
      obtain ⟨_, hs⟩ := Option.ite_none_right_eq_some.mp hstep
      cases hs
      exact ⟨session, hsession, hkeeps⟩
  | removeOther other =>
      obtain ⟨_, hs⟩ := Option.ite_none_right_eq_some.mp hstep
      cases hs
      exact ⟨session, hsession, hkeeps⟩
  | «open» daemon interfaceName namespaces servers =>
      obtain ⟨_, hs⟩ := Option.ite_none_right_eq_some.mp hstep
      cases hs
      exact ⟨session, getElem?_append_of_some hsession, hkeeps⟩
  | move mover answer =>
      obtain ⟨moved, s₁, point, hmoved, hturn, rfl⟩ := step_move hstep
      simp only [hturn.sessions]
      by_cases hself : mover = index
      · subst hself
        rw [hsession] at hmoved
        cases hmoved
        refine ⟨{ session with point := point },
          List.getElem?_set_self (List.getElem?_eq_some_iff.mp hsession).1, ?_⟩
        refine hturn.pending h.used h.orphaned (fun process hanswer => ?_) hpending
        subst hanswer
        exact hallowed
      · exact ⟨session, by rw [List.getElem?_set_ne hself]; exact hsession, hkeeps⟩

/-- In any order of the steps of daemons and scripts, while processes come and go and their
ids are used again:
* a session that runs has the rules that it asks for, in their order, and no other rule has
  its comment;
* when the clean-up of the last session of a daemon for an interface has gone well, there is
  no rule with its comment;
* a rule that was listed by the first clean-up of a daemon and whose own daemon had exited by
  then is gone when that clean-up has succeeded, if no process was kept from its sight: a rule
  of such a process stays. -/
theorem nrpt_rules_live_and_die {culture : Culture} {s : NrptSystem}
    (hs : Reachable (step culture) start s) :
    (∀ session ∈ s.sessions, session.point = .running → session.daemon ∈ s.live →
      served s.rules session.comment = session.expected) ∧
    (∀ (i : Nat) (session : NrptSession), s.sessions[i]? = some session →
      session.point = .cleaned →
      (∀ (j : Nat) (later : NrptSession), i < j → s.sessions[j]? = some later →
        ¬ session.SameKey later) →
      ∀ rule ∈ s.rules, rule.comment ≠ session.comment) ∧
    ∀ (i : Nat) (session session' : NrptSession) (labels : List NrptLabel) (s' : NrptSystem),
      s.sessions[i]? = some session → session.point = .sweeping s.rules →
      run (step culture) s labels = some s' → (∀ label ∈ labels, label.denies = false) →
      s'.sessions[i]? = some session' → session'.point.locks = false →
      session'.point ≠ .ended → ∀ rule ∈ s.rules, Orphaned s rule → rule ∉ s'.rules := by
  have hsound := sound_of_reachable hs
  refine ⟨?_, ?_, ?_⟩
  · intro session hsession hpoint hlive
    have hat := hsound.points session hsession
    unfold At at hat
    rw [hpoint] at hat
    exact hat hlive
  · intro i session hi hpoint hlast
    rcases hsound.cleaned i session hi hpoint with hnone | ⟨j, later, hlt, hj, hsame⟩
    · exact hnone
    · exact absurd hsame (hlast j later hlt hj)
  · intro i session session' labels s' hi hpoint hrun hallowed hi' hlocks hended rule hrule
      horphaned hkept
    have hstart : Sweeps rule i s :=
      ⟨(hsound.listed rule hrule).1, horphaned, session, hi, fun _ => by rw [hpoint]; exact hrule⟩
    have hend : Sweeps rule i s' :=
      run_invariant (fun _ _ _ hlabel h hstep => h.step hlabel hstep) hallowed hstart hrun
    obtain ⟨found, hfound, hpending⟩ := hend.pending
    rw [hi'] at hfound
    cases hfound
    rcases (hpending hkept).waits with hwaits | hwaits
    · rw [hlocks] at hwaits
      cases hwaits
    · exact hended hwaits

/-- A daemon is killed while its session runs, and the next daemon gets its process id. -/
def crashedLabels : List NrptLabel :=
  [.birth ⟨40, 900⟩, .open ⟨40, 900⟩ "utun0" [".corp"] ["10.0.0.1"], .move 0 .done, .move 0 .done,
    .move 0 .done, .move 0 .done, .move 0 .done, .move 0 .done, .move 0 (.named "r"), .move 0 .done,
    .exit ⟨40, 900⟩, .birth ⟨40, 950⟩, .open ⟨40, 950⟩ "utun0" [] [], .move 1 .done, .move 1 .done]

def crashedRule : NrptRule where
  name := "r"
  comment := ownComment 40 900 "utun0"
  nameSpace := ".corp"
  nameServers := ["10.0.0.1"]

def sweepLabels : List NrptLabel :=
  [.move 1 (.seen (.ok ⟨.ok false, .ok 950⟩)), .move 1 .done, .move 1 .done]

theorem nrpt_rules_live_and_die_crashed :
    ∃ s s', run (step asciiCulture) start crashedLabels = some s ∧ crashedRule ∈ s.rules ∧
      run (step asciiCulture) s sweepLabels = some s' ∧ crashedRule ∉ s'.rules := by
  have hcrashed : (run (step asciiCulture) start crashedLabels).map (fun s =>
      (s.rules, s.live, s.past, s.sessions[1]?.map NrptSession.point)) =
      some ([crashedRule], [⟨40, 950⟩], [⟨40, 950⟩, ⟨40, 900⟩],
        some (.sweeping [crashedRule])) := by
    decide +kernel
  have hswept : (run (step asciiCulture) start (crashedLabels ++ sweepLabels)).map (fun s =>
      s.sessions[1]?.map NrptSession.point) = some (some .prepared) := by
    decide +kernel
  obtain ⟨s, hrun, hs⟩ := Option.map_eq_some_iff.mp hcrashed
  simp only [Prod.mk.injEq] at hs
  obtain ⟨hrules, hlive, hpast, hpoint⟩ := hs
  obtain ⟨session, hsession, hpoint⟩ := Option.map_eq_some_iff.mp hpoint
  obtain ⟨s', hall, hprepared⟩ := Option.map_eq_some_iff.mp hswept
  obtain ⟨session', hsession', hprepared⟩ := Option.map_eq_some_iff.mp hprepared
  obtain ⟨mid, hmid, hsweep⟩ := run_append.mp hall
  rw [hrun] at hmid
  cases hmid
  have hrule : crashedRule ∈ s.rules := by
    rw [hrules]
    exact List.mem_cons_self
  refine ⟨s, s', hrun, hrule, hsweep, ?_⟩
  obtain ⟨_, _, hsweeps⟩ := nrpt_rules_live_and_die ⟨_, hrun⟩
  refine hsweeps 1 session session' sweepLabels s' hsession (by rw [hpoint, hrules]) hsweep ?_
    hsession' (by rw [hprepared]; rfl) (by rw [hprepared]; exact fun h => (by cases h))
    crashedRule hrule ?_
  · intro label hlabel
    simp only [sweepLabels, List.mem_cons, List.not_mem_nil, or_false] at hlabel
    rcases hlabel with rfl | rfl | rfl <;> rfl
  · refine ⟨⟨40, 900⟩, "utun0", by decide, ⟨['0'], by simp [IsDigits], by decide⟩, rfl, ?_, ?_⟩
    · rw [hpast]
      decide
    · rw [hlive]
      decide

end NrptSystem
end Windows
end Daemon
end WgKotlin
