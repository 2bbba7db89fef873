import WgKotlin.Daemon.Owner
import WgKotlin.Library.Lifetimes

/-!
# The owner and the numbers of processes

The number of a process is used again when it has exited, and the calls by which the
daemon learns about its owner and about a client are made one after the other, with
anything in between.  The daemon holds on to the process itself: by a descriptor on
Linux, by a handle on Windows, and by the time of its birth on macOS.  A client is let
in if it is that process and no other that has its number.
-/

namespace WgKotlin
namespace Daemon

open Library

/-- Of the processes that are running when they connect, those that are let in are the one
that has been opened, while it runs. -/
def LetsInOnly (h : History) (opened : Nat) (i : Fin h.count) (authorizes : Nat → Nat → Bool) :
    Prop :=
  ∀ connected checked j, opened ≤ connected → connected ≤ checked →
    h.stage j connected = .running →
    (authorizes checked (h.pid j) = true ↔ j = i ∧ h.stage i checked = .running)

theorem letsInOnly_of_alive {h : History} {opened : Nat} {i : Fin h.count}
    (hpresent : (h.stage i opened).isPresent = true) {alive : Nat → Bool}
    (halive : ∀ t, opened ≤ t → (alive t = true ↔ h.stage i t = .running)) :
    LetsInOnly h opened i fun t peerPid => peerPid == h.pid i && alive t := by
  intro connected checked j hoc hcc hj
  simp only [Bool.and_eq_true, beq_iff_eq, halive checked (hoc.trans hcc)]
  constructor
  · intro hlet
    obtain ⟨hpid, hrunning⟩ := hlet
    exact ⟨h.eq_of_present hoc hcc hpid hpresent (h.isPresent_of_running hrunning)
      (h.isPresent_of_running hj), hrunning⟩
  · intro hsame
    obtain ⟨rfl, hrunning⟩ := hsame
    exact ⟨rfl, hrunning⟩

/-! ### Linux -/

/-- `OwnerProcess::open`, with the system as it is at each of its four calls. -/
def openOwnerOver {ε : Type} (opening readingStatus readingStat polling : Linux ε)
    (pid startTime : Nat) : Except (OpenError ε) OwnerProcess := do
  ensure (pid ≠ 0) "invalid owner PID"
  ensure (pid ≤ 2 ^ 31 - 1) "invalid owner PID"
  let process ← (opening.pidfdOpen pid).mapError
    (.io (some "open owner pidfd (Linux 5.3+ required)"))
  let status ← (readingStatus.readToString (procPath pid "status")).mapError (.io none)
  let uid ← realUid status
  let stat ← (readingStat.readToString (procPath pid "stat")).mapError (.io none)
  let ticks ← startTicks stat
  ensure (ticks = startTime) "owner process creation time mismatch"
  ensure (isAlive polling ⟨pid, uid, process⟩) "owner has exited"
  .ok ⟨pid, uid, process⟩

/-- In a system that does not change it is the function of before. -/
theorem openOwnerOver_self {ε : Type} (system : Linux ε) (pid startTime : Nat) :
    openOwnerOver system system system system pid startTime = openOwner system pid startTime :=
  rfl

/-- What `/proc` says of each process at each time. -/
structure ProcFiles (h : History) where
  stat : Fin h.count → Nat → String
  status : Fin h.count → Nat → String

inductive Errno
  | srch
  | noent
  deriving DecidableEq, Repr

/-- The process whose file is read. -/
def fileHolder (h : History) (t : Nat) (file path : String) : Option (Fin h.count) :=
  (List.finRange h.count).find? fun i =>
    (h.stage i t).isPresent && procPath (h.pid i) file == path

/-- Linux at some time.  A descriptor stands for its process, and can be read when that has
exited. -/
def linuxAt (h : History) (files : ProcFiles h) (t : Nat) : Linux Errno where
  pidfdOpen pid :=
    match h.holder t pid with
    | some i => .ok i.val
    | none => .error .srch
  readToString path :=
    match fileHolder h t "stat" path with
    | some i => .ok (files.stat i t)
    | none =>
      match fileHolder h t "status" path with
      | some i => .ok (files.status i t)
      | none => .error .noent
  poll descriptor :=
    if hd : descriptor < h.count then
      if h.stage ⟨descriptor, hd⟩ t = .running then 0 else 1
    else -1

section Linux

variable {h : History} {files : ProcFiles h} {t pid : Nat} {i : Fin h.count}

theorem toList_procPath (pid : Nat) (file : String) :
    (procPath pid file).toList =
      "/proc/".toList ++ ((toString pid).toList ++ ('/' :: file.toList)) := by
  simp [procPath]

theorem procPath_inj {m n : Nat} {file : String} (heq : procPath m file = procPath n file) :
    m = n := by
  have hlist := congrArg String.toList heq
  rw [toList_procPath, toList_procPath] at hlist
  have htail := List.append_cancel_right (List.append_cancel_left hlist)
  exact toString_inj (String.toList_inj.mp htail)

theorem getLast?_procPath (file : String) (hne : file.toList ≠ []) (pid : Nat) :
    (procPath pid file).toList.getLast? = file.toList.getLast? := by
  rw [toList_procPath, ← List.append_assoc, ← List.singleton_append, ← List.append_assoc,
    List.getLast?_append_of_ne_nil _ hne]

theorem procPath_stat_ne_status (m n : Nat) : procPath m "stat" ≠ procPath n "status" := by
  intro heq
  have hlast := congrArg (fun path => path.toList.getLast?) heq
  simp only [getLast?_procPath "stat" (by decide),
    getLast?_procPath "status" (by decide)] at hlast
  exact absurd hlast (by decide)

/-- A file is that of the process that has the number. -/
theorem fileHolder_procPath (h : History) (t pid : Nat) (file : String) :
    fileHolder h t file (procPath pid file) = h.holder t pid := by
  unfold fileHolder History.holder
  congr 1
  funext i
  rw [Bool.and_comm]
  congr 1
  rw [Bool.eq_iff_iff, beq_iff_eq, beq_iff_eq]
  exact ⟨procPath_inj, fun hpid => by rw [hpid]⟩

theorem fileHolder_stat_of_status (h : History) (t pid : Nat) :
    fileHolder h t "stat" (procPath pid "status") = none := by
  unfold fileHolder
  rw [List.find?_eq_none]
  intro i _ hi
  simp only [Bool.and_eq_true, beq_iff_eq] at hi
  exact procPath_stat_ne_status _ _ hi.2

theorem readStat_eq_ok {text : String}
    (hread : (linuxAt h files t).readToString (procPath pid "stat") = .ok text) :
    ∃ i, h.holder t pid = some i ∧ files.stat i t = text := by
  simp only [linuxAt, fileHolder_procPath] at hread
  cases hholder : h.holder t pid with
  | some i =>
      rw [hholder] at hread
      exact ⟨i, rfl, Except.ok.inj hread⟩
  | none =>
      rw [hholder] at hread
      simp only at hread
      split at hread
      next i hstatus =>
        have hfound := List.find?_some hstatus
        simp only [Bool.and_eq_true, beq_iff_eq] at hfound
        exact absurd hfound.2.symm (procPath_stat_ne_status _ _)
      next => cases hread

theorem readStatus_eq_ok {text : String}
    (hread : (linuxAt h files t).readToString (procPath pid "status") = .ok text) :
    ∃ i, h.holder t pid = some i ∧ files.status i t = text := by
  simp only [linuxAt, fileHolder_stat_of_status, fileHolder_procPath] at hread
  cases hholder : h.holder t pid with
  | some i =>
      rw [hholder] at hread
      exact ⟨i, rfl, Except.ok.inj hread⟩
  | none =>
      rw [hholder] at hread
      cases hread

theorem pidfdOpen_eq_ok {process : Nat}
    (hopen : (linuxAt h files t).pidfdOpen pid = .ok process) :
    ∃ i, h.holder t pid = some i ∧ process = i.val := by
  simp only [linuxAt] at hopen
  split at hopen
  next i hholder => exact ⟨i, hholder, (Except.ok.inj hopen).symm⟩
  next => cases hopen

theorem isAlive_linuxAt (files : ProcFiles h) (t pid uid : Nat) (i : Fin h.count) :
    isAlive (linuxAt h files t) ⟨pid, uid, i.val⟩ = true ↔ h.stage i t = .running := by
  simp only [isAlive, linuxAt, i.isLt, dif_pos]
  by_cases hi : h.stage i t = .running
  · simp [hi]
  · simp [hi]

/-- The process that is alive at the last call is the one that all calls were about. -/
theorem linux_pins {t₀ t₁ t₂ t₃ startTime : Nat} {owner : OwnerProcess} (h₀₁ : t₀ ≤ t₁)
    (h₁₂ : t₁ ≤ t₂) (h₂₃ : t₂ ≤ t₃)
    (hopen : openOwnerOver (linuxAt h files t₀) (linuxAt h files t₁) (linuxAt h files t₂)
      (linuxAt h files t₃) pid startTime = .ok owner) :
    ∃ i, h.pid i = pid ∧
      realUid (files.status i t₁) = (.ok owner.uid : Except (OpenError Errno) Nat) ∧
      startTicks (files.stat i t₂) = (.ok startTime : Except (OpenError Errno) Nat) ∧
      h.stage i t₃ = .running ∧
      LetsInOnly h t₃ i fun t => authorizes (linuxAt h files t) owner := by
  obtain ⟨_, _, hopen⟩ := bind_eq_ok.mp hopen
  obtain ⟨_, _, hopen⟩ := bind_eq_ok.mp hopen
  obtain ⟨process, hprocess, hopen⟩ := bind_eq_ok.mp hopen
  obtain ⟨status, hstatus, hopen⟩ := bind_eq_ok.mp hopen
  obtain ⟨uid, huid, hopen⟩ := bind_eq_ok.mp hopen
  obtain ⟨stat, hstat, hopen⟩ := bind_eq_ok.mp hopen
  obtain ⟨ticks, hticks, hopen⟩ := bind_eq_ok.mp hopen
  obtain ⟨_, htime, hopen⟩ := bind_eq_ok.mp hopen
  obtain ⟨_, halive, hopen⟩ := bind_eq_ok.mp hopen
  cases hopen
  obtain ⟨i, hi, rfl⟩ := pidfdOpen_eq_ok (mapError_eq_ok.mp hprocess)
  obtain ⟨j, hj, rfl⟩ := readStatus_eq_ok (mapError_eq_ok.mp hstatus)
  obtain ⟨k, hk, rfl⟩ := readStat_eq_ok (mapError_eq_ok.mp hstat)
  rw [History.holder_eq_some] at hi hj hk
  have hrunning := (isAlive_linuxAt files t₃ pid uid i).mp (ensure_eq_ok.mp halive)
  have hpresent := h.isPresent_of_running hrunning
  -- It had the number when the two files were read.
  have hji : j = i := h.eq_of_present h₀₁ (h₁₂.trans h₂₃) (hj.1.trans hi.1.symm) hi.2 hpresent hj.2
  have hki : k = i :=
    h.eq_of_present (h₀₁.trans h₁₂) h₂₃ (hk.1.trans hi.1.symm) hi.2 hpresent hk.2
  rw [hji] at huid
  rw [hki] at hticks
  have hsame : ticks = startTime := of_decide_eq_true (ensure_eq_ok.mp htime)
  refine ⟨i, hi.1, huid, hsame ▸ hticks, hrunning, ?_⟩
  have hlets := letsInOnly_of_alive hpresent fun t _ => isAlive_linuxAt files t pid uid i
  rw [hi.1] at hlets
  exact hlets

end Linux

/-! ### macOS -/

/-- The fields of `libc::proc_bsdinfo` that are read. -/
structure ProcBsdInfo where
  pbiStatus : UInt32
  pbiRuid : UInt32
  pbiStartTvsec : UInt64
  pbiStartTvusec : UInt64
  deriving DecidableEq, Repr

/-- What the kernel knows of each process.  Two processes with one number are not born in the
same microsecond. -/
structure MacosProcesses (h : History) where
  ruid : Fin h.count → UInt32
  birth : Fin h.count → UInt64 × UInt64
  status : Fin h.count → Nat → UInt32
  zombie : ∀ i t, (h.stage i t).isPresent = true → (status i t = 5 ↔ h.stage i t = .zombie)
  distinct : ∀ i j, h.pid i = h.pid j → birth i = birth j → i = j

namespace MacosProcesses

variable {h : History} (processes : MacosProcesses h)

/-- `proc_pidinfo`, which fills the record if there is such a process. -/
def procPidinfo (t pid : Nat) : Option ProcBsdInfo :=
  (h.holder t pid).map fun i =>
    { pbiStatus := processes.status i t
      pbiRuid := processes.ruid i
      pbiStartTvsec := (processes.birth i).1
      pbiStartTvusec := (processes.birth i).2 }

def macosInfo (t pid : Nat) : Option ProcBsdInfo :=
  match processes.procPidinfo t pid with
  | none => none
  | some info => if info.pbiStatus ≠ 5 then some info else none

structure Owner where
  pid : Nat
  uid : UInt32
  birth : UInt64 × UInt64
  deriving DecidableEq, Repr

/-- `OwnerProcess::open` -/
def openOwner (t pid : Nat) (startTime : UInt64) : Except (OpenError Errno) Owner := do
  ensure (pid ≠ 0) "invalid owner PID"
  ensure (pid ≤ 2 ^ 31 - 1) "invalid owner PID"
  let info ← context "read owner process identity" (processes.macosInfo t pid)
  ensure (info.pbiStartTvsec * 1000 + info.pbiStartTvusec / 1000 = startTime)
    "owner process creation time mismatch"
  .ok
    { pid := pid
      uid := info.pbiRuid
      birth := (info.pbiStartTvsec, info.pbiStartTvusec) }

def isAlive (t : Nat) (owner : Owner) : Bool :=
  match processes.macosInfo t owner.pid with
  | none => false
  | some info => (info.pbiStartTvsec, info.pbiStartTvusec) == owner.birth

def authorizes (t : Nat) (owner : Owner) (peerPid : Nat) : Bool :=
  peerPid == owner.pid && processes.isAlive t owner

variable {processes} {t pid : Nat} {i : Fin h.count}

theorem macosInfo_eq_some {info : ProcBsdInfo} (hinfo : processes.macosInfo t pid = some info) :
    ∃ i, h.pid i = pid ∧ h.stage i t = .running ∧ info.pbiRuid = processes.ruid i ∧
      (info.pbiStartTvsec, info.pbiStartTvusec) = processes.birth i := by
  unfold macosInfo procPidinfo at hinfo
  cases hholder : h.holder t pid with
  | none =>
      rw [hholder] at hinfo
      cases hinfo
  | some i =>
      rw [hholder] at hinfo
      simp only [Option.map_some] at hinfo
      split at hinfo
      next hstatus =>
        cases hinfo
        obtain ⟨hpid, hpresent⟩ := h.holder_eq_some.mp hholder
        have hzombie : h.stage i t ≠ .zombie :=
          fun hz => hstatus ((processes.zombie i t hpresent).mpr hz)
        refine ⟨i, hpid, ?_, rfl, rfl⟩
        cases hstage : h.stage i t with
        | running => rfl
        | zombie => exact absurd hstage hzombie
        | unborn | reaped =>
            rw [hstage] at hpresent
            cases hpresent
      next => cases hinfo

theorem macosInfo_running (processes : MacosProcesses h) (hrunning : h.stage i t = .running) :
    ∃ info, processes.macosInfo t (h.pid i) = some info ∧
      (info.pbiStartTvsec, info.pbiStartTvusec) = processes.birth i := by
  have hpresent := h.isPresent_of_running hrunning
  have hholder := h.holder_eq_some.mpr ⟨rfl, hpresent⟩
  have hstatus : processes.status i t ≠ 5 := by
    intro hfive
    have hz := (processes.zombie i t hpresent).mp hfive
    rw [hrunning] at hz
    cases hz
  refine ⟨⟨processes.status i t, processes.ruid i, (processes.birth i).1, (processes.birth i).2⟩,
    ?_, rfl⟩
  simp only [macosInfo, procPidinfo, hholder, Option.map_some]
  rw [if_pos hstatus]

/-- The birth tells a process from all others that have its number. -/
theorem isAlive_iff (owner : Owner) (t : Nat) (hpid : owner.pid = h.pid i)
    (hbirth : owner.birth = processes.birth i) :
    processes.isAlive t owner = true ↔ h.stage i t = .running := by
  unfold isAlive
  rw [hpid, hbirth]
  constructor
  · intro halive
    split at halive
    next => cases halive
    next info hinfo =>
      obtain ⟨j, hj, hrunning, _, hborn⟩ := macosInfo_eq_some hinfo
      have hsame := beq_iff_eq.mp halive
      rw [processes.distinct i j hj.symm (hsame.symm.trans hborn)]
      exact hrunning
  · intro hrunning
    obtain ⟨info, hinfo, hborn⟩ := macosInfo_running processes hrunning
    rw [hinfo]
    exact beq_iff_eq.mpr hborn

theorem pins {startTime : UInt64} {owner : Owner}
    (hopen : processes.openOwner t pid startTime = .ok owner) :
    ∃ i, h.pid i = pid ∧ owner.uid = processes.ruid i ∧
      (processes.birth i).1 * 1000 + (processes.birth i).2 / 1000 = startTime ∧
      h.stage i t = .running ∧
      LetsInOnly h t i fun t => processes.authorizes t owner := by
  obtain ⟨_, _, hopen⟩ := bind_eq_ok.mp hopen
  obtain ⟨_, _, hopen⟩ := bind_eq_ok.mp hopen
  obtain ⟨info, hinfo, hopen⟩ := bind_eq_ok.mp hopen
  obtain ⟨_, htime, hopen⟩ := bind_eq_ok.mp hopen
  cases hopen
  have hinfo : processes.macosInfo t pid = some info := by
    unfold context at hinfo
    split at hinfo
    next hsome => rw [hsome, Except.ok.inj hinfo]
    next => cases hinfo
  obtain ⟨i, hpid, hrunning, huid, hbirth⟩ := macosInfo_eq_some hinfo
  have hsame := of_decide_eq_true (ensure_eq_ok.mp htime)
  refine ⟨i, hpid, huid, ?_, hrunning, ?_⟩
  · rw [← hbirth]
    exact hsame
  · have hlets := letsInOnly_of_alive (h.isPresent_of_running hrunning) fun t _ =>
      isAlive_iff ⟨pid, info.pbiRuid, _⟩ t hpid.symm hbirth
    rw [hpid] at hlets
    exact hlets

end MacosProcesses

/-! ### Windows -/

/-- What the kernel knows of each process: the two halves of its creation time, and the user
of its token. -/
structure WindowsProcesses (h : History) (ε : Type) where
  noSuchProcess : ε
  creation : Fin h.count → UInt32 × UInt32
  sid : Fin h.count → Except ε String

namespace WindowsProcesses

variable {ε : Type} {h : History} (processes : WindowsProcesses h ε)

/-- A handle stands for its process. -/
structure Owner (h : History) where
  pid : Nat
  process : Fin h.count
  sid : String
  deriving DecidableEq

def openProcess (t pid : Nat) : Except ε (Fin h.count) :=
  match h.holder t pid with
  | some i => .ok i
  | none => .error processes.noSuchProcess

def isAlive (t : Nat) (owner : Owner h) : Bool := h.stage owner.process t == .running

/-- Milliseconds since 1970 from the intervals of 100 ns since 1601. -/
def epochMillis (creation : UInt32 × UInt32) : UInt64 :=
  ((creation.1.toUInt64 <<< 32) ||| creation.2.toUInt64) / 10000 - 11644473600000

/-- `OwnerProcess::open`, with the times at which the handle is opened and waited for. -/
def openOwner (opening waiting pid : Nat) (startTime : UInt64) :
    Except (OpenError ε) (Owner h) := do
  ensure (pid ≠ 0) "invalid owner PID"
  let process ← (processes.openProcess opening pid).mapError (.io none)
  ensure (epochMillis (processes.creation process) = startTime)
    "owner process creation time mismatch"
  let sid ← (processes.sid process).mapError (.io none)
  ensure (isAlive waiting ⟨pid, process, sid⟩) "owner has exited"
  .ok ⟨pid, process, sid⟩

def authorizes (t : Nat) (owner : Owner h) (peerPid : Nat) : Bool :=
  peerPid == owner.pid && isAlive t owner

variable {processes} {t₀ t₁ pid : Nat}

theorem pins {startTime : UInt64} {owner : Owner h}
    (hopen : processes.openOwner t₀ t₁ pid startTime = .ok owner) :
    ∃ i, h.pid i = pid ∧ processes.sid i = .ok owner.sid ∧
      epochMillis (processes.creation i) = startTime ∧ h.stage i t₁ = .running ∧
      LetsInOnly h t₁ i fun t => authorizes t owner := by
  obtain ⟨_, _, hopen⟩ := bind_eq_ok.mp hopen
  obtain ⟨process, hprocess, hopen⟩ := bind_eq_ok.mp hopen
  obtain ⟨_, htime, hopen⟩ := bind_eq_ok.mp hopen
  obtain ⟨sid, hsid, hopen⟩ := bind_eq_ok.mp hopen
  obtain ⟨_, halive, hopen⟩ := bind_eq_ok.mp hopen
  cases hopen
  have hpid : h.pid process = pid := by
    have hopened := mapError_eq_ok.mp hprocess
    unfold openProcess at hopened
    split at hopened
    next hholder =>
      cases hopened
      exact (h.holder_eq_some.mp hholder).1
    next => cases hopened
  have hrunning : h.stage process t₁ = .running := beq_iff_eq.mp (ensure_eq_ok.mp halive)
  refine ⟨process, hpid, mapError_eq_ok.mp hsid, of_decide_eq_true (ensure_eq_ok.mp htime),
    hrunning, ?_⟩
  have hlets := letsInOnly_of_alive (h.isPresent_of_running hrunning)
    fun t _ => (beq_iff_eq : (h.stage process t == .running) = true ↔ _)
  rw [hpid] at hlets
  exact hlets

end WindowsProcesses

/-! ### Every platform -/

/-- However exits and births of processes come between the calls: if the owner is opened, then
all that was read is of one process with the given number and creation time, and of the
processes that connect from then on this one is let in while it runs, and no other.  macOS
has to tell the processes of one number apart by the time of their birth. -/
theorem owner_pinned (h : History) :
    (∀ (files : ProcFiles h) (t₀ t₁ t₂ t₃ pid startTime : Nat) (owner : OwnerProcess),
      t₀ ≤ t₁ → t₁ ≤ t₂ → t₂ ≤ t₃ →
      openOwnerOver (linuxAt h files t₀) (linuxAt h files t₁) (linuxAt h files t₂)
        (linuxAt h files t₃) pid startTime = .ok owner →
      ∃ i, h.pid i = pid ∧
        realUid (files.status i t₁) = (.ok owner.uid : Except (OpenError Errno) Nat) ∧
        startTicks (files.stat i t₂) = (.ok startTime : Except (OpenError Errno) Nat) ∧
        h.stage i t₃ = .running ∧
        LetsInOnly h t₃ i fun t => authorizes (linuxAt h files t) owner) ∧
    (∀ (processes : MacosProcesses h) (t pid : Nat) (startTime : UInt64)
        (owner : MacosProcesses.Owner),
      processes.openOwner t pid startTime = .ok owner →
      ∃ i, h.pid i = pid ∧ owner.uid = processes.ruid i ∧
        (processes.birth i).1 * 1000 + (processes.birth i).2 / 1000 = startTime ∧
        h.stage i t = .running ∧
        LetsInOnly h t i fun t => processes.authorizes t owner) ∧
    ∀ (ε : Type) (processes : WindowsProcesses h ε) (t₀ t₁ pid : Nat) (startTime : UInt64)
        (owner : WindowsProcesses.Owner h),
      processes.openOwner t₀ t₁ pid startTime = .ok owner →
      ∃ i, h.pid i = pid ∧ processes.sid i = .ok owner.sid ∧
        WindowsProcesses.epochMillis (processes.creation i) = startTime ∧
        h.stage i t₁ = .running ∧
        LetsInOnly h t₁ i fun t => WindowsProcesses.authorizes t owner := by
  refine ⟨?_, ?_, ?_⟩
  · intro files t₀ t₁ t₂ t₃ pid startTime owner h₀₁ h₁₂ h₂₃ hopen
    exact linux_pins h₀₁ h₁₂ h₂₃ hopen
  · intro processes t pid startTime owner hopen
    exact MacosProcesses.pins hopen
  · intro ε processes t₀ t₁ pid startTime owner hopen
    exact WindowsProcesses.pins hopen

/-- How far a process has come that is born, exits and is reaped at these times. -/
def stageAt (born exits reaped t : Nat) : Stage :=
  if t < born then .unborn else if t < exits then .running
  else if t < reaped then .zombie else .reaped

section StageAt

variable {born exits reaped s t : Nat}

theorem rank_stageAt (hst : s ≤ t) :
    (stageAt born exits reaped s).rank ≤ (stageAt born exits reaped t).rank := by
  unfold stageAt
  repeat' split
  all_goals first | decide | omega

theorem isPresent_stageAt (hexits : exits ≤ reaped) :
    (stageAt born exits reaped t).isPresent = true ↔ born ≤ t ∧ t < reaped := by
  unfold stageAt
  repeat' split
  all_goals
    simp only [Stage.isPresent, Bool.false_eq_true, true_iff, false_iff]
    omega

end StageAt

/-- The owner exits, and another process gets its number. -/
def reusedHistory : History where
  count := 2
  pid := fun _ => 4242
  stage := fun i => if i = 0 then stageAt 0 5 6 else stageAt 7 20 21
  monotone := by
    intro i s t hst
    split
    · exact rank_stageAt hst
    · exact rank_stageAt hst
  exclusive := by
    intro i j t _ hi hj
    split at hi
    · split at hj
      · omega
      · rw [isPresent_stageAt (by decide)] at hi hj
        omega
    · split at hj
      · rw [isPresent_stageAt (by decide)] at hi hj
        omega
      · omega

def firstHolder : Fin reusedHistory.count := ⟨0, by decide⟩

def secondHolder : Fin reusedHistory.count := ⟨1, by decide⟩

def reusedFiles : ProcFiles reusedHistory where
  stat := fun _ _ => craftedLine.text
  status := fun _ _ => "Name:\ta\nUid:\t1000\t1000\t1000\t1000\n"

def reusedMacos : MacosProcesses reusedHistory where
  ruid := fun _ => 501
  birth := fun i => if i = firstHolder then (1700000000, 250000) else (1700000100, 0)
  status := fun i t => if reusedHistory.stage i t = .zombie then 5 else 2
  zombie := by
    intro i t _
    split
    next hzombie => exact ⟨fun _ => hzombie, fun _ => rfl⟩
    next hother => exact ⟨fun hfive => absurd hfive (by decide), fun hz => absurd hz hother⟩
  distinct := fun i j _ => by
    revert i j
    decide

def reusedWindows : WindowsProcesses reusedHistory String where
  noSuchProcess := "The parameter is incorrect. (os error 87)"
  creation := fun i => if i = firstHolder then (30000000, 0) else (30000000, 10000000)
  sid := fun _ => .ok "S-1-5-21-1-2-3-1001"

/-- The process that gets the number is not let in. -/
theorem letsInOnly_reused {opened : Nat} {i : Fin reusedHistory.count}
    {authorizes : Nat → Nat → Bool} (hopened : opened ≤ 4)
    (hrunning : reusedHistory.stage i opened = .running)
    (hlets : LetsInOnly reusedHistory opened i authorizes) :
    authorizes 4 4242 = true ∧ authorizes 9 4242 = false := by
  have hfirst : (reusedHistory.stage firstHolder opened).isPresent = true := by
    show (stageAt 0 5 6 opened).isPresent = true
    rw [isPresent_stageAt (by decide)]
    omega
  have hi : i = firstHolder :=
    reusedHistory.exclusive i firstHolder opened rfl (reusedHistory.isPresent_of_running hrunning)
      hfirst
  rw [hi] at hlets
  refine ⟨?_, ?_⟩
  · exact (hlets 4 4 firstHolder hopened (Nat.le_refl 4) rfl).mpr ⟨rfl, rfl⟩
  · refine eq_false_of_ne_true fun hlet => ?_
    have hsame := (hlets 8 9 secondHolder (by omega) (by omega) rfl).mp hlet
    exact absurd hsame.1 (by decide)

theorem owner_pinned_reused :
    (∃ owner, openOwnerOver (linuxAt reusedHistory reusedFiles 1)
        (linuxAt reusedHistory reusedFiles 2) (linuxAt reusedHistory reusedFiles 3)
        (linuxAt reusedHistory reusedFiles 4) 4242 123456 = .ok owner ∧
      authorizes (linuxAt reusedHistory reusedFiles 4) owner 4242 = true ∧
      authorizes (linuxAt reusedHistory reusedFiles 9) owner 4242 = false) ∧
    (∃ owner, reusedMacos.openOwner 3 4242 1700000000250 = .ok owner ∧
      reusedMacos.authorizes 4 owner 4242 = true ∧
      reusedMacos.authorizes 9 owner 4242 = false) ∧
    ∃ owner, reusedWindows.openOwner 2 3 4242 1240428288000 = .ok owner ∧
      WindowsProcesses.authorizes 4 owner 4242 = true ∧
      WindowsProcesses.authorizes 9 owner 4242 = false := by
  obtain ⟨hlinux, hmacos, hwindows⟩ := owner_pinned reusedHistory
  refine ⟨?_, ?_, ?_⟩
  · have hopen : openOwnerOver (linuxAt reusedHistory reusedFiles 1)
        (linuxAt reusedHistory reusedFiles 2) (linuxAt reusedHistory reusedFiles 3)
        (linuxAt reusedHistory reusedFiles 4) 4242 123456 = .ok ⟨4242, 1000, 0⟩ := by
      decide +kernel
    obtain ⟨i, _, _, _, hrunning, hlets⟩ := hlinux reusedFiles 1 2 3 4 4242 123456 _ (by decide)
      (by decide) (by decide) hopen
    exact ⟨_, hopen, letsInOnly_reused (by decide) hrunning hlets⟩
  · have hopen : reusedMacos.openOwner 3 4242 1700000000250 =
        .ok ⟨4242, 501, (1700000000, 250000)⟩ := by
      decide +kernel
    obtain ⟨i, _, _, _, hrunning, hlets⟩ := hmacos reusedMacos 3 4242 1700000000250 _ hopen
    exact ⟨_, hopen, letsInOnly_reused (by decide) hrunning hlets⟩
  · have hopen : reusedWindows.openOwner 2 3 4242 1240428288000 =
        .ok ⟨4242, firstHolder, "S-1-5-21-1-2-3-1001"⟩ := by
      decide +kernel
    obtain ⟨i, _, _, _, hrunning, hlets⟩ := hwindows String reusedWindows 2 3 4242 1240428288000 _
      hopen
    exact ⟨_, hopen, letsInOnly_reused (by decide) hrunning hlets⟩

end Daemon
end WgKotlin
