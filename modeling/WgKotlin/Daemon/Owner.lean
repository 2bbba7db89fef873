import WgKotlin.Kotlin
import WgKotlin.Daemon.InterfaceName

/-!
# The owner of the daemon

The app passes its process id and its creation time to the daemon, and the daemon
compares the creation time with the one the system reports before it serves the
app.  On Linux both sides read it from `/proc/<pid>/stat`, the app with the text
functions of Kotlin and the daemon with those of Rust.  The line holds the name of
the process, which is free text.
-/

namespace WgKotlin
namespace Daemon

open Library

/-! ### Numbers -/

/-- `std::num::ParseIntError`, for an unsigned type. -/
inductive ParseIntError
  | empty
  | invalidDigit
  | posOverflow
  deriving DecidableEq, Repr

def parseDigit (c : Char) : Except ParseIntError Nat :=
  if c.isDigit then .ok (c.toNat - '0'.toNat) else .error .invalidDigit

/-- `str::parse` for an unsigned type with values below `limit`. -/
def parseUnsigned (limit : Nat) (text : List Char) : Except ParseIntError Nat :=
  match text with
  | [] => .error .empty
  | first :: rest =>
    if rest = [] ∧ (first = '+' ∨ first = '-') then .error .invalidDigit
    else readBounded 10 limit parseDigit .posOverflow (if first = '+' then rest else first :: rest)

/-! ### The daemon -/

/-- `anyhow::Error`, for input and output errors in `ε`. -/
inductive OpenError (ε : Type)
  | message (text : String)
  | io (context : Option String) (error : ε)
  | number (error : ParseIntError)
  deriving DecidableEq, Repr

/-- What `OwnerProcess::open` asks the system. -/
structure Linux (ε : Type) where
  pidfdOpen : Nat → Except ε Nat
  readToString : String → Except ε String
  /-- The answer of `poll` for a process that is waited for without time. -/
  poll : Nat → Int

structure OwnerProcess where
  pid : Nat
  uid : Nat
  /-- The descriptor of the process. -/
  process : Nat
  deriving DecidableEq, Repr

variable {ε : Type}

/-- `Option::context` -/
def context {α : Type} (text : String) (value : Option α) : Except (OpenError ε) α :=
  match value with
  | some a => .ok a
  | none => .error (.message text)

/-- `anyhow::ensure!` -/
def ensure (condition : Bool) (text : String) : Except (OpenError ε) Unit :=
  if condition then .ok () else .error (.message text)

/-- `str::lines`: the end of a line is a line feed, after a carriage return or not. -/
def lines (text : List Char) : List (List Char) :=
  let pieces := text.splitOn '\n'
  (pieces.dropLast.map fun line =>
      if line.getLast? = some '\r' then line.dropLast else line) ++
    pieces.getLast?.toList.filter fun line => !line.isEmpty

def stripPrefix (start text : List Char) : Option (List Char) :=
  if start.isPrefixOf text then some (text.drop start.length) else none

/-- The real user id in `/proc/<pid>/status`. -/
def realUid (status : String) : Except (OpenError ε) Nat := do
  let uids ← context "missing owner UID"
    ((lines status.toList).findSome? (stripPrefix "Uid:".toList))
  let uid ← context "missing real UID" (words isWhitespace uids)[0]?
  (parseUnsigned (2 ^ 32) uid).mapError .number

/-- The creation time in `/proc/<pid>/stat`. -/
def startTicks (stat : String) : Except (OpenError ε) Nat := do
  let tail ← context "invalid proc stat" (afterLast ')' stat.toList)
  let ticks ← context "missing process start time" (words isWhitespace tail)[19]?
  (parseUnsigned (2 ^ 64) ticks).mapError .number

def procPath (pid : Nat) (file : String) : String := "/proc/" ++ toString pid ++ "/" ++ file

def isAlive (system : Linux ε) (owner : OwnerProcess) : Bool := system.poll owner.process == 0

/-- `OwnerProcess::open` -/
def openOwner (system : Linux ε) (pid startTime : Nat) : Except (OpenError ε) OwnerProcess := do
  ensure (pid ≠ 0) "invalid owner PID"
  ensure (pid ≤ 2 ^ 31 - 1) "invalid owner PID"
  let process ← (system.pidfdOpen pid).mapError
    (.io (some "open owner pidfd (Linux 5.3+ required)"))
  let status ← (system.readToString (procPath pid "status")).mapError (.io none)
  let uid ← realUid status
  let stat ← (system.readToString (procPath pid "stat")).mapError (.io none)
  let ticks ← startTicks stat
  ensure (ticks = startTime) "owner process creation time mismatch"
  ensure (isAlive system ⟨pid, uid, process⟩) "owner has exited"
  .ok ⟨pid, uid, process⟩

def authorizes (system : Linux ε) (owner : OwnerProcess) (peerPid : Nat) : Bool :=
  peerPid == owner.pid && isAlive system owner

/-! ### The app -/

/-- The creation time as `DaemonProcess.launch` reads it. -/
def launchStartTime (stat : String) : Except Throwable Int := do
  let fields := Kotlin.splitSpaces (Kotlin.trim (Kotlin.substringAfterLast ')' stat.toList))
  let startTime ← Kotlin.elementAt fields 19
  Kotlin.toLong startTime

/-- The arguments that name the owner. -/
def ownerArguments (readString : String → Except Throwable String) (pid : Nat) :
    Except Throwable (List String) := do
  let stat ← readString (procPath pid "stat")
  let startTime ← launchStartTime stat
  .ok ["--owner-pid", toString pid, "--owner-start-time", toString startTime]

/-! ### Digits in both languages -/

section Digits

variable {digits : List Char} (hne : digits ≠ []) (h : ∀ c ∈ digits, c.isDigit = true)

include hne h

theorem parseUnsigned_digits {limit : Nat} (hlimit : decimalValue digits < limit) :
    parseUnsigned limit digits = .ok (decimalValue digits) := by
  cases digits with
  | nil => exact absurd rfl hne
  | cons first rest =>
      have hfirst := not_lt_zero_of_isDigit (h first List.mem_cons_self)
      have hplus : first ≠ '+' := by
        rintro rfl
        exact hfirst (by decide)
      have hminus : first ≠ '-' := by
        rintro rfl
        exact hfirst (by decide)
      have hread : ∀ c ∈ first :: rest, parseDigit c = .ok (c.toNat - '0'.toNat) := by
        intro c hc
        rw [parseDigit, if_pos (h c hc)]
      rw [parseUnsigned, if_neg (by simp [hplus, hminus]), if_neg hplus,
        readBounded_eq (by decide) (by omega) hread, ← decimalValue_eq_digitsValue,
        if_pos hlimit]

theorem toLong_digits (hlimit : decimalValue digits < 2 ^ 63) :
    Kotlin.toLong digits = .ok (decimalValue digits : Int) := by
  cases digits with
  | nil => exact absurd rfl hne
  | cons first rest =>
      have hfirst := not_lt_zero_of_isDigit (h first List.mem_cons_self)
      have hread : Kotlin.parseLong (first :: rest) (2 ^ 63) (first :: rest) =
          .ok (decimalValue (first :: rest)) := by
        have hchar : ∀ c ∈ first :: rest,
            Kotlin.digitOrThrow (first :: rest) c = .ok (c.toNat - '0'.toNat) := by
          intro c hc
          rw [Kotlin.digitOrThrow, Kotlin.digitOf_of_isDigit (h c hc)]
        rw [Kotlin.parseLong, readBounded_eq (by decide) (by decide) hchar,
          ← decimalValue_eq_digitsValue, if_pos hlimit]
      rw [Kotlin.toLong, if_neg hfirst, hread]
      rfl

end Digits

theorem parseUnsigned_toString {limit n : Nat} (h : n < limit) :
    parseUnsigned limit (toString n).toList = .ok n := by
  have hvalue := decimalValue_toString n
  rw [parseUnsigned_digits (toString_toList_ne_nil n) (fun c hc => isDigit_of_mem_toString hc)
    (by omega), hvalue]

/-! ### The line -/

/-- A line of `/proc/<pid>/stat`.  Nothing is assumed of the name. -/
structure StatLine where
  pid : Nat
  name : List Char
  fields : List (List Char)
  /-- What stands after the last field: nothing, or the end of the line. -/
  ending : List Char
  enough : 20 ≤ fields.length
  plain : ∀ field ∈ fields, field ≠ [] ∧
    ∀ c ∈ field, Kotlin.isWhitespace c = false ∧ isWhitespace c = false ∧ c ≠ ')'
  decimal : ∀ c ∈ fields.get ⟨19, enough⟩, c.isDigit = true
  bounded : decimalValue (fields.get ⟨19, enough⟩) < 2 ^ 63
  blank : ∀ c ∈ ending, Kotlin.isWhitespace c = true ∧ isWhitespace c = true

namespace StatLine

variable (line : StatLine)

/-- The fields as `proc(5)` counts them, from one. -/
def allFields : List (List Char) :=
  (toString line.pid).toList :: ('(' :: line.name ++ [')']) :: line.fields

def text : String := String.ofList ([' '].intercalate line.allFields ++ line.ending)

/-- The text of the 20th field after the name. -/
def ticks : List Char := line.fields.get ⟨19, line.enough⟩

def startTime : Nat := decimalValue line.ticks

theorem ticks_mem : line.ticks ∈ line.fields := List.get_mem _ _

theorem fields_ne_nil : line.fields ≠ [] := List.ne_nil_of_mem line.ticks_mem

theorem getElem?_fields : line.fields[19]? = some line.ticks :=
  List.getElem?_eq_getElem line.enough

/-- The last parenthesis of the line is the one after the name. -/
theorem afterLast_text : afterLast ')' line.text.toList =
    some (' ' :: [' '].intercalate line.fields ++ line.ending) := by
  have hsplit : line.text.toList =
      ((toString line.pid).toList ++ ' ' :: '(' :: line.name) ++
        ')' :: (' ' :: [' '].intercalate line.fields ++ line.ending) := by
    obtain ⟨first, rest, hfields⟩ := List.exists_cons_of_ne_nil line.fields_ne_nil
    rw [text, String.toList_ofList, allFields, List.intercalate_cons_cons, hfields,
      List.intercalate_cons_cons]
    simp only [List.append_assoc, List.cons_append, List.nil_append]
  rw [hsplit]
  refine afterLast_append _ fun hmem => ?_
  rw [List.cons_append, List.mem_cons, List.mem_append] at hmem
  rcases hmem with hspace | hfields | hending
  · exact absurd hspace (by decide)
  · rcases mem_intercalate hfields with hspace | ⟨field, hfield, hc⟩
    · exact absurd hspace (by decide)
    · exact ((line.plain field hfield).2 _ hc).2.2 rfl
  · exact absurd (line.blank _ hending).2 (by decide)

theorem words_tail :
    words isWhitespace (' ' :: [' '].intercalate line.fields ++ line.ending) = line.fields := by
  have hspace : isWhitespace ' ' = true := by decide
  have hfields : words isWhitespace ([' '].intercalate line.fields) = line.fields :=
    words_intercalate hspace line.fields_ne_nil fun field hfield =>
      ⟨(line.plain field hfield).1, fun c hc => ((line.plain field hfield).2 c hc).2.1⟩
  have hfront := words_append_cons hspace [] ([' '].intercalate line.fields ++ line.ending)
  rw [List.nil_append] at hfront
  rw [List.cons_append, hfront, words_eq_nil (fun c hc => (by cases hc)), List.nil_append]
  -- behind the last field there is no word
  have hblank : ∀ c ∈ line.ending, isWhitespace c = true := fun c hc => (line.blank c hc).2
  cases hending : line.ending with
  | nil => rw [List.append_nil, hfields]
  | cons c rest =>
      rw [hending] at hblank
      obtain ⟨hc, hrest⟩ := List.forall_mem_cons.mp hblank
      rw [words_append_cons hc, hfields, words_eq_nil hrest, List.append_nil]

theorem trim_tail : Kotlin.trim (' ' :: [' '].intercalate line.fields ++ line.ending) =
    [' '].intercalate line.fields := by
  have hne : ∀ field ∈ line.fields, field ≠ [] := fun field hfield => (line.plain field hfield).1
  have hplain : ∀ c, (∃ field ∈ line.fields, c ∈ field) → Kotlin.isWhitespace c = false := by
    rintro c ⟨field, hfield, hc⟩
    exact ((line.plain field hfield).2 c hc).1
  have hfront : ∀ c ∈ [' '], Kotlin.isWhitespace c = true := List.all_eq_true.mp (by decide)
  exact trimBy_append hfront (fun c hc => (line.blank c hc).1)
    (intercalate_ne_nil line.fields_ne_nil hne)
    (fun c hc => hplain c (mem_of_head?_intercalate hne hc))
    (fun c hc => hplain c (mem_of_getLast?_intercalate hne hc))

theorem splitSpaces_fields :
    Kotlin.splitSpaces ([' '].intercalate line.fields) = line.fields := by
  refine splitRuns_intercalate (by decide) line.fields_ne_nil fun field hfield => ?_
  refine ⟨(line.plain field hfield).1, fun c hc => ?_⟩
  have hspace := ((line.plain field hfield).2 c hc).1
  simp only [Kotlin.isWhitespace, Bool.or_eq_false_iff, Bool.and_eq_false_iff] at hspace
  simp only [Kotlin.isRegexSpace, Bool.or_eq_false_iff, Bool.and_eq_false_iff, beq_eq_false_iff_ne,
    decide_eq_false_iff_not] at hspace ⊢
  omega

/-! ### Both readers -/

theorem launchStartTime_text : launchStartTime line.text = .ok (line.startTime : Int) := by
  have hdigits := toLong_digits (line.plain _ line.ticks_mem).1 line.decimal line.bounded
  rw [launchStartTime, Kotlin.substringAfterLast, line.afterLast_text, Option.getD_some,
    line.trim_tail, line.splitSpaces_fields, Kotlin.elementAt, line.getElem?_fields]
  exact hdigits

theorem startTicks_text {ε : Type} :
    startTicks line.text = (.ok line.startTime : Except (OpenError ε) Nat) := by
  have hbound : decimalValue line.ticks < 2 ^ 64 := Nat.lt_trans line.bounded (by decide)
  have hdigits := parseUnsigned_digits (line.plain _ line.ticks_mem).1 line.decimal hbound
  rw [startTicks, line.afterLast_text, context, ok_bind, line.words_tail, line.getElem?_fields,
    context, ok_bind, hdigits]
  rfl

theorem ownerArguments_text {readString : String → Except Throwable String}
    (h : readString (procPath line.pid "stat") = .ok line.text) :
    ownerArguments readString line.pid =
      .ok ["--owner-pid", toString line.pid, "--owner-start-time", toString line.startTime] := by
  rw [ownerArguments, h, ok_bind, line.launchStartTime_text, ok_bind]
  rfl

end StatLine

/-! ### The owner is accepted -/

/-- A process that runs, as the daemon sees it. -/
structure Live (system : Linux ε) (owner : OwnerProcess) : Prop where
  positive : 0 < owner.pid
  bounded : owner.pid < 2 ^ 31
  opened : system.pidfdOpen owner.pid = .ok owner.process
  status : ∃ status, system.readToString (procPath owner.pid "status") = .ok status ∧
    realUid status = (.ok owner.uid : Except (OpenError ε) Nat)
  alive : system.poll owner.process = 0

theorem openOwner_live {system : Linux ε} {owner : OwnerProcess} (hlive : Live system owner)
    {stat : String} {ticks : Nat}
    (hstat : system.readToString (procPath owner.pid "stat") = .ok stat)
    (hticks : startTicks stat = (.ok ticks : Except (OpenError ε) Nat)) (startTime : Nat) :
    openOwner system owner.pid startTime =
      if startTime = ticks then .ok owner
      else .error (.message "owner process creation time mismatch") := by
  obtain ⟨status, hread, huid⟩ := hlive.status
  have hpid := hlive.positive
  have hbound := hlive.bounded
  have halive : isAlive system ⟨owner.pid, owner.uid, owner.process⟩ = true := by
    rw [isAlive, hlive.alive]
    rfl
  rw [openOwner, ensure, if_pos (by simp; omega), ok_bind, ensure, if_pos (by simp; omega), ok_bind,
    hlive.opened, Except.mapError, ok_bind, hread, Except.mapError, ok_bind, huid, ok_bind, hstat,
    Except.mapError, ok_bind, hticks, ok_bind, ensure, ensure, halive]
  by_cases h : startTime = ticks
  · rw [if_pos h, if_pos (by simp [h])]
    rfl
  · rw [if_neg h, if_neg (by simpa using fun he => h he.symm)]
    rfl

theorem ensure_eq_ok {condition : Bool} {text : String} {u : Unit} :
    ensure condition text = (.ok u : Except (OpenError ε) Unit) ↔ condition = true := by
  cases condition with
  | false => exact ⟨fun h => (by cases h), fun h => (by cases h)⟩
  | true => exact ⟨fun _ => rfl, fun _ => rfl⟩

/-- Both sides read field 22 of the line, whatever the name is, so the daemon accepts the
owner with the arguments of the app and with no other creation time. -/
theorem owner_identity_agrees (line : StatLine) :
    line.allFields[21]? = some line.ticks ∧
      launchStartTime line.text = .ok (line.startTime : Int) ∧
      startTicks line.text = (.ok line.startTime : Except (OpenError ε) Nat) ∧
      ∀ (readString : String → Except Throwable String) (system : Linux ε) (owner : OwnerProcess),
        readString (procPath line.pid "stat") = .ok line.text →
        system.readToString (procPath line.pid "stat") = .ok line.text →
        owner.pid = line.pid → Live system owner →
        ∃ pidText startText,
          ownerArguments readString line.pid =
            .ok ["--owner-pid", pidText, "--owner-start-time", startText] ∧
          parseUnsigned (2 ^ 32) pidText.toList = .ok line.pid ∧
          parseUnsigned (2 ^ 64) startText.toList = .ok line.startTime ∧
          ∀ startTime, openOwner system line.pid startTime =
            if startTime = line.startTime then .ok owner
            else .error (.message "owner process creation time mismatch") := by
  refine ⟨line.getElem?_fields, line.launchStartTime_text, line.startTicks_text, ?_⟩
  intro readString system owner hkotlin hrust hpid hlive
  have hsmall : line.startTime < 2 ^ 64 := Nat.lt_trans line.bounded (by decide)
  have hpidBound : line.pid < 2 ^ 32 := by
    have := hlive.bounded
    omega
  refine ⟨toString line.pid, toString line.startTime, line.ownerArguments_text hkotlin,
    parseUnsigned_toString hpidBound, parseUnsigned_toString hsmall, ?_⟩
  rw [← hpid] at hrust ⊢
  exact openOwner_live hlive hrust line.startTicks_text

/-- A process whose name looks like the end of a line. -/
def craftedLine : StatLine where
  pid := 4242
  name := "a) S 1 1\n(b".toList
  fields := "R".toList :: List.replicate 18 "0".toList ++ ["123456".toList, "9000".toList]
  ending := ['\n']
  enough := by decide
  plain := by
    have hall : ("R".toList :: List.replicate 18 "0".toList ++
        ["123456".toList, "9000".toList]).all (fun field => !field.isEmpty &&
          field.all fun c => !Kotlin.isWhitespace c && (!isWhitespace c && c != ')')) = true := by
      decide
    simpa only [List.all_eq_true, Bool.and_eq_true, Bool.not_eq_true', bne_iff_ne,
      List.isEmpty_eq_false_iff] using hall
  decimal := List.all_eq_true.mp (by decide)
  bounded := by decide
  blank := by
    intro c hc
    rw [List.mem_singleton.mp hc]
    decide

def craftedSystem : Linux String where
  pidfdOpen := fun _ => .ok 7
  readToString := fun path =>
    if path = procPath 4242 "stat" then .ok craftedLine.text
    else .ok "Name:\ta\nUid:\t1000\t1000\t1000\t1000\n"
  poll := fun _ => 0

theorem craftedLine_accepted :
    startTicks craftedLine.text = (.ok 123456 : Except (OpenError String) Nat) ∧
      openOwner craftedSystem 4242 123456 = .ok ⟨4242, 1000, 7⟩ := by
  have hlive : Live craftedSystem ⟨4242, 1000, 7⟩ :=
    ⟨by decide, by decide, rfl, ⟨_, rfl, by decide +kernel⟩, rfl⟩
  obtain ⟨_, _, hticks, hopen⟩ := owner_identity_agrees (ε := String) craftedLine
  obtain ⟨_, _, _, _, _, hstart⟩ :=
    hopen (fun _ => .ok craftedLine.text) craftedSystem ⟨4242, 1000, 7⟩ rfl rfl rfl hlive
  exact ⟨hticks, hstart 123456⟩

end Daemon
end WgKotlin
