import WgKotlin.Daemon.KernelRoutes
import WgKotlin.Daemon.InterfaceName
import WgKotlin.Library.Pattern
import WgKotlin.Library.Numerals

/-!
# The owners of NRPT rules

The comment of a rule tells the process that made it, by its id and its creation
time, and the interface.  Two scripts read it: the clean-up of a session removes the
rules with its own comment, and the clean-up at the first session removes the rules of
processes that are gone.  The comment is written in Rust and taken apart by a regular
expression of PowerShell that ignores letter case.
-/

namespace WgKotlin
namespace Daemon
namespace Windows

open Library

/-! ### Texts in PowerShell -/

/-- What the scripts take from the culture they run in: the lower case of a letter for
`-notmatch`, and `-eq` on texts.  Only on printable ASCII is more assumed of them.  The
capital I has a lower case of its own in Turkish. -/
structure Culture where
  lower : Char → Char
  equal : String → String → Bool
  lower_ascii : ∀ c, c.toNat < 128 → c ≠ 'I' → lower c = c.toLower
  lower_other : ∀ c, (lower c).toNat < 128 → (lower c).isAlpha = false → lower c = c
  equal_printable : ∀ a b : String, (∀ c ∈ a.toList ++ b.toList, 32 ≤ c.toNat ∧ c.toNat < 127) →
    (equal a b = true ↔ a.toList.map Char.toLower = b.toList.map Char.toLower)

/-- `TryParse` on a text of digits. -/
def tryParse (limit : Nat) (digits : List Char) : Option Nat :=
  (readBounded 10 limit (fun c => (.ok (c.toNat - '0'.toNat) : Except Unit Nat)) () digits).toOption

/-- `\A${prefix}([1-9][0-9]*):([0-9]+):utun[0-9]+\z` -/
def stalePattern (culture : Culture) : List Item :=
  Item.literal culture.lower nrptCommentPrefix.toList ++
    (.one (fun c => (culture.lower c).isDigit && culture.lower c != '0') ::
      .many 0 (fun c => (culture.lower c).isDigit) ::
      .one (fun c => culture.lower c == ':') ::
      .many 1 (fun c => (culture.lower c).isDigit) ::
      (Item.literal culture.lower ":utun".toList ++
        [.many 1 fun c => (culture.lower c).isDigit]))

/-- `$Matches[1]` and `$Matches[2]` -/
def staleMatches (culture : Culture) (comment : String) : Option (List Char × List Char) :=
  match (Item.run (stalePattern culture) comment.toList).map
      (·.drop nrptCommentPrefix.toList.length) with
  | some (first :: more :: _ :: start :: _) => some (first ++ more, start)
  | _ => none

/-- `$ownerPid` and `$ownerStart` -/
def staleOwner (culture : Culture) (comment : String) : Option (Nat × Nat) := do
  let (pidText, startText) ← staleMatches culture comment
  let ownerPid ← tryParse (2 ^ 31) pidText
  let ownerStart ← tryParse (2 ^ 63) startText
  some (ownerPid, ownerStart)

/-! ### Processes -/

/-- The exceptions that the script catches. -/
inductive ProcessException
  | argument
  | invalidOperation
  | win32
  deriving DecidableEq, Repr

/-- `System.Diagnostics.Process` -/
structure Process where
  hasExited : Except ProcessException Bool
  /-- `StartTime.ToFileTimeUtc()` -/
  startTime : Except ProcessException Nat
  deriving DecidableEq

/-- `GetProcessById` -/
abbrev ProcessTable := Nat → Except ProcessException Process

def ownerAlive (table : ProcessTable) (ownerPid ownerStart : Nat) :
    Except ProcessException Bool := do
  let owner ← table ownerPid
  let exited ← owner.hasExited
  if exited then .ok false
  else do
    let startTime ← owner.startTime
    .ok (startTime == ownerStart)

/-- Whether the script removes a rule with this comment. -/
def isStale (culture : Culture) (table : ProcessTable) (comment : String) : Bool :=
  match staleOwner culture comment with
  | none => false
  | some (ownerPid, ownerStart) =>
    match ownerAlive table ownerPid ownerStart with
    | .ok alive => !alive
    | .error .argument => true
    | .error .invalidOperation => true
    | .error .win32 => false

/-! ### Rules -/

structure Rule where
  name : String
  comment : String
  deriving DecidableEq, Repr

/-- The rules of the system.  A rule is removed by its name, and there is one of each. -/
structure RuleStore where
  rules : List Rule
  nodup : (rules.map Rule.name).Nodup

/-- `Remove-DnsClientNrptRule` -/
def RuleStore.remove (store : RuleStore) (rule : Rule) : RuleStore where
  rules := store.rules.filter fun other => other.name != rule.name
  nodup := (List.Sublist.map Rule.name List.filter_sublist).nodup store.nodup

/-- Remove the selected ones of the rules that were listed.  A removal that fails ends the
script. -/
def removeEach (selects fails : Rule → Bool) : List Rule → RuleStore → RuleStore × Option Rule
  | [], store => (store, none)
  | rule :: rest, store =>
    if selects rule then
      if fails rule then (store, some rule)
      else removeEach selects fails rest (store.remove rule)
    else removeEach selects fails rest store

/-- `CLEAR_STALE_NRPT_RULES_SCRIPT` -/
def clearStaleNrptRulesScript (culture : Culture) (table : ProcessTable) (fails : Rule → Bool)
    (store : RuleStore) : RuleStore × Option Rule :=
  removeEach (fun rule => isStale culture table rule.comment) fails store.rules store

/-- `CLEAR_NRPT_RULES_SCRIPT` -/
def clearNrptRulesScript (culture : Culture) (comment : String) (fails : Rule → Bool)
    (store : RuleStore) : RuleStore × Option Rule :=
  removeEach (fun rule => culture.equal rule.comment comment) fails store.rules store

/-- `rule_comment` for the process that runs it. -/
def ownComment (pid createdAt : Nat) (interfaceName : String) : String :=
  ruleComment (toString pid ++ ":" ++ toString createdAt) interfaceName

/-! ### What is removed -/

section Removal

variable {selects fails : Rule → Bool}

theorem mem_remove {store : RuleStore} {rule other : Rule} :
    other ∈ (store.remove rule).rules ↔ other ∈ store.rules ∧ other.name ≠ rule.name := by
  rw [RuleStore.remove, List.mem_filter, bne_iff_ne]

/-- A rule is removed only if a selected one has its name. -/
theorem mem_removeEach {listed : List Rule} {store : RuleStore} {rule : Rule}
    (hrule : rule ∈ store.rules)
    (hkeep : ∀ other ∈ listed, selects other = true → other.name ≠ rule.name) :
    rule ∈ (removeEach selects fails listed store).1.rules := by
  induction listed generalizing store with
  | nil => exact hrule
  | cons other rest ih =>
      obtain ⟨hother, hrest⟩ := List.forall_mem_cons.mp hkeep
      rw [removeEach]
      by_cases hselects : selects other = true
      · rw [if_pos hselects]
        split
        · exact hrule
        · exact ih (mem_remove.mpr ⟨hrule, (hother hselects).symm⟩) hrest
      · rw [if_neg hselects]
        exact ih hrule hrest

theorem mem_of_mem_removeEach {listed : List Rule} {store : RuleStore} {rule : Rule}
    (h : rule ∈ (removeEach selects fails listed store).1.rules) : rule ∈ store.rules := by
  induction listed generalizing store with
  | nil => exact h
  | cons other rest ih =>
      rw [removeEach] at h
      split at h
      · split at h
        · exact h
        · exact (mem_remove.mp (ih h)).1
      · exact ih h

/-- If every removal succeeds, the selected ones are gone. -/
theorem not_mem_removeEach (hfails : ∀ rule, fails rule = false) {listed : List Rule}
    {store : RuleStore} {rule : Rule} (hlisted : rule ∈ listed) (hselects : selects rule = true) :
    rule ∉ (removeEach selects fails listed store).1.rules := by
  induction listed generalizing store with
  | nil => cases hlisted
  | cons other rest ih =>
      rw [removeEach, hfails]
      rcases List.mem_cons.mp hlisted with heq | hrest
      · subst heq
        rw [if_pos hselects, if_neg Bool.false_ne_true]
        intro hmem
        exact (mem_remove.mp (mem_of_mem_removeEach hmem)).2 rfl
      · split
        · rw [if_neg Bool.false_ne_true]
          exact ih hrest
        · exact ih hrest

theorem eq_of_name_eq {store : RuleStore} {rule other : Rule} (hrule : rule ∈ store.rules)
    (hother : other ∈ store.rules) (h : other.name = rule.name) : other = rule :=
  List.inj_on_of_nodup_map store.nodup hother hrule h

/-- What a script over all rules keeps, whether its removals succeed or not. -/
theorem mem_removeEach_rules {store : RuleStore} {rule : Rule} (hrule : rule ∈ store.rules)
    (hselects : selects rule = false) :
    rule ∈ (removeEach selects fails store.rules store).1.rules := by
  refine mem_removeEach hrule fun other hother hselected hname => ?_
  rw [eq_of_name_eq hrule hother hname, hselects] at hselected
  cases hselected

theorem removed_iff (hfails : ∀ rule, fails rule = false) {store : RuleStore} {rule : Rule}
    (hrule : rule ∈ store.rules) :
    rule ∉ (removeEach selects fails store.rules store).1.rules ↔ selects rule = true := by
  refine ⟨fun hgone => ?_, fun hselects => not_mem_removeEach hfails hrule hselects⟩
  rw [← Bool.not_eq_false]
  exact fun hselects => hgone (mem_removeEach_rules hrule hselects)

end Removal

/-! ### Owners -/

/-- A process with this id runs, and was created then. -/
def LiveOwner (table : ProcessTable) (pid start : Nat) : Prop :=
  ∃ process, table pid = .ok process ∧ process.hasExited = .ok false ∧
    process.startTime = .ok start

/-- Access to the identity of the process is denied. -/
def DeniedOwner (table : ProcessTable) (pid : Nat) : Prop :=
  table pid = .error .win32 ∨ ∃ process, table pid = .ok process ∧
    (process.hasExited = .error .win32 ∨
      process.hasExited = .ok false ∧ process.startTime = .error .win32)

theorem ownerAlive_eq_true {table : ProcessTable} {pid start : Nat} :
    ownerAlive table pid start = .ok true ↔ LiveOwner table pid start := by
  constructor
  · intro h
    obtain ⟨process, hprocess, h⟩ := bind_eq_ok.mp h
    obtain ⟨exited, hexited, h⟩ := bind_eq_ok.mp h
    cases exited with
    | true => cases h
    | false =>
        obtain ⟨startTime, hstart, h⟩ := bind_eq_ok.mp h
        rw [Except.ok.injEq, beq_iff_eq] at h
        exact ⟨process, hprocess, hexited, h ▸ hstart⟩
  · rintro ⟨process, hprocess, hexited, hstart⟩
    rw [ownerAlive, hprocess, ok_bind, hexited, ok_bind, if_neg Bool.false_ne_true, hstart, ok_bind,
      beq_self_eq_true]

theorem ownerAlive_eq_win32 {table : ProcessTable} {pid : Nat} (start : Nat) :
    ownerAlive table pid start = .error .win32 ↔ DeniedOwner table pid := by
  constructor
  · intro h
    cases htable : table pid with
    | error e =>
        rw [ownerAlive, htable] at h
        cases h
        exact Or.inl htable
    | ok process =>
        refine Or.inr ⟨process, htable, ?_⟩
        rw [ownerAlive, htable, ok_bind] at h
        cases hexited : process.hasExited with
        | error e =>
            rw [hexited] at h
            cases h
            exact Or.inl rfl
        | ok exited =>
            rw [hexited, ok_bind] at h
            cases exited with
            | true => cases h
            | false =>
                cases hstart : process.startTime with
                | error e =>
                    rw [if_neg Bool.false_ne_true, hstart] at h
                    cases h
                    exact Or.inr ⟨rfl, rfl⟩
                | ok startTime =>
                    rw [if_neg Bool.false_ne_true, hstart] at h
                    cases h
  · rintro (htable | ⟨process, htable, hexited | ⟨hexited, hstart⟩⟩)
    · rw [ownerAlive, htable]
      rfl
    · rw [ownerAlive, htable, ok_bind, hexited]
      rfl
    · rw [ownerAlive, htable, ok_bind, hexited, ok_bind, if_neg Bool.false_ne_true, hstart]
      rfl

theorem isStale_iff_owner {culture : Culture} {table : ProcessTable} {comment : String} :
    isStale culture table comment = true ↔
      ∃ pid start, staleOwner culture comment = some (pid, start) ∧
        ¬ DeniedOwner table pid ∧ ¬ LiveOwner table pid start := by
  unfold isStale
  cases howner : staleOwner culture comment with
  | none => exact ⟨fun h => (by cases h), fun ⟨_, _, h, _⟩ => (by cases h)⟩
  | some owner =>
      obtain ⟨pid, start⟩ := owner
      have hsame : (∃ pid' start', some (pid, start) = some (pid', start') ∧
          ¬ DeniedOwner table pid' ∧ ¬ LiveOwner table pid' start') ↔
          ¬ DeniedOwner table pid ∧ ¬ LiveOwner table pid start := by
        constructor
        · rintro ⟨pid', start', heq, h⟩
          cases heq
          exact h
        · intro h
          exact ⟨pid, start, rfl, h⟩
      rw [hsame, ← ownerAlive_eq_win32 start, ← ownerAlive_eq_true]
      simp only
      cases ownerAlive table pid start with
      | ok alive => cases alive <;> simp
      | error e => cases e <;> simp

/-! ### Comments -/

def SameUpToCase (culture : Culture) (a b : List Char) : Prop :=
  a.map culture.lower = b.map culture.lower

def IsDigits (text : List Char) : Prop := text ≠ [] ∧ ∀ c ∈ text, c.isDigit = true

/-- `utun[0-9]+` -/
def IsUtun (name : String) : Prop :=
  ∃ device, IsDigits device ∧ name.toList = "utun".toList ++ device

/-- The text of a comment with these parts. -/
def commentText (pid start device : List Char) : List Char :=
  nrptCommentPrefix.toList ++ (pid ++ (':' :: (start ++ (":utun".toList ++ device))))

/-- The comment is, up to letter case, that of an interface of a process with this id and
creation time.  The id is written as `rule_comment` writes it, and the creation time may
have leading zeros. -/
def HasForm (culture : Culture) (comment : String) (pid start : Nat) : Prop :=
  ∃ startText device, IsDigits startText ∧ IsDigits device ∧
    SameUpToCase culture comment.toList
      (commentText (toString pid).toList startText device) ∧
    0 < pid ∧ pid < 2 ^ 31 ∧ decimalValue startText = start ∧ start < 2 ^ 63

/-- A character that stands for itself in both comparisons. -/
def Plain (c : Char) : Prop :=
  32 ≤ c.toNat ∧ c.toNat < 127 ∧ c ≠ 'I' ∧ c.toLower = c

instance (c : Char) : Decidable (Plain c) := inferInstanceAs (Decidable (_ ∧ _))

theorem plain_of_isDigit {c : Char} (h : c.isDigit = true) : Plain c ∧ c.isAlpha = false := by
  have hall : ∀ k < 10, Plain (Nat.digitChar k) ∧ (Nat.digitChar k).isAlpha = false := by decide
  rw [← digitChar_of_isDigit h]
  exact hall _ (digit_lt_ten h)

section Fold

variable {culture : Culture}

theorem Plain.lower {c : Char} (h : Plain c) : culture.lower c = c := by
  obtain ⟨_, hbound, hcapital, hlower⟩ := h
  rw [culture.lower_ascii c (by omega) hcapital, hlower]

theorem map_lower_plain {text : List Char} (h : ∀ c ∈ text, Plain c) :
    text.map culture.lower = text := by
  rw [List.map_congr_left fun c hc => (h c hc).lower, List.map_id']

theorem lower_of_isDigit {c : Char} (h : (culture.lower c).isDigit = true) :
    culture.lower c = c := by
  have hbound := toNat_of_isDigit h
  exact culture.lower_other c (by omega) (plain_of_isDigit h).2

theorem lower_isDigit (c : Char) : (culture.lower c).isDigit = c.isDigit := by
  rw [Bool.eq_iff_iff]
  constructor
  · intro h
    rwa [lower_of_isDigit h] at h
  · intro h
    rwa [(plain_of_isDigit h).1.lower]

theorem map_lower_digits {text : List Char} (h : ∀ c ∈ text, (culture.lower c).isDigit = true) :
    text.map culture.lower = text := by
  rw [List.map_congr_left fun c hc => lower_of_isDigit (h c hc), List.map_id']

end Fold

theorem plain_commentText {pid start device : List Char} (hpid : ∀ c ∈ pid, c.isDigit = true)
    (hstart : ∀ c ∈ start, c.isDigit = true) (hdevice : ∀ c ∈ device, c.isDigit = true) :
    ∀ c ∈ commentText pid start device, Plain c := by
  have hall : (nrptCommentPrefix.toList ++ ':' :: ":utun".toList).all
      (fun c => decide (Plain c)) = true := by decide
  have hfixed : ∀ c ∈ nrptCommentPrefix.toList ++ ':' :: ":utun".toList, Plain c :=
    fun c hc => of_decide_eq_true (List.all_eq_true.mp hall c hc)
  intro c hc
  simp only [commentText, List.mem_append, List.mem_cons] at hc hfixed
  rcases hc with hc | hc | hc | hc | hc | hc
  · exact hfixed c (Or.inl hc)
  · exact (plain_of_isDigit (hpid c hc)).1
  · exact hfixed c (Or.inr (Or.inl hc))
  · exact (plain_of_isDigit (hstart c hc)).1
  · exact hfixed c (Or.inr (Or.inr hc))
  · exact (plain_of_isDigit (hdevice c hc)).1

/-- The parts of a comment are told apart by the colons. -/
theorem commentText_inj {pid start device pid' start' device' : List Char}
    (hpid : ∀ c ∈ pid, c.isDigit = true) (hstart : ∀ c ∈ start, c.isDigit = true)
    (hpid' : ∀ c ∈ pid', c.isDigit = true) (hstart' : ∀ c ∈ start', c.isDigit = true)
    (h : commentText pid start device = commentText pid' start' device') :
    pid = pid' ∧ start = start' ∧ device = device' := by
  have hcolon : ∀ {text : List Char}, (∀ c ∈ text, c.isDigit = true) → ':' ∉ text :=
    fun hdigits hmem => absurd (hdigits ':' hmem) (by decide)
  obtain ⟨hpids, htail⟩ := append_separator_inj (hcolon hpid) (hcolon hpid')
    (List.append_cancel_left h)
  have hutun : ":utun".toList = ':' :: "utun".toList := by decide
  rw [hutun, List.cons_append, List.cons_append] at htail
  obtain ⟨hstarts, hnames⟩ := append_separator_inj (hcolon hstart) (hcolon hstart') htail
  exact ⟨hpids, hstarts, List.append_cancel_left hnames⟩

/-! ### The regular expression -/

section Match

variable {culture : Culture}

theorem deterministic_stalePattern : Item.Deterministic (stalePattern culture) := by
  have hcolon : ∀ c, (culture.lower c).isDigit = true → (culture.lower c == ':') = false := by
    intro c hc
    rw [beq_eq_false_iff_ne]
    intro heq
    rw [heq] at hc
    exact absurd hc (by decide)
  refine Item.deterministic_literal _ ⟨hcolon, hcolon, ?_⟩
  exact Item.deterministic_literal "utun".toList trivial

theorem fits_stalePattern {text : List Char} {pieces : List (List Char)} :
    Item.Fits (stalePattern culture) text pieces ↔
      ∃ mark first more colon start word device,
        text = mark ++ (first :: (more ++ (colon :: (start ++ (word ++ device))))) ∧
        mark.map culture.lower = nrptCommentPrefix.toList ∧
        (first.isDigit = true ∧ first ≠ '0') ∧ (∀ c ∈ more, c.isDigit = true) ∧
        culture.lower colon = ':' ∧ IsDigits start ∧
        word.map culture.lower = ":utun".toList ∧ IsDigits device ∧
        pieces = mark.map ([·]) ++ ([first] :: more :: [colon] :: start ::
          (word.map ([·]) ++ [device])) := by
  have hdigits : ∀ {run : List Char}, (∀ c ∈ run, (culture.lower c).isDigit = true) ↔
      ∀ c ∈ run, c.isDigit = true := by
    intro run
    simp only [lower_isDigit]
  have hnonempty : ∀ {run : List Char}, 1 ≤ run.length ↔ run ≠ [] := by
    intro run
    rw [Nat.one_le_iff_ne_zero, Ne, List.length_eq_zero_iff]
  have hfirst : ∀ c, ((culture.lower c).isDigit && culture.lower c != '0') = true ↔
      c.isDigit = true ∧ c ≠ '0' := by
    intro c
    rw [Bool.and_eq_true, bne_iff_ne, lower_isDigit]
    refine and_congr_right fun hc => ?_
    rw [(plain_of_isDigit hc).1.lower]
  rw [stalePattern, Item.fits_literal]
  constructor
  · rintro ⟨mark, _, _, rfl, hmark, rfl, first, _, _, rfl, hone, rfl, more, _, _, rfl, _, hmore,
      rfl, colon, _, _, rfl, hcolon, rfl, start, _, _, rfl, hstart, hstarts, rfl, hrest⟩
    obtain ⟨word, _, _, rfl, hword, rfl, device, _, _, rfl, hdevice, hdevices, rfl, rfl, rfl⟩ :=
      Item.fits_literal.mp hrest
    exact ⟨mark, first, more, colon, start, word, device, by rw [List.append_nil], hmark,
      (hfirst first).mp hone, hdigits.mp hmore, eq_of_beq hcolon,
      ⟨hnonempty.mp hstart, hdigits.mp hstarts⟩, hword,
      ⟨hnonempty.mp hdevice, hdigits.mp hdevices⟩, rfl⟩
  · rintro ⟨mark, first, more, colon, start, word, device, rfl, hmark, hone, hmore, hcolon,
      ⟨hstart, hstarts⟩, hword, ⟨hdevice, hdevices⟩, rfl⟩
    refine ⟨mark, _, _, rfl, hmark, rfl, first, _, _, rfl, (hfirst first).mpr hone, rfl, more, _, _,
      rfl, Nat.zero_le _, hdigits.mpr hmore, rfl, colon, _, _, rfl, beq_iff_eq.mpr hcolon, rfl,
      start, _, _, rfl, hnonempty.mpr hstart, hdigits.mpr hstarts, rfl, ?_⟩
    exact Item.fits_literal.mpr ⟨word, device, [device], rfl, hword, rfl, device, [], [],
      (List.append_nil device).symm, hnonempty.mpr hdevice, hdigits.mpr hdevices, rfl, rfl, rfl⟩

theorem staleMatches_of_run {comment : String} {mark : List Char} {first : Char}
    {more colon start : List Char} {rest : List (List Char)}
    (hmark : mark.map culture.lower = nrptCommentPrefix.toList)
    (h : Item.run (stalePattern culture) comment.toList =
      some (mark.map ([·]) ++ ([first] :: more :: colon :: start :: rest))) :
    staleMatches culture comment = some (first :: more, start) := by
  have hlength : (mark.map ([·] : Char → List Char)).length = nrptCommentPrefix.toList.length := by
    rw [← hmark, List.length_map, List.length_map]
  rw [staleMatches, h, Option.map_some, List.drop_left' hlength]
  rfl

/-- The groups of a match are the id and the creation time as they stand in the comment. -/
theorem staleMatches_eq_some {comment : String} {pidText startText : List Char} :
    staleMatches culture comment = some (pidText, startText) ↔
      ∃ first more device, pidText = first :: more ∧ first ≠ '0' ∧
        (∀ c ∈ pidText, c.isDigit = true) ∧ IsDigits startText ∧ IsDigits device ∧
        SameUpToCase culture comment.toList (commentText pidText startText device) := by
  constructor
  · intro h
    cases hrun : Item.run (stalePattern culture) comment.toList with
    | none =>
        rw [staleMatches, hrun] at h
        cases h
    | some pieces =>
        obtain ⟨mark, first, more, colon, start, word, device, htext, hmark, ⟨hfirst, hzero⟩, hmore,
          hcolon, hstart, hword, hdevice, rfl⟩ :=
          fits_stalePattern.mp ((Item.run_eq_some deterministic_stalePattern).mp hrun)
        rw [staleMatches_of_run hmark hrun] at h
        cases h
        have hpid : ∀ c ∈ first :: more, c.isDigit = true :=
          List.forall_mem_cons.mpr ⟨hfirst, hmore⟩
        refine ⟨first, more, device, rfl, hzero, hpid, hstart, hdevice, ?_⟩
        have hself : ∀ {text : List Char}, (∀ c ∈ text, c.isDigit = true) →
            text.map culture.lower = text :=
          fun hdigits => map_lower_plain fun c hc => (plain_of_isDigit (hdigits c hc)).1
        have hpids := hself hpid
        rw [List.map_cons, List.cons.injEq] at hpids
        rw [SameUpToCase, map_lower_plain (plain_commentText hpid hstart.2 hdevice.2), htext]
        simp only [commentText, List.map_append, List.map_cons, hmark, hpids.1, hpids.2, hcolon,
          hself hstart.2, hword, hself hdevice.2, List.cons_append]
  · rintro ⟨first, more, device, rfl, hzero, hpid, hstart, hdevice, hsame⟩
    rw [SameUpToCase, map_lower_plain (plain_commentText hpid hstart.2 hdevice.2)] at hsame
    -- a text that folds to digits is those digits
    have hself : ∀ {text digits : List Char}, text.map culture.lower = digits →
        (∀ c ∈ digits, c.isDigit = true) → text = digits := by
      intro text digits hmap hdigits
      rw [← hmap, map_lower_digits]
      intro c hc
      exact hdigits _ (hmap ▸ List.mem_map_of_mem hc)
    obtain ⟨mark, rest1, htext, hmark, hsame⟩ := List.map_eq_append_iff.mp hsame
    obtain ⟨pid, rest2, rfl, hpids, hsame⟩ := List.map_eq_append_iff.mp hsame
    obtain ⟨colon, rest3, rfl, hcolon, hsame⟩ := List.map_eq_cons_iff.mp hsame
    obtain ⟨start, rest4, rfl, hstarts, hsame⟩ := List.map_eq_append_iff.mp hsame
    obtain ⟨word, device', rfl, hword, hdevices⟩ := List.map_eq_append_iff.mp hsame
    rw [hself hpids hpid, hself hstarts hstart.2, hself hdevices hdevice.2] at htext
    obtain ⟨hfirst, hmore⟩ := List.forall_mem_cons.mp hpid
    refine staleMatches_of_run hmark ((Item.run_eq_some deterministic_stalePattern).mpr
      (fits_stalePattern.mpr ⟨mark, first, more, colon, startText, word, device, htext, hmark,
        ⟨hfirst, hzero⟩, hmore, hcolon, hstart, hword, hdevice, rfl⟩))

theorem tryParse_eq (limit : Nat) (hlimit : 0 < limit) (digits : List Char) :
    tryParse limit digits =
      if decimalValue digits < limit then some (decimalValue digits) else none := by
  rw [tryParse, readBounded_eq (by decide) hlimit fun c _ => rfl]
  show Except.toOption (if decimalValue digits < limit then _ else _) = _
  split <;> rfl

/-- Digits that do not begin with a zero are those of their number. -/
theorem toString_decimalValue {first : Char} {more : List Char} (hzero : first ≠ '0')
    (h : ∀ c ∈ first :: more, c.isDigit = true) :
    (toString (decimalValue (first :: more))).toList = first :: more ∧
      0 < decimalValue (first :: more) := by
  have hcanonical : canonicalDigits (first :: more) = first :: more := by
    rw [canonicalDigits, trimStartMatches, List.dropWhile_cons_of_neg (by simpa using hzero)]
    rfl
  have hdigits := canonicalDigits_eq h
  rw [hcanonical] at hdigits
  refine ⟨by rw [toString_toList, ← hdigits], Nat.pos_of_ne_zero fun hnone => hzero ?_⟩
  rw [hnone] at hdigits
  exact (List.cons.inj hdigits).1

/-- The script knows a comment exactly when it has the form, and takes its parts. -/
theorem staleOwner_eq_some {comment : String} {pid start : Nat} :
    staleOwner culture comment = some (pid, start) ↔ HasForm culture comment pid start := by
  constructor
  · intro h
    obtain ⟨⟨pidText, startText⟩, hmatches, h⟩ := Option.bind_eq_some_iff.mp h
    obtain ⟨ownerPid, hpid, h⟩ := Option.bind_eq_some_iff.mp h
    obtain ⟨ownerStart, hstart, h⟩ := Option.bind_eq_some_iff.mp h
    cases h
    obtain ⟨first, more, device, rfl, hzero, hdigits, hstarts, hdevice, hsame⟩ :=
      staleMatches_eq_some.mp hmatches
    rw [tryParse_eq _ (by decide), Option.ite_none_right_eq_some, Option.some.injEq] at hpid hstart
    obtain ⟨hpidBound, rfl⟩ := hpid
    obtain ⟨hstartBound, rfl⟩ := hstart
    obtain ⟨htext, hpos⟩ := toString_decimalValue hzero hdigits
    refine ⟨startText, device, hstarts, hdevice, ?_, hpos, hpidBound, rfl, hstartBound⟩
    rw [htext]
    exact hsame
  · rintro ⟨startText, device, hstarts, hdevice, hsame, hpos, hpidBound, rfl, hstartBound⟩
    obtain ⟨first, more, hcons⟩ := List.exists_cons_of_ne_nil (toString_toList_ne_nil pid)
    have hzero : first ≠ '0' := by
      have hhead : (Nat.toDigits 10 pid).head? ≠ some '0' :=
        head?_toDigits_ne_zero (by omega) (by omega) hpos
      rw [← toString_toList, hcons, List.head?_cons] at hhead
      exact fun h => hhead (congrArg some h)
    have hmatches := staleMatches_eq_some.mpr ⟨first, more, device, hcons, hzero,
      fun c hc => isDigit_of_mem_toString hc, hstarts, hdevice, hsame⟩
    rw [staleOwner, hmatches]
    show (tryParse (2 ^ 31) (toString pid).toList).bind _ = _
    rw [tryParse_eq _ (by decide), decimalValue_toString, if_pos hpidBound, Option.bind_some]
    show (tryParse (2 ^ 63) startText).bind _ = _
    rw [tryParse_eq _ (by decide), if_pos hstartBound, Option.bind_some]

end Match

/-! ### The comments of the daemon -/

section OwnComment

variable {culture : Culture} {pid createdAt : Nat} {name : String}

theorem ownComment_toList {device : List Char} (hname : name.toList = "utun".toList ++ device) :
    (ownComment pid createdAt name).toList =
      commentText (toString pid).toList (toString createdAt).toList device := by
  have hutun : ":utun".toList = ':' :: "utun".toList := by decide
  have hcolon : ":".toList = [':'] := by decide
  simp only [ownComment, ruleComment, commentText, String.toList_append, hname, hutun, hcolon,
    List.append_assoc, List.cons_append, List.nil_append]

theorem plain_ownComment (h : IsUtun name) :
    ∀ c ∈ (ownComment pid createdAt name).toList, Plain c := by
  obtain ⟨device, hdevice, hname⟩ := h
  rw [ownComment_toList hname]
  exact plain_commentText (fun c hc => isDigit_of_mem_toString hc)
    (fun c hc => isDigit_of_mem_toString hc) hdevice.2

/-- The comment of a daemon has the form that the script looks for. -/
theorem hasForm_ownComment (hpos : 0 < pid) (hpid : pid < 2 ^ 31) (hcreated : createdAt < 2 ^ 63)
    (h : IsUtun name) : HasForm culture (ownComment pid createdAt name) pid createdAt := by
  obtain ⟨device, hdevice, hname⟩ := h
  refine ⟨(toString createdAt).toList, device,
    ⟨toString_toList_ne_nil _, fun c hc => isDigit_of_mem_toString hc⟩, hdevice, ?_, hpos, hpid,
    decimalValue_toString createdAt, hcreated⟩
  rw [ownComment_toList hname]
  exact rfl

/-- It has that form for its own id and creation time only. -/
theorem eq_of_hasForm_ownComment {pid' start : Nat} (h : IsUtun name)
    (hform : HasForm culture (ownComment pid createdAt name) pid' start) :
    pid' = pid ∧ start = createdAt := by
  obtain ⟨startText, device', hstart, hdevice', hsame, _, _, rfl, _⟩ := hform
  have hdigits : ∀ n : Nat, ∀ c ∈ (toString n).toList, c.isDigit = true :=
    fun n c hc => isDigit_of_mem_toString hc
  rw [SameUpToCase, map_lower_plain (plain_ownComment h),
    map_lower_plain (plain_commentText (hdigits pid') hstart.2 hdevice'.2)] at hsame
  obtain ⟨device, hdevice, hname⟩ := h
  rw [ownComment_toList hname] at hsame
  obtain ⟨hpids, hstarts, _⟩ := commentText_inj (hdigits pid) (hdigits createdAt) (hdigits pid')
    hstart.2 hsame
  exact ⟨toString_inj (String.toList_inj.mp hpids.symm), by rw [← hstarts, decimalValue_toString]⟩

/-- `-eq` on the comments of two daemons compares the daemons and the interfaces. -/
theorem equal_ownComment {pid' createdAt' : Nat} {name' : String} (h : IsUtun name)
    (h' : IsUtun name') :
    culture.equal (ownComment pid' createdAt' name') (ownComment pid createdAt name) = true ↔
      pid' = pid ∧ createdAt' = createdAt ∧ name' = name := by
  have hlower : ∀ {text : List Char}, (∀ c ∈ text, Plain c) → text.map Char.toLower = text := by
    intro text hplain
    rw [List.map_congr_left fun c hc => (hplain c hc).2.2.2, List.map_id']
  have hdigits : ∀ n : Nat, ∀ c ∈ (toString n).toList, c.isDigit = true :=
    fun n c hc => isDigit_of_mem_toString hc
  rw [culture.equal_printable, hlower (plain_ownComment h'), hlower (plain_ownComment h)]
  · obtain ⟨device, _, hname⟩ := h
    obtain ⟨device', _, hname'⟩ := h'
    rw [ownComment_toList hname, ownComment_toList hname']
    constructor
    · intro hsame
      obtain ⟨hpids, hstarts, hdevices⟩ := commentText_inj (hdigits pid') (hdigits createdAt')
        (hdigits pid) (hdigits createdAt) hsame
      refine ⟨toString_inj (String.toList_inj.mp hpids),
        toString_inj (String.toList_inj.mp hstarts), String.toList_inj.mp ?_⟩
      rw [hname, hname', hdevices]
    · rintro ⟨rfl, rfl, rfl⟩
      rw [List.append_cancel_left (hname.symm.trans hname')]
  · intro c hc
    have hplain : Plain c := (List.mem_append.mp hc).elim (plain_ownComment h' c)
      (plain_ownComment h c)
    exact ⟨hplain.1, hplain.2.1⟩

end OwnComment

/-- The first clean-up removes exactly the rules of daemons that are gone, and that of a
session exactly the rules of its daemon and interface.  Every positive process id is
decoded from the comments of its daemon. -/
theorem nrpt_rules_by_owner (culture : Culture) (table : ProcessTable) (store : RuleStore)
    (fails : Rule → Bool) (hfails : ∀ rule, fails rule = false) :
    (∀ rule, rule ∈ (clearStaleNrptRulesScript culture table fails store).1.rules ↔
        rule ∈ store.rules ∧ ¬ ∃ pid start, HasForm culture rule.comment pid start ∧
          ¬ DeniedOwner table pid ∧ ¬ LiveOwner table pid start) ∧
      (∀ pid createdAt name, 0 < pid → pid < 2 ^ 31 → createdAt < 2 ^ 63 → IsUtun name →
        HasForm culture (ownComment pid createdAt name) pid createdAt ∧
          staleOwner culture (ownComment pid createdAt name) = some (pid, createdAt)) ∧
      (∀ rule ∈ store.rules, ∀ pid createdAt name, IsUtun name →
        rule.comment = ownComment pid createdAt name → LiveOwner table pid createdAt →
        ∀ fails', rule ∈ (clearStaleNrptRulesScript culture table fails' store).1.rules) ∧
      ∀ pid createdAt name, IsUtun name → ∀ rule ∈ store.rules,
        (rule ∉ (clearNrptRulesScript culture (ownComment pid createdAt name) fails store).1.rules ↔
          culture.equal rule.comment (ownComment pid createdAt name) = true) ∧
        ∀ pid' createdAt' name', IsUtun name' →
          rule.comment = ownComment pid' createdAt' name' →
          (rule ∉
              (clearNrptRulesScript culture (ownComment pid createdAt name) fails store).1.rules ↔
            pid' = pid ∧ createdAt' = createdAt ∧ name' = name) := by
  have hstale : ∀ rule : Rule, isStale culture table rule.comment = true ↔
      ∃ pid start, HasForm culture rule.comment pid start ∧
        ¬ DeniedOwner table pid ∧ ¬ LiveOwner table pid start := by
    intro rule
    simp only [isStale_iff_owner, staleOwner_eq_some]
  refine ⟨?_, ?_, ?_, ?_⟩
  · intro rule
    rw [← hstale]
    constructor
    · intro hmem
      have hrule : rule ∈ store.rules := mem_of_mem_removeEach hmem
      exact ⟨hrule, fun hselects => not_mem_removeEach hfails hrule hselects hmem⟩
    · rintro ⟨hrule, hkeep⟩
      exact mem_removeEach_rules hrule (Bool.not_eq_true _ ▸ hkeep)
  · intro pid createdAt name hpos hpid hcreated hname
    have hform : HasForm culture (ownComment pid createdAt name) pid createdAt :=
      hasForm_ownComment hpos hpid hcreated hname
    exact ⟨hform, staleOwner_eq_some.mpr hform⟩
  · intro rule hrule pid createdAt name hname hcomment hlive fails'
    refine mem_removeEach_rules hrule (Bool.eq_false_iff.mpr fun hselects => ?_)
    obtain ⟨pid', start, hform, _, hdead⟩ := (hstale rule).mp hselects
    rw [hcomment] at hform
    obtain ⟨rfl, rfl⟩ := eq_of_hasForm_ownComment hname hform
    exact hdead hlive
  · intro pid createdAt name hname rule hrule
    refine ⟨removed_iff hfails hrule, fun pid' createdAt' name' hname' hcomment => ?_⟩
    rw [clearNrptRulesScript, removed_iff hfails hrule, hcomment]
    exact equal_ownComment hname hname'

/-! ### A system with three daemons -/

theorem toLower_of_isAlpha_eq_false (c : Char) (h : c.toLower.isAlpha = false) :
    c.toLower = c := by
  by_cases hascii : c.toNat < 128
  · have hall : ∀ n < 128, (Char.ofNat n).toLower.isAlpha = false →
        (Char.ofNat n).toLower = Char.ofNat n := by decide
    rw [← Char.ofNat_toNat c] at h ⊢
    exact hall c.toNat hascii h
  · refine dif_neg fun hrange => hascii ?_
    have hle : c.toNat ≤ 'Z'.toNat := UInt32.le_iff_toNat_le.mp hrange.2
    exact Nat.lt_of_le_of_lt hle (by decide)

/-- Texts that are compared by ASCII letters. -/
def asciiCulture : Culture where
  lower := Char.toLower
  equal := fun a b => a.toList.map Char.toLower == b.toList.map Char.toLower
  lower_ascii := fun _ _ _ => rfl
  lower_other := fun c _ => toLower_of_isAlpha_eq_false c
  equal_printable := fun _ _ _ => beq_iff_eq

/-- The process 40 runs, and the process 44 may not be looked at. -/
def exampleTable : ProcessTable := fun pid =>
  if pid = 40 then .ok { hasExited := .ok false, startTime := .ok 900 }
  else if pid = 44 then .error .win32
  else .error .argument

def exampleStore : RuleStore where
  rules := [⟨"live", ownComment 40 900 "utun0"⟩, ⟨"reused", ownComment 40 800 "utun1"⟩,
    ⟨"denied", ownComment 44 700 "utun2"⟩, ⟨"gone", ownComment 48 600 "utun3"⟩]
  nodup := by decide

theorem exampleStore_cleared :
    (⟨"live", ownComment 40 900 "utun0"⟩ : Rule) ∈
        (clearStaleNrptRulesScript asciiCulture exampleTable (fun _ => false)
          exampleStore).1.rules ∧
      (⟨"gone", ownComment 48 600 "utun3"⟩ : Rule) ∉
        (clearStaleNrptRulesScript asciiCulture exampleTable (fun _ => false)
          exampleStore).1.rules ∧
      (⟨"live", ownComment 40 900 "utun0"⟩ : Rule) ∉
        (clearNrptRulesScript asciiCulture (ownComment 40 900 "utun0") (fun _ => false)
          exampleStore).1.rules := by
  have hutun : ∀ k < 10, IsUtun (String.ofList ("utun".toList ++ [Nat.digitChar k])) := by
    intro k hk
    refine ⟨[Nat.digitChar k], ⟨List.cons_ne_nil _ _, fun c hc => ?_⟩, String.toList_ofList⟩
    rw [List.mem_singleton.mp hc, Nat.isDigit_digitChar, decide_eq_true hk]
  obtain ⟨hstale, hform, hlive, hclear⟩ := nrpt_rules_by_owner asciiCulture exampleTable
    exampleStore (fun _ => false) (fun _ => rfl)
  have hfirst : (⟨"live", ownComment 40 900 "utun0"⟩ : Rule) ∈ exampleStore.rules :=
    List.mem_cons_self
  refine ⟨hlive _ hfirst 40 900 "utun0" (hutun 0 (by omega)) rfl ⟨_, rfl, rfl, rfl⟩ _, ?_, ?_⟩
  · rw [hstale, not_and_not_right]
    intro _
    refine ⟨48, 600, (hform 48 600 "utun3" (by decide) (by decide) (by decide)
      (hutun 3 (by omega))).1, ?_, ?_⟩
    · rintro (h | ⟨_, h, _⟩) <;> cases h
    · rintro ⟨_, h, _⟩
      cases h
  · exact ((hclear 40 900 "utun0" (hutun 0 (by omega)) _ hfirst).2 40 900 "utun0"
      (hutun 0 (by omega)) rfl).mpr ⟨rfl, rfl, rfl⟩

end Windows
end Daemon
end WgKotlin
