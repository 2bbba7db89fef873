import WgKotlin.Library.Monitor

/-!
# The handle of a Windows pipe

`WindowsPipeConnection` of the client.  Reads and writes run on different threads
and `close` may come from any of them, so the handle is closed by whoever is last:
`close` itself, or the last transfer that leaves.  A thread is a call of `transfer`
or of `close`, and each step makes at most one call on the handle.
-/

namespace WgKotlin
namespace WindowsPipe

open Library

/-! ### The connection -/

/-- The functions of the kernel that take the handle of the pipe. -/
inductive KernelCall
  | readFile
  | writeFile
  | cancelIoEx
  | getOverlappedResult
  | closeHandle
  deriving DecidableEq, Repr

/-- A call on the handle, with the two fields as they were at that time. -/
structure CallRecord where
  call : KernelCall
  closed : Bool
  activeIo : Nat
  deriving DecidableEq, Repr

structure Pipe where
  closed : Bool := false
  activeIo : Nat := 0
  calls : List CallRecord := []
  deriving DecidableEq, Repr

def Pipe.call (pipe : Pipe) (call : KernelCall) : Pipe :=
  { pipe with calls := pipe.calls ++ [⟨call, pipe.closed, pipe.activeIo⟩] }

/-- What `transfer` returns or throws. -/
inductive Transferred
  | count (value : Int)
  | ioException (message : String)
  | socketTimeoutException (message : String)
  | outOfMemoryError
  deriving DecidableEq, Repr

/-- The places of `transfer` and of `close`.  The sections that are synchronized on
`lifecycle` begin at `checkClosed`, at `deregister` and at `closeEntered`. -/
inductive Place
  | createEvent (writing : Bool)
  | allocate (writing : Bool)
  | register (writing : Bool)
  | checkClosed (writing : Bool)
  | issue (writing : Bool)
  | wait (writing : Bool)
  | cancel (waited : Int)
  | drain (waited : Int)
  | result (writing : Bool)
  | finish (registered : Bool) (outcome : Transferred)
  | leave (outcome : Transferred)
  | deregister (outcome : Transferred)
  | lastOut (outcome : Transferred)
  | done (outcome : Transferred)
  | close
  | closeEntered
  | closeCancel
  | closeLast
  | closeReturned
  deriving DecidableEq, Repr

/-- What the kernel answers.  The code of an operation is 0 if it succeeded. -/
inductive Answer
  | go
  | event (created : Bool)
  | memory (allocated : Bool)
  | error (code : Int)
  | waited (code : Int)
  | overlapped (result : Except Int Int)

/-- What follows the operation that was issued with this error. -/
def afterIssue (writing : Bool) (error : Int) : Place :=
  if error = 109 ∧ writing = false then .finish true (.count (-1))
  else if error ≠ 0 ∧ error ≠ 997 then
    .finish true (.ioException ("Named pipe I/O failed: " ++ toString error))
  else .wait writing

/-- What is thrown after a wait that did not succeed. -/
def afterWait (waited : Int) : Transferred :=
  if waited = 258 then .socketTimeoutException "Named pipe I/O timed out"
  else .ioException "Named pipe wait failed"

/-- What is returned or thrown for the result of the operation. -/
def afterResult (writing : Bool) : Except Int Int → Transferred
  | .error code =>
    if code = 109 ∧ writing = false then .count (-1)
    else .ioException ("Named pipe I/O failed: " ++ toString code)
  | .ok count =>
    if count = 0 then
      if writing then .ioException "Named pipe write made no progress" else .count (-1)
    else .count count

def act (pipe : Pipe) : Place → Answer → Option (Pipe × Place)
  | .createEvent writing, .event created =>
    some (pipe, if created then .allocate writing else .done (.ioException "CreateEvent failed"))
  -- From here on every way out leads through `finally`.
  | .allocate writing, .memory allocated =>
    some (pipe, if allocated then .register writing else .finish false .outOfMemoryError)
  | .register writing, .go => some (pipe, .checkClosed writing)
  | .checkClosed writing, .go =>
    if pipe.closed then some (pipe, .finish false (.ioException "IPC connection is closed"))
    else some ({ pipe with activeIo := pipe.activeIo + 1 }, .issue writing)
  | .issue writing, .error error =>
    some (pipe.call (if writing then .writeFile else .readFile), afterIssue writing error)
  | .wait writing, .waited waited =>
    some (pipe, if waited = 0 then .result writing else .cancel waited)
  | .cancel waited, .go => some (pipe.call .cancelIoEx, .drain waited)
  | .drain waited, .go => some (pipe.call .getOverlappedResult, .finish true (afterWait waited))
  | .result writing, .overlapped result =>
    some (pipe.call .getOverlappedResult, .finish true (afterResult writing result))
  | .finish registered outcome, .go =>
    some (pipe, if registered then .leave outcome else .done outcome)
  | .leave outcome, .go => some (pipe, .deregister outcome)
  | .deregister outcome, .go =>
    some ({ pipe with activeIo := pipe.activeIo - 1 }, .lastOut outcome)
  | .lastOut outcome, .go =>
    some (if pipe.closed ∧ pipe.activeIo = 0 then pipe.call .closeHandle else pipe, .done outcome)
  | .close, .go => some (pipe, .closeEntered)
  | .closeEntered, .go =>
    if pipe.closed then some (pipe, .closeReturned)
    else some ({ pipe with closed := true }, .closeCancel)
  | .closeCancel, .go => some (pipe.call .cancelIoEx, .closeLast)
  | .closeLast, .go =>
    some (if pipe.activeIo = 0 then pipe.call .closeHandle else pipe, .closeReturned)
  | _, _ => none

namespace Place

def entry : Place → Bool
  | .createEvent _ | .close => true
  | _ => false

/-- The places that hold the monitor `lifecycle`. -/
def inside : Place → Bool
  | .checkClosed _ | .issue _ | .deregister _ | .lastOut _ | .closeEntered | .closeCancel
  | .closeLast => true
  | _ => false

/-- The places of a transfer that counts in `activeIo`. -/
def counted : Place → Bool
  | .issue _ | .wait _ | .cancel _ | .drain _ | .result _ | .finish true _ | .leave _
  | .deregister _ => true
  | _ => false

/-- The places of a transfer that has registered and not finished. -/
def registered : Place → Bool
  | .lastOut _ => true
  | place => place.counted

def returned : Place → Bool
  | .closeReturned => true
  | _ => false

end Place

def code : ThreadCode Pipe Place Answer where
  entry := Place.entry
  inside := Place.inside
  act := act

/-- A connection that was just opened. -/
def opened : Threads Pipe Place where
  shared := {}
  places := []

/-! ### What a step can do -/

/-- A step by its effect on the connection. -/
inductive Acts (pipe : Pipe) : Place → Pipe → Place → Prop
  | quiet {place place' : Place} (hout : place.inside = false) (hout' : place'.inside = false)
      (hcounted : place'.counted = place.counted) (hreturned : place'.returned = place.returned) :
      Acts pipe place pipe place'
  | operate {place place' : Place} (call : KernelCall)
      (hcall : call = .cancelIoEx ∨ call = .getOverlappedResult) (hout : place.inside = false)
      (hout' : place'.inside = false) (hcounted : place.counted = true)
      (hcounted' : place'.counted = true) (hreturned : place'.returned = place.returned) :
      Acts pipe place (pipe.call call) place'
  | enterRegister (writing : Bool) : Acts pipe (.register writing) pipe (.checkClosed writing)
  | enterLeave (outcome : Transferred) : Acts pipe (.leave outcome) pipe (.deregister outcome)
  | enterClose : Acts pipe .close pipe .closeEntered
  | refuse {writing : Bool} {outcome : Transferred} :
      Acts pipe (.checkClosed writing) pipe (.finish false outcome)
  | register {writing : Bool} (hopen : pipe.closed = false) :
      Acts pipe (.checkClosed writing) { pipe with activeIo := pipe.activeIo + 1 } (.issue writing)
  | issue {writing : Bool} {place' : Place} (call : KernelCall)
      (hcall : call = .readFile ∨ call = .writeFile) (hout : place'.inside = false)
      (hcounted : place'.counted = true) (hreturned : place'.returned = false) :
      Acts pipe (.issue writing) (pipe.call call) place'
  | deregister {outcome : Transferred} :
      Acts pipe (.deregister outcome) { pipe with activeIo := pipe.activeIo - 1 }
        (.lastOut outcome)
  | lastOut {outcome : Transferred} :
      Acts pipe (.lastOut outcome)
        (if pipe.closed ∧ pipe.activeIo = 0 then pipe.call .closeHandle else pipe) (.done outcome)
  | closeAgain (hclosed : pipe.closed = true) : Acts pipe .closeEntered pipe .closeReturned
  | closeFirst (hopen : pipe.closed = false) :
      Acts pipe .closeEntered { pipe with closed := true } .closeCancel
  | closeCancel : Acts pipe .closeCancel (pipe.call .cancelIoEx) .closeLast
  | closeLast :
      Acts pipe .closeLast (if pipe.activeIo = 0 then pipe.call .closeHandle else pipe)
        .closeReturned

theorem afterIssue_outside (writing : Bool) (error : Int) :
    (afterIssue writing error).inside = false ∧ (afterIssue writing error).counted = true ∧
      (afterIssue writing error).returned = false := by
  unfold afterIssue
  split
  · exact ⟨rfl, rfl, rfl⟩
  · split <;> exact ⟨rfl, rfl, rfl⟩

theorem acts_of_act {pipe pipe' : Pipe} {place place' : Place} {answer : Answer}
    (h : act pipe place answer = some (pipe', place')) : Acts pipe place pipe' place' := by
  unfold act at h
  split at h
  · cases h
    split <;> exact .quiet rfl rfl rfl rfl
  · cases h
    split <;> exact .quiet rfl rfl rfl rfl
  · cases h
    exact .enterRegister _
  · split at h
    · cases h
      exact .refuse
    next hopen =>
      cases h
      exact .register (Bool.eq_false_iff.mpr hopen)
  next writing error =>
    cases h
    obtain ⟨hout, hcounted, hreturned⟩ := afterIssue_outside writing error
    refine .issue _ ?_ hout hcounted hreturned
    cases writing
    · exact Or.inl rfl
    · exact Or.inr rfl
  · cases h
    split <;> exact .quiet rfl rfl rfl rfl
  · cases h
    exact .operate _ (Or.inl rfl) rfl rfl rfl rfl rfl
  · cases h
    exact .operate _ (Or.inr rfl) rfl rfl rfl rfl rfl
  · cases h
    exact .operate _ (Or.inr rfl) rfl rfl rfl rfl rfl
  next registered outcome =>
    cases h
    cases registered
    · exact .quiet rfl rfl rfl rfl
    · exact .quiet rfl rfl rfl rfl
  · cases h
    exact .enterLeave _
  · cases h
    exact .deregister
  · cases h
    exact .lastOut
  · cases h
    exact .enterClose
  · split at h
    next hclosed =>
      cases h
      exact .closeAgain hclosed
    next hopen =>
      cases h
      exact .closeFirst (Bool.eq_false_iff.mpr hopen)
  · cases h
    exact .closeCancel
  · cases h
    exact .closeLast
  · cases h

/-! ### The calls on the handle -/

/-- The handle is closed when it is free, and no operation is issued on a closed
connection. -/
def CallRecord.Sound (r : CallRecord) : Prop :=
  (r.call = .closeHandle → r.closed = true ∧ r.activeIo = 0) ∧
    (r.call = .readFile ∨ r.call = .writeFile → r.closed = false)

namespace Pipe

variable {pipe : Pipe}

/-- The handle was not closed yet. -/
def Open (pipe : Pipe) : Prop := ∀ r ∈ pipe.calls, r.call ≠ .closeHandle

/-- The handle was closed, once, and nothing was called on it since. -/
def Shut (pipe : Pipe) : Prop :=
  ∃ before r, pipe.calls = before ++ [r] ∧ r.call = .closeHandle ∧
    ∀ r ∈ before, r.call ≠ .closeHandle

theorem Open.call {call : KernelCall} (h : pipe.Open) (hcall : call ≠ .closeHandle) :
    (pipe.call call).Open := by
  intro r hr
  rcases List.mem_append.mp hr with hr | hr
  · exact h r hr
  · rw [List.mem_singleton.mp hr]
    exact hcall

theorem Open.close (h : pipe.Open) : (pipe.call .closeHandle).Shut := ⟨pipe.calls, _, rfl, rfl, h⟩

theorem Open.count (h : pipe.Open) : pipe.calls.countP (·.call = .closeHandle) = 0 :=
  List.countP_eq_zero.mpr fun r hr hcall => h r hr (of_decide_eq_true hcall)

theorem Shut.count (h : pipe.Shut) : pipe.calls.countP (·.call = .closeHandle) = 1 := by
  obtain ⟨before, r, hcalls, hr, hbefore⟩ := h
  have hzero : before.countP (·.call = .closeHandle) = 0 :=
    List.countP_eq_zero.mpr fun r hr hcall => hbefore r hr (of_decide_eq_true hcall)
  rw [hcalls, List.countP_append, hzero, List.countP_singleton, if_pos (decide_eq_true hr)]

/-- Nothing is called on the handle after it was closed. -/
theorem last_of_shut (h : pipe.Open ∨ pipe.Shut) {front back : List CallRecord} {r : CallRecord}
    (hcalls : pipe.calls = front ++ r :: back) (hr : r.call = .closeHandle) : back = [] := by
  rcases h with h | ⟨before, r', hsplit, _, hbefore⟩
  · refine absurd hr (h r ?_)
    rw [hcalls]
    exact List.mem_append_right front List.mem_cons_self
  · rcases List.eq_nil_or_concat back with hback | ⟨init, last, rfl⟩
    · exact hback
    · rw [hsplit, List.concat_eq_append, ← List.cons_append, ← List.append_assoc] at hcalls
      have hinit := (List.append_inj' hcalls rfl).1
      refine absurd hr (hbefore r ?_)
      rw [hinit]
      exact List.mem_append_right front List.mem_cons_self

end Pipe

/-! ### The outline -/

/-- What the assertions are about: the connection, the transfers that count and the
calls of `close` that returned. -/
structure View where
  pipe : Pipe
  counted : Nat
  returned : Nat

def view (s : Threads Pipe Place) : View where
  pipe := s.shared
  counted := s.tally Place.counted
  returned := s.tally Place.returned

/-- What holds at every time. -/
structure Steady (v : View) : Prop where
  active : v.pipe.activeIo = v.counted
  closed : 0 < v.returned → v.pipe.closed = true
  sound : ∀ r ∈ v.pipe.calls, r.Sound

/-- What holds while the monitor is free: the handle is closed when the connection is
and no transfer counts. -/
structure Free (v : View) : Prop extends Steady v where
  shut : v.pipe.closed = true → v.counted = 0 → v.pipe.Shut
  opened : v.pipe.closed = false ∨ 0 < v.counted → v.pipe.Open

/-- What holds while a thread is in one of the sections.  Whoever comes to decide
about closing finds the handle open. -/
def At : Place → View → Prop
  | .issue _, v => Free v ∧ v.pipe.closed = false
  | .deregister _, v => Free v ∧ 0 < v.counted
  | .lastOut _, v => Steady v ∧ v.pipe.Open
  | .closeCancel, v | .closeLast, v =>
    Steady v ∧ v.pipe.Open ∧ v.pipe.closed = true ∧ v.returned = 0
  | _, v => Free v

/-- How a move of one thread changes the two counts. -/
structure Shift (place place' : Place) (v v' : View) : Prop where
  counted : v'.counted + place.counted.toNat = v.counted + place'.counted.toNat
  returned : v'.returned + place.returned.toNat = v.returned + place'.returned.toNat
  positive : place.counted = true → 0 < v.counted

theorem shift_move {s : Threads Pipe Place} {i : Nat} {place : Place}
    (h : s.places[i]? = some place) (pipe : Pipe) (place' : Place) :
    Shift place place' (view s) (view (s.move i pipe place')) where
  counted := Threads.tally_move Place.counted h pipe place'
  returned := Threads.tally_move Place.returned h pipe place'
  positive := Threads.tally_pos h

theorem Steady.call {v : View} {call : KernelCall} (h : Steady v)
    (hclose : call = .closeHandle → v.pipe.closed = true ∧ v.pipe.activeIo = 0)
    (hissue : call = .readFile ∨ call = .writeFile → v.pipe.closed = false) :
    Steady { v with pipe := v.pipe.call call } where
  active := h.active
  closed := h.closed
  sound := by
    intro r hr
    rcases List.mem_append.mp hr with hr | hr
    · exact h.sound r hr
    · rw [List.mem_singleton.mp hr]
      exact ⟨hclose, hissue⟩

section Outline

variable {pipe' : Pipe} {place place' : Place} {v : View} {c r : Nat}

/-- A call that an operation makes while it counts. -/
theorem Steady.operate {call : KernelCall} (h : Steady v)
    (hcall : call = .cancelIoEx ∨ call = .getOverlappedResult) :
    Steady { v with pipe := v.pipe.call call } := by
  refine h.call (fun he => ?_) (fun he => ?_)
  · rcases hcall with rfl | rfl <;> cases he
  · rcases hcall with rfl | rfl <;> rcases he with he | he <;> cases he

theorem Free.operate {call : KernelCall} (h : Free v)
    (hcall : call = .cancelIoEx ∨ call = .getOverlappedResult) (hpos : 0 < v.counted) :
    Free { v with pipe := v.pipe.call call } where
  toSteady := h.toSteady.operate hcall
  shut := fun _ hzero => absurd hzero (Nat.ne_of_gt hpos)
  opened := fun _ => (h.opened (Or.inr hpos)).call (by rcases hcall with rfl | rfl <;> decide)

theorem At.operate {call : KernelCall} {other : Place} (h : At other v)
    (hcall : call = .cancelIoEx ∨ call = .getOverlappedResult) (hpos : 0 < v.counted) :
    At other { v with pipe := v.pipe.call call } := by
  have hne : call ≠ .closeHandle := by rcases hcall with rfl | rfl <;> decide
  cases other
  case issue => exact ⟨h.1.operate hcall hpos, h.2⟩
  case deregister => exact ⟨h.1.operate hcall hpos, h.2⟩
  case lastOut => exact ⟨h.1.operate hcall, h.2.call hne⟩
  case closeCancel => exact ⟨h.1.operate hcall, h.2.1.call hne, h.2.2⟩
  case closeLast => exact ⟨h.1.operate hcall, h.2.1.call hne, h.2.2⟩
  all_goals exact Free.operate h hcall hpos

/-- A move between places of one kind changes nothing but the connection. -/
theorem Shift.eq (h : Shift place place' v ⟨pipe', c, r⟩)
    (hcounted : place'.counted = place.counted) (hreturned : place'.returned = place.returned) :
    View.mk pipe' c r = { v with pipe := pipe' } := by
  have hc := h.counted
  have hr := h.returned
  rw [hcounted, Nat.add_right_cancel_iff] at hc
  rw [hreturned, Nat.add_right_cancel_iff] at hr
  rw [View.mk.injEq]
  exact ⟨rfl, hc, hr⟩

theorem outside_of_acts (h : Acts v.pipe place pipe' place')
    (hshift : Shift place place' v ⟨pipe', c, r⟩) (hout : place.inside = false)
    (hout' : place'.inside = false) :
    (Free v → Free ⟨pipe', c, r⟩) ∧ ∀ other, At other v → At other ⟨pipe', c, r⟩ := by
  cases h with
  | quiet _ _ hcounted hreturned =>
      rw [hshift.eq hcounted hreturned]
      exact ⟨id, fun _ => id⟩
  | operate call hcall _ _ hcounted hcounted' hreturned =>
      have hpos := hshift.positive hcounted
      rw [hshift.eq (hcounted'.trans hcounted.symm) hreturned]
      exact ⟨fun hfree => hfree.operate hcall hpos, fun other hat => hat.operate hcall hpos⟩
  | enterRegister => cases hout'
  | enterLeave => cases hout'
  | enterClose => cases hout'
  | refuse => cases hout
  | register => cases hout
  | issue => cases hout
  | deregister => cases hout
  | lastOut => cases hout
  | closeAgain => cases hout
  | closeFirst => cases hout
  | closeCancel => cases hout
  | closeLast => cases hout

theorem enter_of_acts (h : Acts v.pipe place pipe' place')
    (hshift : Shift place place' v ⟨pipe', c, r⟩) (hout : place.inside = false)
    (hin : place'.inside = true) (hfree : Free v) : At place' ⟨pipe', c, r⟩ := by
  cases h with
  | enterRegister =>
      rw [hshift.eq rfl rfl]
      exact hfree
  | enterLeave =>
      rw [hshift.eq rfl rfl]
      exact ⟨hfree, hshift.positive rfl⟩
  | enterClose =>
      rw [hshift.eq rfl rfl]
      exact hfree
  | quiet _ hout' => exact absurd hin (Bool.eq_false_iff.mp hout')
  | operate _ _ _ hout' => exact absurd hin (Bool.eq_false_iff.mp hout')
  | refuse => cases hin
  | issue => cases hout
  | register => cases hout
  | deregister => cases hout
  | lastOut => cases hout
  | closeAgain => cases hout
  | closeFirst => cases hout
  | closeCancel => cases hout
  | closeLast => cases hout

theorem within_of_acts (h : Acts v.pipe place pipe' place')
    (hshift : Shift place place' v ⟨pipe', c, r⟩) (hin : place.inside = true)
    (hin' : place'.inside = true) (hat : At place v) : At place' ⟨pipe', c, r⟩ := by
  have hcounted := hshift.counted
  have hreturned := hshift.returned
  cases h with
  | register hopen =>
      -- The transfer counts now, and the connection is still open.
      have hfree : Free v := hat
      have hc : c = v.counted + 1 := hcounted
      have hr : r = v.returned := hreturned
      subst hc hr
      refine ⟨⟨⟨congrArg (· + 1) hfree.active, hfree.closed, hfree.sound⟩,
        fun hclosed => ?_, fun _ => hfree.opened (Or.inl hopen)⟩, hopen⟩
      rw [hopen] at hclosed
      cases hclosed
  | deregister =>
      obtain ⟨hfree, hpos⟩ := hat
      have hc : c + 1 = v.counted := hcounted
      have hr : r = v.returned := hreturned
      have hactive := hfree.active
      subst hr
      refine ⟨⟨?_, hfree.closed, hfree.sound⟩, hfree.opened (Or.inr hpos)⟩
      show v.pipe.activeIo - 1 = c
      omega
  | closeFirst hopen =>
      -- No call of `close` can have returned before the connection was closed.
      have hfree : Free v := hat
      have hnone : v.returned = 0 := by
        refine Nat.eq_zero_of_not_pos fun hpos => ?_
        rw [hfree.closed hpos] at hopen
        cases hopen
      rw [hshift.eq rfl rfl]
      exact ⟨⟨hfree.active, fun _ => rfl, hfree.sound⟩, hfree.opened (Or.inl hopen), rfl, hnone⟩
  | closeCancel =>
      obtain ⟨hsteady, hopen, hclosed, hnone⟩ := hat
      rw [hshift.eq rfl rfl]
      exact ⟨hsteady.operate (Or.inl rfl), hopen.call (by decide), hclosed, hnone⟩
  | quiet hout => exact absurd hin (Bool.eq_false_iff.mp hout)
  | operate _ _ hout => exact absurd hin (Bool.eq_false_iff.mp hout)
  | issue _ _ hout' => exact absurd hin' (Bool.eq_false_iff.mp hout')
  | enterRegister => cases hin
  | enterLeave => cases hin
  | enterClose => cases hin
  | refuse => cases hin'
  | lastOut => cases hin'
  | closeAgain => cases hin'
  | closeLast => cases hin'

/-- The two places that decide about closing, which leave the handle as it should be. -/
theorem Steady.free {closing : Prop} [Decidable closing] (h : Steady v) (hopen : v.pipe.Open)
    (hclosing : closing ↔ v.pipe.closed = true ∧ v.pipe.activeIo = 0) :
    Free { v with pipe := if closing then v.pipe.call .closeHandle else v.pipe } := by
  by_cases hc : closing
  · obtain ⟨hclosed, hzero⟩ := hclosing.mp hc
    rw [if_pos hc]
    refine ⟨h.call (fun _ => ⟨hclosed, hzero⟩) (fun he => ?_), fun _ _ => hopen.close,
      fun hor => ?_⟩
    · rcases he with he | he <;> cases he
    · have hcounted := h.active.symm.trans hzero
      rcases hor with hor | hor
      · exact absurd (hor.symm.trans hclosed) Bool.false_ne_true
      · exact absurd hcounted (Nat.ne_of_gt hor)
  · rw [if_neg hc]
    exact ⟨h, fun hclosed hzero => absurd (hclosing.mpr ⟨hclosed, h.active.trans hzero⟩) hc,
      fun _ => hopen⟩

theorem leave_of_acts (h : Acts v.pipe place pipe' place')
    (hshift : Shift place place' v ⟨pipe', c, r⟩) (hin : place.inside = true)
    (hout : place'.inside = false) (hat : At place v) : Free ⟨pipe', c, r⟩ := by
  have hcounted := hshift.counted
  have hreturned := hshift.returned
  cases h with
  | refuse =>
      rw [hshift.eq rfl rfl]
      exact hat
  | issue call hcall _ hcounted' hreturned' =>
      obtain ⟨hfree, hopen⟩ := hat
      rw [hshift.eq hcounted' hreturned']
      have hne : call ≠ .closeHandle := by rcases hcall with rfl | rfl <;> decide
      refine ⟨hfree.call (fun he => absurd he hne) (fun _ => hopen), fun hclosed => ?_,
        fun _ => (hfree.opened (Or.inl hopen)).call hne⟩
      exact absurd (hopen.symm.trans hclosed) Bool.false_ne_true
  | lastOut =>
      obtain ⟨hsteady, hopen⟩ := hat
      rw [hshift.eq rfl rfl]
      exact hsteady.free hopen Iff.rfl
  | closeAgain hclosed =>
      have hfree : Free v := hat
      have hc : c = v.counted := hcounted
      subst hc
      exact ⟨⟨hfree.active, fun _ => hclosed, hfree.sound⟩, hfree.shut, hfree.opened⟩
  | closeLast =>
      obtain ⟨hsteady, hopen, hclosed, _⟩ := hat
      have hc : c = v.counted := hcounted
      subst hc
      have hsteady' : Steady { v with returned := r } :=
        ⟨hsteady.active, fun _ => hclosed, hsteady.sound⟩
      exact hsteady'.free hopen ⟨fun hzero => ⟨hclosed, hzero⟩, fun h => h.2⟩
  | quiet hout => exact absurd hin (Bool.eq_false_iff.mp hout)
  | operate _ _ hout => exact absurd hin (Bool.eq_false_iff.mp hout)
  | enterRegister => cases hin
  | enterLeave => cases hin
  | enterClose => cases hin
  | register => cases hout
  | deregister => cases hout
  | closeFirst => cases hout
  | closeCancel => cases hout

end Outline

theorem outline : code.Outline view Free At where
  entry_outside := by
    intro place h
    cases place <;> first | rfl | cases h
  spawn := by
    intro s place h
    have hcounted : place.counted = false := by cases place <;> first | rfl | cases h
    have hreturned : place.returned = false := by cases place <;> first | rfl | cases h
    rw [view, Threads.tally_spawn, Threads.tally_spawn, hcounted, hreturned]
    rfl
  outside := by
    intro s i place pipe place' ⟨hstands, _, hact⟩ hout hout'
    exact outside_of_acts (acts_of_act hact) (shift_move hstands pipe place') hout hout'
  enter := by
    intro s i place pipe place' ⟨hstands, _, hact⟩ hout hin
    exact enter_of_acts (acts_of_act hact) (shift_move hstands pipe place') hout hin
  within := by
    intro s i place pipe place' ⟨hstands, _, hact⟩ hin hin'
    exact within_of_acts (acts_of_act hact) (shift_move hstands pipe place') hin hin'
  leave := by
    intro s i place pipe place' ⟨hstands, _, hact⟩ hin hout
    exact leave_of_acts (acts_of_act hact) (shift_move hstands pipe place') hin hout

theorem free_opened : Free (view opened) where
  active := rfl
  closed := fun h => absurd h (Nat.lt_irrefl 0)
  sound := fun _ h => (by cases h)
  shut := fun h => (by cases h)
  opened := fun _ _ h => (by cases h)

/-! ### The life of the handle -/

theorem Free.open_or_shut {v : View} (h : Free v) : v.pipe.Open ∨ v.pipe.Shut := by
  cases hclosed : v.pipe.closed with
  | false => exact Or.inl (h.opened (Or.inl hclosed))
  | true =>
      rcases Nat.eq_zero_or_pos v.counted with hzero | hpos
      · exact Or.inr (h.shut hclosed hzero)
      · exact Or.inl (h.opened (Or.inr hpos))

theorem At.steady {place : Place} {v : View} (h : At place v) :
    Steady v ∧ (v.pipe.Open ∨ v.pipe.Shut) := by
  cases place
  case issue => exact ⟨h.1.toSteady, h.1.open_or_shut⟩
  case deregister => exact ⟨h.1.toSteady, h.1.open_or_shut⟩
  case lastOut => exact ⟨h.1, Or.inl h.2⟩
  case closeCancel => exact ⟨h.1, Or.inl h.2.1⟩
  case closeLast => exact ⟨h.1, Or.inl h.2.1⟩
  all_goals exact ⟨Free.toSteady h, Free.open_or_shut h⟩

/-- Either the monitor is free, or somebody stands inside. -/
theorem free_or_at {s : Threads Pipe Place} (h : code.Holds view Free At s) :
    Free (view s) ∨ ∃ place ∈ s.places, place.inside = true ∧ At place (view s) := by
  by_cases hzero : s.tally code.inside = 0
  · exact Or.inl (h.free hzero)
  · obtain ⟨place, hplace, hin⟩ := List.countP_pos_iff.mp (Nat.pos_of_ne_zero hzero)
    exact Or.inr ⟨place, hplace, hin, h.inside place hplace hin⟩

theorem steady_of_holds {s : Threads Pipe Place} (h : code.Holds view Free At s) :
    Steady (view s) ∧ (s.shared.Open ∨ s.shared.Shut) := by
  rcases free_or_at h with hfree | ⟨place, _, _, hat⟩
  · exact ⟨hfree.toSteady, hfree.open_or_shut⟩
  · exact hat.steady

/-- Once a call of `close` has returned and no transfer is registered, the handle is
closed. -/
theorem shut_of_holds {s : Threads Pipe Place} (h : code.Holds view Free At s)
    (hreturned : Place.closeReturned ∈ s.places)
    (hnone : ∀ place ∈ s.places, place.registered = false) : s.shared.Shut := by
  have hpos : 0 < (view s).returned := List.countP_pos_iff.mpr ⟨_, hreturned, rfl⟩
  have hzero : (view s).counted = 0 := by
    refine Threads.tally_eq_zero.mpr fun place hplace => ?_
    have hregistered := hnone place hplace
    cases place
    case lastOut => cases hregistered
    all_goals exact hregistered
  have hfree (hfree : Free (view s)) : s.shared.Shut := hfree.shut (hfree.closed hpos) hzero
  rcases free_or_at h with hf | ⟨place, hplace, hin, hat⟩
  · exact hfree hf
  · have hregistered := hnone place hplace
    cases place
    case checkClosed => exact hfree hat
    case closeEntered => exact hfree hat
    case issue => cases hregistered
    case deregister => cases hregistered
    case lastOut => cases hregistered
    case closeCancel => exact absurd hat.2.2.2 (Nat.ne_of_gt hpos)
    case closeLast => exact absurd hat.2.2.2 (Nat.ne_of_gt hpos)
    all_goals cases hin

theorem Acts.closed {pipe pipe' : Pipe} {place place' : Place} (h : Acts pipe place pipe' place')
    (hclosed : pipe.closed = true) : pipe'.closed = true := by
  cases h with
  | closeFirst => rfl
  | lastOut => split <;> exact hclosed
  | closeLast => split <;> exact hclosed
  | _ => exact hclosed

/-- A connection that is closed stays closed. -/
theorem closed_of_step {s s' : Threads Pipe Place} {l : ThreadMove Place Answer}
    (h : code.step s l = some s') (hclosed : s.shared.closed = true) : s'.shared.closed = true := by
  cases l with
  | spawn place =>
      obtain ⟨_, rfl⟩ := ThreadCode.step_spawn h
      exact hclosed
  | act i answer =>
      obtain ⟨place, pipe, place', ⟨_, _, hact⟩, _, rfl⟩ := ThreadCode.step_act h
      exact (acts_of_act hact).closed hclosed

/-- In every interleaving of any number of transfers and calls of `close`, the handle
is closed at most once, when the connection is closed and no transfer counts; it is
closed when `close` has returned and the registered transfers have finished; nothing
is issued on a closed connection; and nothing is called on a closed handle. -/
theorem handle_closed_once {s : Threads Pipe Place} (hs : Reachable code.step opened s) :
    s.shared.calls.countP (·.call = .closeHandle) ≤ 1 ∧
    (∀ r ∈ s.shared.calls, r.call = .closeHandle → r.closed = true ∧ r.activeIo = 0) ∧
    (Place.closeReturned ∈ s.places → (∀ place ∈ s.places, place.registered = false) →
      s.shared.calls.countP (·.call = .closeHandle) = 1) ∧
    (∀ r ∈ s.shared.calls, r.call = .readFile ∨ r.call = .writeFile → r.closed = false) ∧
    (∀ l s', code.step s l = some s' → s.shared.closed = true → s'.shared.closed = true) ∧
    ∀ front r back, s.shared.calls = front ++ r :: back → r.call = .closeHandle → back = [] := by
  have hholds := outline.holds rfl free_opened hs
  obtain ⟨hsteady, hlife⟩ := steady_of_holds hholds
  refine ⟨?_, fun r hr => (hsteady.sound r hr).1,
    fun hreturned hnone => (shut_of_holds hholds hreturned hnone).count,
    fun r hr => (hsteady.sound r hr).2, fun l s' => closed_of_step,
    fun front r back => Pipe.last_of_shut hlife⟩
  rcases hlife with hlife | hlife
  · rw [hlife.count]
    exact Nat.zero_le 1
  · exact Nat.le_of_eq hlife.count

/-- A read is waiting when `close` comes, and it closes the handle as it leaves. -/
def closedUnderRead : List (ThreadMove Place Answer) :=
  [.spawn (.createEvent false), .spawn .close, .act 0 (.event true), .act 0 (.memory true),
    .act 0 .go, .act 0 .go, .act 0 (.error 997), .act 1 .go, .act 1 .go, .act 1 .go, .act 1 .go,
    .act 0 (.waited 0), .act 0 (.overlapped (.error 995)), .act 0 .go, .act 0 .go, .act 0 .go,
    .act 0 .go]

theorem closedUnderRead_closed : ∃ s, Library.run code.step opened closedUnderRead = some s ∧
    s.shared.calls.map (·.call) = [.readFile, .cancelIoEx, .getOverlappedResult, .closeHandle] ∧
    s.shared.calls.countP (·.call = .closeHandle) = 1 := by
  have h : (Library.run code.step opened closedUnderRead).map
      (fun s => (s.shared.calls.map (·.call), s.places)) =
        some ([.readFile, .cancelIoEx, .getOverlappedResult, .closeHandle],
          [.done (.ioException "Named pipe I/O failed: 995"), .closeReturned]) := by
    decide +kernel
  obtain ⟨s, hrun, hs⟩ := Option.map_eq_some_iff.mp h
  obtain ⟨hcalls, hplaces⟩ := Prod.mk.inj hs
  refine ⟨s, hrun, hcalls, (handle_closed_once ⟨_, hrun⟩).2.2.1 ?_ ?_⟩
  · rw [hplaces]
    decide
  · rw [hplaces]
    decide

end WindowsPipe
end WgKotlin
