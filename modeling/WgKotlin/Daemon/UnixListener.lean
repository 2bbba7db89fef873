import WgKotlin.Library.SharedDirectory
import WgKotlin.Library.Run

/-!
# The socket of the daemon

`LocalListener::bind` of `ipc/unix.rs` makes a directory of its own in `/tmp`, binds the
socket there, gives it to the user of the owner process and lets others into the
directory at last.  Each step is a call that names a path, and other processes work in
`/tmp` between any two of them.  When a step fails, and when the listener is dropped, the
socket and the directory are removed again.
-/

namespace WgKotlin
namespace Daemon
namespace Unix

open Library

/-! ### The endpoint -/

/-- The components of an absolute path. -/
def components (path : List Char) : List (List Char) :=
  (path.splitOn '/').filter fun component => component ≠ [] ∧ component ≠ ['.']

def endpointError : String := "IPC socket requires its own /tmp/wg-kotlin-* directory"

/-- The name of the directory in `/tmp` and the name of the socket in it. -/
def checkEndpoint (endpoint : String) : Except String (String × String) :=
  match endpoint.toList with
  | [] => .error "missing socket directory"
  | '/' :: path =>
    match components path with
    | [] => .error "missing socket directory"
    | [root, directory, name] =>
      if root = "tmp".toList ∧ "wg-kotlin-".toList.isPrefixOf directory = true then
        .ok (String.ofList directory, String.ofList name)
      else .error endpointError
    | _ => .error endpointError
  | _ => .error endpointError

/-! ### The listener -/

structure Setup where
  euid : Nat
  egid : Nat
  /-- `owner.uid` -/
  owner : Nat
  /-- the bits that the `umask` leaves -/
  kept : Nat
  /-- whether a user is in a group -/
  member : Nat → Nat → Bool
  directory : String
  name : String

/-- The user that the socket is for. -/
def Setup.user (setup : Setup) : Nat := if setup.euid = 0 then setup.owner else setup.euid

inductive Content
  | daemonSocket
  | other
  deriving DecidableEq, Repr

/-- The next call of `bind`, or of what drops its parts.  The flag tells whether `bind` had
returned the listener. -/
inductive BindPhase
  | creating
  | binding
  | restricting
  | giving
  | opening
  | listening
  | removingFile (bound : Bool)
  | removingDirectory (bound : Bool)
  | failed
  | closed
  deriving DecidableEq, Repr

/-- The socket is bound and has not been closed. -/
def BindPhase.hasSocket : BindPhase → Bool
  | .restricting | .giving | .opening | .listening | .removingFile _ => true
  | _ => false

structure Binding where
  files : SharedDirectory Content
  phase : BindPhase
  /-- the users whose processes have connected to the socket -/
  accepted : List Nat
  /-- the user that the socket is for has changed its mode -/
  relaxed : Bool

inductive BindLabel
  /-- the next call of the daemon, and whether the system lets it succeed -/
  | daemon (succeeds : Bool)
  | process (uid : Nat) (op : FileOp Content)
  | connect (uid : Nat)

namespace Binding

def start (files : SharedDirectory Content) : Binding where
  files := files
  phase := .creating
  accepted := []
  relaxed := false

variable (setup : Setup)

/-- The directory of the daemon, if there is one at its place. -/
def directory (s : Binding) : Option (FileNode Content × List (String × FileLeaf Content)) := do
  let node ← s.files setup.directory
  let entries ← node.entries
  some (node, entries)

/-- A call that changes the leaf at the path. -/
def changeLeaf (s : Binding) (change : FileLeaf Content → FileLeaf Content) : Option Binding := do
  let (node, entries) ← s.directory setup
  let leaf ← entries.lookup setup.name
  some { s with
    files := s.files.update setup.directory node
      (SharedDirectory.setLeaf entries setup.name (change leaf)) }

def newDirectory : FileNode Content where
  owner := setup.euid
  group := setup.egid
  mode := 0o700 &&& setup.kept
  entries := some []

def newSocket : FileLeaf Content where
  owner := setup.euid
  group := setup.egid
  mode := 0o777 &&& setup.kept
  content := .daemonSocket

/-- A call that succeeds, and the phase after it. -/
def callDaemon (s : Binding) : Option Binding :=
  match s.phase with
  | .creating =>
    match s.files setup.directory with
    | none => some { s with files := s.files.set setup.directory (some (newDirectory setup))
                            phase := .binding }
    | some _ => none
  | .binding => do
    let (node, entries) ← s.directory setup
    -- the directory above is always there
    if setup.name = ".." ∨ entries.lookup setup.name ≠ none then none
    else some { s with
      files := s.files.update setup.directory node (entries ++ [(setup.name, newSocket setup)])
      phase := .restricting }
  | .restricting => do
    let s' ← s.changeLeaf setup fun leaf => { leaf with mode := 0o600 }
    some { s' with phase := .giving }
  | .giving =>
    if setup.euid = 0 then do
      let s' ← s.changeLeaf setup fun leaf => { leaf with owner := setup.owner }
      some { s' with phase := .opening }
    else some { s with phase := .opening }
  | .opening => do
    let node ← s.files setup.directory
    some { s with files := s.files.set setup.directory (some { node with mode := 0o711 })
                  phase := .listening }
  | _ => none

/-- What follows a call that has failed. -/
def afterFailure : BindPhase → BindPhase
  | .creating => .failed
  | .binding => .removingDirectory false
  | .restricting | .giving | .opening => .removingFile false
  | phase => phase

def removeFile (s : Binding) : SharedDirectory Content :=
  match s.directory setup with
  | none => s.files
  | some (node, entries) =>
    s.files.update setup.directory node (SharedDirectory.deleteLeaf entries setup.name)

/-- Only an empty directory is removed. -/
def removeDirectory (s : Binding) : SharedDirectory Content :=
  match s.directory setup with
  | some (_, []) => s.files.set setup.directory none
  | _ => s.files

def stepDaemon (s : Binding) (succeeds : Bool) : Option Binding :=
  match s.phase with
  | .listening => some { s with phase := .removingFile true }
  | .removingFile bound =>
    some { s with files := s.removeFile setup, phase := .removingDirectory bound }
  | .removingDirectory bound =>
    some { s with files := s.removeDirectory setup, phase := if bound then .closed else .failed }
  | .failed | .closed => none
  | phase =>
    if succeeds then
      match s.callDaemon setup with
      | some s' => some s'
      | none => some { s with phase := afterFailure phase }
    else some { s with phase := afterFailure phase }

/-- The user that the socket is for changes its mode. -/
def relaxes (s : Binding) (uid : Nat) : FileOp Content → Bool
  | .chmodIn directory name _ =>
    s.phase.hasSocket && uid == setup.user && directory == setup.directory && name == setup.name
  | _ => false

def step (s : Binding) : BindLabel → Option Binding
  | .daemon succeeds => s.stepDaemon setup succeeds
  | .process uid op =>
    if uid = 0 ∨ uid = setup.euid then none
    else (SharedDirectory.apply setup.member uid s.files op).map fun files =>
      { s with files := files, relaxed := s.relaxed || s.relaxes setup uid op }
  | .connect uid => do
    let (_, entries) ←
      SharedDirectory.openDirectory setup.member uid [.search] s.files setup.directory
    let leaf ← entries.lookup setup.name
    if permits setup.member uid leaf.owner leaf.group leaf.mode .write then
      if s.phase.hasSocket && leaf.content == .daemonSocket then
        some { s with accepted := uid :: s.accepted }
      else some s
    else none

/-! ### Rights -/

section Rights

variable {setup} {uid owner group : Nat} {right : Right}

/-- The right of a user that is not the owner is one of two bits. -/
theorem permits_other (hroot : uid ≠ 0) (howner : uid ≠ owner) {member : Nat → Nat → Bool}
    {mode : Nat} (h : permits member uid owner group mode right = true) :
    mode.testBit (right.bit + 3) = true ∨ mode.testBit right.bit = true := by
  rw [permits, Bool.or_eq_true, beq_iff_eq] at h
  rcases h with h | h
  · exact absurd h hroot
  · rw [if_neg howner] at h
    split at h
    · exact Or.inl h
    · exact Or.inr h

/-- Nobody else gets into the directory before it is opened. -/
theorem private_permits {member : Nat → Nat → Bool} {kept : Nat}
    (h : permits member uid owner group (0o700 &&& kept) right = true) : uid = 0 ∨ uid = owner := by
  by_contra hno
  obtain ⟨hroot, howner⟩ := not_or.mp hno
  rcases permits_other hroot howner h with hbit | hbit
  · rw [Nat.testBit_and, Bool.and_eq_true] at hbit
    cases right <;> exact absurd hbit.1 (by decide)
  · rw [Nat.testBit_and, Bool.and_eq_true] at hbit
    cases right <;> exact absurd hbit.1 (by decide)

/-- Nobody else writes to the directory after that. -/
theorem public_write {member : Nat → Nat → Bool}
    (h : permits member uid owner group 0o711 .write = true) : uid = 0 ∨ uid = owner := by
  by_contra hno
  obtain ⟨hroot, howner⟩ := not_or.mp hno
  rcases permits_other hroot howner h with hbit | hbit
  · exact absurd hbit (by decide)
  · exact absurd hbit (by decide)

theorem socket_write {member : Nat → Nat → Bool}
    (h : permits member uid owner group 0o600 .write = true) : uid = 0 ∨ uid = owner := by
  by_contra hno
  obtain ⟨hroot, howner⟩ := not_or.mp hno
  rcases permits_other hroot howner h with hbit | hbit
  · exact absurd hbit (by decide)
  · exact absurd hbit (by decide)

end Rights

/-! ### The directory of the daemon -/

/-- The directory is at its place, with these entries. -/
def Made (s : Binding) (mode : Nat) (entries : List (String × FileLeaf Content)) : Prop :=
  s.files setup.directory = some ⟨setup.euid, setup.egid, mode, some entries⟩

/-- The mode of the directory before it is opened. -/
def privateMode : Nat := 0o700 &&& setup.kept

def socket (owner mode : Nat) : List (String × FileLeaf Content) :=
  [(setup.name, ⟨owner, setup.egid, mode, .daemonSocket⟩)]

/-- What stands at the path of the daemon in each phase. -/
def Stands (s : Binding) : Prop :=
  match s.phase with
  | .creating | .failed | .closed => True
  | .binding => Made setup s (privateMode setup) []
  | .restricting =>
    Made setup s (privateMode setup) (socket setup setup.euid (0o777 &&& setup.kept))
  | .giving => Made setup s (privateMode setup) (socket setup setup.euid 0o600)
  | .opening => Made setup s (privateMode setup) (socket setup setup.user 0o600)
  | .listening | .removingFile true =>
    ∃ mode, Made setup s 0o711 (socket setup setup.user mode) ∧ (s.relaxed = true ∨ mode = 0o600)
  | .removingFile false => ∃ owner mode, Made setup s (privateMode setup) (socket setup owner mode)
  | .removingDirectory _ =>
    ∃ mode, Made setup s mode [] ∧ (mode = privateMode setup ∨ mode = 0o711)

section Steps

variable {setup} {s s' : Binding} {mode : Nat} {entries : List (String × FileLeaf Content)}

theorem Made.directory (h : Made setup s mode entries) :
    s.directory setup = some (⟨setup.euid, setup.egid, mode, some entries⟩, entries) := by
  unfold Binding.directory
  rw [h]
  rfl

theorem made_update (s : Binding) (mode : Nat)
    (entries next : List (String × FileLeaf Content)) (phase : BindPhase) :
    Made setup { s with
      files := s.files.update setup.directory ⟨setup.euid, setup.egid, mode, some entries⟩ next
      phase := phase } mode next :=
  SharedDirectory.set_self s.files setup.directory _

theorem lookup_socket (owner mode : Nat) :
    (socket setup owner mode).lookup setup.name =
      some ⟨owner, setup.egid, mode, .daemonSocket⟩ := by
  simp [socket]

theorem setLeaf_socket (owner mode : Nat) (leaf : FileLeaf Content) :
    SharedDirectory.setLeaf (socket setup owner mode) setup.name leaf = [(setup.name, leaf)] := by
  simp [SharedDirectory.setLeaf, socket]

theorem deleteLeaf_socket (owner mode : Nat) :
    SharedDirectory.deleteLeaf (socket setup owner mode) setup.name = [] := by
  simp [SharedDirectory.deleteLeaf, socket]

section Others

variable {uid : Nat} {op : FileOp Content} {files : SharedDirectory Content}

/-- Other processes leave the directory alone, the modes of their own files in it apart. -/
theorem made_of_process (h : Made setup s mode entries) (hroot : uid ≠ 0)
    (hother : uid ≠ setup.euid)
    (hwrite : permits setup.member uid setup.euid setup.egid mode .write = true →
      uid = 0 ∨ uid = setup.euid)
    (happly : SharedDirectory.apply setup.member uid s.files op = some files) :
    files setup.directory = some ⟨setup.euid, setup.egid, mode, some entries⟩ ∨
      permits setup.member uid setup.euid setup.egid mode .search = true ∧
        ∃ name leaf newMode, op = .chmodIn setup.directory name newMode ∧
          entries.lookup name = some leaf ∧ leaf.owner = uid ∧
          files setup.directory = some ⟨setup.euid, setup.egid, mode,
            some (SharedDirectory.setLeaf entries name { leaf with mode := newMode })⟩ := by
  have hdenied : permits setup.member uid setup.euid setup.egid mode .write = false := by
    rw [Bool.eq_false_iff]
    exact fun hpermits => (hwrite hpermits).elim hroot hother
  rcases SharedDirectory.apply_protected h hother.symm hdenied happly with hsame | hchanged
  · exact Or.inl hsame
  · obtain ⟨hsearch, list, name, leaf, newMode, hop, hlist, hleaf, hown, hfiles⟩ := hchanged
    cases hlist
    exact Or.inr ⟨hsearch, name, leaf, newMode, hop, hleaf, hown, hfiles⟩

theorem private_of_process (h : Made setup s (privateMode setup) entries) (hroot : uid ≠ 0)
    (hother : uid ≠ setup.euid)
    (happly : SharedDirectory.apply setup.member uid s.files op = some files) :
    files setup.directory = some ⟨setup.euid, setup.egid, privateMode setup, some entries⟩ := by
  rcases made_of_process h hroot hother private_permits happly with hsame | ⟨hsearch, _⟩
  · exact hsame
  · exact ((private_permits hsearch).elim hroot hother).elim

/-- The user that the socket is for can change its mode, and nothing else can be done. -/
theorem public_of_process (h : Made setup s 0o711 (socket setup setup.user mode)) (hroot : uid ≠ 0)
    (hother : uid ≠ setup.euid)
    (happly : SharedDirectory.apply setup.member uid s.files op = some files) :
    ∃ newMode, (s.phase.hasSocket = true → s.relaxes setup uid op = true ∨ newMode = mode) ∧
      files setup.directory =
        some ⟨setup.euid, setup.egid, 0o711, some (socket setup setup.user newMode)⟩ := by
  rcases made_of_process h hroot hother public_write happly with hsame | ⟨_, hchmod⟩
  · exact ⟨mode, fun _ => Or.inr rfl, hsame⟩
  · obtain ⟨name, leaf, newMode, hop, hleaf, hown, hfiles⟩ := hchmod
    have hname : name = setup.name := by
      by_contra hne
      rw [socket, List.lookup_cons, beq_eq_false_iff_ne.mpr hne] at hleaf
      cases hleaf
    subst hname
    rw [lookup_socket, Option.some.injEq] at hleaf
    rw [← hleaf] at hown
    rw [setLeaf_socket, ← hleaf] at hfiles
    refine ⟨newMode, fun hsocket => Or.inl ?_, hfiles⟩
    have huser : uid = setup.user := hown.symm
    simp [hop, relaxes, hsocket, huser]

theorem Stands.process (h : Stands setup s) (hroot : uid ≠ 0) (hother : uid ≠ setup.euid)
    (happly : SharedDirectory.apply setup.member uid s.files op = some files) :
    Stands setup { s with files := files, relaxed := s.relaxed || s.relaxes setup uid op } := by
  have hpublic : s.phase.hasSocket = true →
      (∃ mode, Made setup s 0o711 (socket setup setup.user mode) ∧
        (s.relaxed = true ∨ mode = 0o600)) →
      ∃ mode, files setup.directory =
        some ⟨setup.euid, setup.egid, 0o711, some (socket setup setup.user mode)⟩ ∧
        ((s.relaxed || s.relaxes setup uid op) = true ∨ mode = 0o600) := by
    rintro hsocket ⟨mode, hmade, hrelaxed⟩
    obtain ⟨newMode, hnew, hfiles⟩ := public_of_process hmade hroot hother happly
    refine ⟨newMode, hfiles, ?_⟩
    rw [Bool.or_eq_true]
    rcases hnew hsocket with hrelaxes | rfl
    · exact Or.inl (Or.inr hrelaxes)
    · exact hrelaxed.imp Or.inl id
  unfold Stands at h ⊢
  simp only
  cases hphase : s.phase with
  | creating | failed | closed => trivial
  | binding | restricting | giving | opening =>
      rw [hphase] at h
      exact private_of_process h hroot hother happly
  | listening =>
      rw [hphase] at h hpublic
      exact hpublic rfl h
  | removingFile bound =>
      rw [hphase] at h hpublic
      cases bound with
      | true => exact hpublic rfl h
      | false =>
          obtain ⟨owner, mode, hmade⟩ := h
          exact ⟨owner, mode, private_of_process hmade hroot hother happly⟩
  | removingDirectory bound =>
      rw [hphase] at h
      obtain ⟨mode, hmade, hmode | hmode⟩ := h
      · subst hmode
        exact ⟨_, private_of_process hmade hroot hother happly, Or.inl rfl⟩
      · subst hmode
        rcases made_of_process hmade hroot hother public_write happly with hsame | ⟨_, hchmod⟩
        · exact ⟨_, hsame, Or.inr rfl⟩
        · obtain ⟨_, _, _, _, hleaf, _⟩ := hchmod
          cases hleaf

end Others

/-! ### The calls of the daemon -/

theorem changeLeaf_socket {owner socketMode : Nat}
    (h : Made setup s mode (socket setup owner socketMode))
    (change : FileLeaf Content → FileLeaf Content) :
    s.changeLeaf setup change = some { s with
      files := s.files.update setup.directory
        ⟨setup.euid, setup.egid, mode, some (socket setup owner socketMode)⟩
        [(setup.name, change ⟨owner, setup.egid, socketMode, .daemonSocket⟩)] } := by
  unfold changeLeaf
  rw [h.directory]
  show (List.lookup setup.name (socket setup owner socketMode)).bind _ = _
  rw [lookup_socket, Option.bind_some, setLeaf_socket]

/-- What a call of the daemon does to its directory, and that it leaves all else alone. -/
structure Calls (setup : Setup) (s s' : Binding) : Prop where
  stands : Stands setup s'
  others : ∀ other, other ≠ setup.directory → s'.files other = s.files other
  accepted : s'.accepted = s.accepted
  relaxed : s'.relaxed = s.relaxed

theorem calls_update {entries next : List (String × FileLeaf Content)} {phase : BindPhase}
    (hstands : Made setup { s with
        files := s.files.update setup.directory ⟨setup.euid, setup.egid, mode, some entries⟩ next
        phase := phase } mode next →
      Stands setup { s with
        files := s.files.update setup.directory ⟨setup.euid, setup.egid, mode, some entries⟩ next
        phase := phase }) :
    Calls setup s { s with
      files := s.files.update setup.directory ⟨setup.euid, setup.egid, mode, some entries⟩ next
      phase := phase } where
  stands := hstands (made_update s mode entries next phase)
  others := fun _ hne => SharedDirectory.set_ne s.files _ hne
  accepted := rfl
  relaxed := rfl

theorem calls_failure {phase : BindPhase} (hstands : Stands setup { s with phase := phase }) :
    Calls setup s { s with phase := phase } :=
  ⟨hstands, fun _ _ => rfl, rfl, rfl⟩

theorem callDaemon_calls (h : Stands setup s) (hcall : s.callDaemon setup = some s') :
    Calls setup s s' := by
  unfold Stands at h
  unfold callDaemon at hcall
  cases hphase : s.phase with
  | creating =>
      simp only [hphase] at hcall
      split at hcall
      · cases hcall
        exact ⟨SharedDirectory.set_self s.files setup.directory _,
          fun _ hne => SharedDirectory.set_ne s.files _ hne, rfl, rfl⟩
      · cases hcall
  | binding =>
      rw [hphase] at h
      simp only [hphase, (h : Made _ _ _ _).directory, Option.bind_eq_bind,
        Option.bind_some] at hcall
      obtain ⟨_, hcall⟩ := Option.ite_none_left_eq_some.mp hcall
      cases hcall
      exact calls_update id
  | restricting =>
      rw [hphase] at h
      simp only [hphase, changeLeaf_socket h, Option.bind_eq_bind, Option.bind_some] at hcall
      cases hcall
      exact calls_update id
  | giving =>
      rw [hphase] at h
      simp only [hphase] at hcall
      split at hcall
      next hroot =>
        simp only [changeLeaf_socket h, Option.bind_eq_bind, Option.bind_some] at hcall
        cases hcall
        refine calls_update fun hmade => ?_
        have huser : setup.user = setup.owner := if_pos hroot
        unfold Stands
        simp only [huser]
        exact hmade
      next hroot =>
        cases hcall
        have huser : setup.user = setup.euid := if_neg hroot
        refine calls_failure ?_
        unfold Stands
        simp only [huser]
        exact h
  | opening =>
      rw [hphase] at h
      have hfiles : s.files setup.directory = some ⟨setup.euid, setup.egid, privateMode setup,
          some (socket setup setup.user 0o600)⟩ := h
      simp only [hphase, hfiles, Option.bind_eq_bind, Option.bind_some] at hcall
      cases hcall
      exact ⟨⟨0o600, SharedDirectory.set_self s.files setup.directory _, Or.inr rfl⟩,
        fun _ hne => SharedDirectory.set_ne s.files _ hne, rfl, rfl⟩
  | listening | removingFile _ | removingDirectory _ | failed | closed =>
      simp only [hphase] at hcall
      cases hcall

/-- After a call that has failed the parts are dropped that there are. -/
theorem stands_afterFailure (h : Stands setup s) :
    Stands setup { s with phase := afterFailure s.phase } := by
  unfold Stands at h
  cases hphase : s.phase with
  | creating => trivial
  | binding =>
      rw [hphase] at h
      exact ⟨_, h, Or.inl rfl⟩
  | restricting | giving | opening =>
      rw [hphase] at h
      exact ⟨_, _, h⟩
  | failed | closed => trivial
  | listening | removingDirectory _ =>
      rw [hphase] at h
      exact h
  | removingFile bound =>
      rw [hphase] at h
      cases bound with
      | true => exact h
      | false => exact h

theorem removeFile_socket {owner socketMode : Nat}
    (h : Made setup s mode (socket setup owner socketMode)) :
    s.removeFile setup = s.files.update setup.directory
      ⟨setup.euid, setup.egid, mode, some (socket setup owner socketMode)⟩ [] := by
  unfold removeFile
  rw [h.directory]
  show s.files.update _ _
    (SharedDirectory.deleteLeaf (socket setup owner socketMode) setup.name) = _
  rw [deleteLeaf_socket]

theorem stepDaemon_calls {succeeds : Bool} (h : Stands setup s)
    (hstep : s.stepDaemon setup succeeds = some s') : Calls setup s s' := by
  have htry : (if succeeds then
      match s.callDaemon setup with
      | some s' => some s'
      | none => some { s with phase := afterFailure s.phase }
    else some { s with phase := afterFailure s.phase }) = some s' → Calls setup s s' := by
    intro htry
    split at htry
    · split at htry
      next next hcall =>
        cases htry
        exact callDaemon_calls h hcall
      next =>
        cases htry
        exact calls_failure (stands_afterFailure h)
    · cases htry
      exact calls_failure (stands_afterFailure h)
  unfold stepDaemon at hstep
  unfold Stands at h
  cases hphase : s.phase with
  | creating | binding | restricting | giving | opening =>
      simp only [hphase] at hstep htry
      exact htry hstep
  | listening =>
      rw [hphase] at h
      simp only [hphase] at hstep
      cases hstep
      exact calls_failure h
  | removingFile bound =>
      rw [hphase] at h
      simp only [hphase] at hstep
      cases hstep
      cases bound with
      | true =>
          obtain ⟨socketMode, hmade, _⟩ := h
          rw [removeFile_socket hmade]
          exact calls_update fun hnext => ⟨_, hnext, Or.inr rfl⟩
      | false =>
          obtain ⟨owner, socketMode, hmade⟩ := h
          rw [removeFile_socket hmade]
          exact calls_update fun hnext => ⟨_, hnext, Or.inl rfl⟩
  | removingDirectory bound =>
      rw [hphase] at h
      simp only [hphase] at hstep
      cases hstep
      obtain ⟨mode, hmade, _⟩ := h
      refine ⟨?_, ?_, rfl, rfl⟩
      · cases bound <;> trivial
      · intro other hne
        unfold removeDirectory
        rw [hmade.directory]
        exact SharedDirectory.set_ne s.files _ hne
  | failed | closed =>
      simp only [hphase] at hstep
      cases hstep

/-! ### The connections -/

/-- Who can reach the socket while there is one. -/
theorem Stands.socket_made (h : Stands setup s) (hsocket : s.phase.hasSocket = true) :
    ∃ mode owner socketMode, Made setup s mode (socket setup owner socketMode) ∧
      (mode = privateMode setup ∨
        mode = 0o711 ∧ owner = setup.user ∧ (s.relaxed = true ∨ socketMode = 0o600)) := by
  unfold Stands at h
  cases hphase : s.phase with
  | restricting | giving | opening =>
      rw [hphase] at h
      exact ⟨_, _, _, h, Or.inl rfl⟩
  | listening =>
      rw [hphase] at h
      obtain ⟨socketMode, hmade, hmode⟩ := h
      exact ⟨_, _, _, hmade, Or.inr ⟨rfl, rfl, hmode⟩⟩
  | removingFile bound =>
      rw [hphase] at h
      cases bound with
      | true =>
          obtain ⟨socketMode, hmade, hmode⟩ := h
          exact ⟨_, _, _, hmade, Or.inr ⟨rfl, rfl, hmode⟩⟩
      | false =>
          obtain ⟨owner, socketMode, hmade⟩ := h
          exact ⟨_, _, _, hmade, Or.inl rfl⟩
  | creating | binding | removingDirectory _ | failed | closed =>
      rw [hphase] at hsocket
      cases hsocket

/-- The users that the daemon takes connections from. -/
def Admitted (setup : Setup) (s : Binding) (uid : Nat) : Prop :=
  uid = 0 ∨ uid = setup.euid ∨ uid = setup.user ∨ s.relaxed = true

theorem connect_eq_some {uid : Nat} (h : step setup s (.connect uid) = some s') :
    ∃ node entries leaf, s.files setup.directory = some node ∧ node.entries = some entries ∧
      entries.lookup setup.name = some leaf ∧
      permits setup.member uid node.owner node.group node.mode .search = true ∧
      permits setup.member uid leaf.owner leaf.group leaf.mode .write = true ∧
      s' = if s.phase.hasSocket && leaf.content == .daemonSocket then
        { s with accepted := uid :: s.accepted } else s := by
  obtain ⟨⟨node, entries⟩, hopen, h⟩ := Option.bind_eq_some_iff.mp h
  obtain ⟨leaf, hleaf, h⟩ := Option.bind_eq_some_iff.mp h
  obtain ⟨hwrite, h⟩ := Option.ite_none_right_eq_some.mp h
  obtain ⟨hnode, hentries, hrights⟩ := SharedDirectory.openDirectory_eq_some hopen
  refine ⟨node, entries, leaf, hnode, hentries, hleaf, hrights .search (by simp), hwrite, ?_⟩
  split at h
  next hcond =>
    rw [if_pos hcond]
    exact (Option.some.inj h).symm
  next hcond =>
    rw [if_neg hcond]
    exact (Option.some.inj h).symm

/-- While there is a socket a connection at the path reaches it. -/
theorem connect_accepted {uid : Nat} (h : Stands setup s) (hsocket : s.phase.hasSocket = true)
    (hconnect : step setup s (.connect uid) = some s') :
    s' = { s with accepted := uid :: s.accepted } ∧ Admitted setup s uid := by
  obtain ⟨mode, owner, socketMode, hmade, hmode⟩ := h.socket_made hsocket
  obtain ⟨node, entries, leaf, hnode, hentries, hleaf, hsearch, hwrite, hnext⟩ :=
    connect_eq_some hconnect
  rw [hmade] at hnode
  cases hnode
  cases hentries
  rw [lookup_socket] at hleaf
  cases hleaf
  refine ⟨by rw [hnext, hsocket]; rfl, ?_⟩
  rcases hmode with hprivate | ⟨_, howner, hrelaxed | hsocketMode⟩
  · rw [hprivate] at hsearch
    exact (private_permits hsearch).imp id Or.inl
  · exact Or.inr (Or.inr (Or.inr hrelaxed))
  · rw [hsocketMode] at hwrite
    rcases socket_write hwrite with hroot | huser
    · exact Or.inl hroot
    · exact Or.inr (Or.inr (Or.inl (huser.trans howner)))

/-- The user that the socket is for can connect. -/
theorem user_connects (h : Stands setup s) (hphase : s.phase = .listening)
    (hrelaxed : s.relaxed = false) : (step setup s (.connect setup.user)).isSome = true := by
  unfold Stands at h
  rw [hphase] at h
  obtain ⟨mode, hmade, hmode⟩ := h
  rw [hrelaxed] at hmode
  obtain rfl : mode = 0o600 := hmode.resolve_left Bool.false_ne_true
  have hsearch : permits setup.member setup.user setup.euid setup.egid 0o711 .search = true := by
    rw [permits, Bool.or_eq_true]
    refine Or.inr ?_
    split
    · decide
    · split
      · decide
      · decide
  have hwrite : permits setup.member setup.user setup.user setup.egid 0o600 .write = true := by
    rw [permits, if_pos rfl, Bool.or_eq_true]
    exact Or.inr (by decide)
  have hopen : SharedDirectory.openDirectory setup.member setup.user [.search] s.files
      setup.directory = some (⟨setup.euid, setup.egid, 0o711,
        some (socket setup setup.user 0o600)⟩, socket setup setup.user 0o600) := by
    unfold SharedDirectory.openDirectory
    rw [hmade]
    simp [hsearch]
  simp only [step, hopen, Option.bind_eq_bind, Option.bind_some, lookup_socket, hwrite, hphase]
  rfl

/-! ### The end -/

theorem stepDaemon_collision {succeeds : Bool} (hphase : s.phase = .creating)
    (hthere : s.files setup.directory ≠ none)
    (hstep : s.stepDaemon setup succeeds = some s') : s' = { s with phase := .failed } := by
  obtain ⟨node, hnode⟩ := Option.ne_none_iff_exists'.mp hthere
  have hcall : s.callDaemon setup = none := by
    unfold callDaemon
    simp only [hphase, hnode]
  simp only [stepDaemon, hphase, hcall, ite_self] at hstep
  exact (Option.some.inj hstep).symm

/-- The directory is empty when it is removed, so it goes. -/
theorem stepDaemon_removed {succeeds bound : Bool} (h : Stands setup s)
    (hphase : s.phase = .removingDirectory bound)
    (hstep : s.stepDaemon setup succeeds = some s') : s'.files setup.directory = none := by
  unfold Stands at h
  rw [hphase] at h
  obtain ⟨mode, hmade, _⟩ := h
  simp only [stepDaemon, hphase] at hstep
  cases hstep
  unfold removeDirectory
  rw [hmade.directory]
  exact SharedDirectory.set_self s.files setup.directory none

theorem checkEndpoint_directory {endpoint directory name : String}
    (h : checkEndpoint endpoint = .ok (directory, name)) :
    "wg-kotlin-".toList <+: directory.toList := by
  unfold checkEndpoint at h
  split at h
  · cases h
  next path =>
    split at h
    · cases h
    next found leaf _ =>
      split at h
      next hcond =>
        cases h
        have hfound : (String.ofList found).toList = found := String.toList_ofList
        rw [hfound]
        exact List.isPrefixOf_iff_prefix.mp hcond.2
      next => cases h
    next => cases h
  next => cases h

/-! ### Every run -/

structure Guarded (setup : Setup) (s : Binding) : Prop where
  stands : Stands setup s
  admitted : ∀ uid ∈ s.accepted, Admitted setup s uid

theorem Guarded.step {label : BindLabel} (h : Guarded setup s)
    (hstep : step setup s label = some s') : Guarded setup s' := by
  cases label with
  | daemon succeeds =>
      obtain ⟨hstands, _, haccepted, hrelaxed⟩ := stepDaemon_calls h.stands hstep
      refine ⟨hstands, fun uid huid => ?_⟩
      unfold Admitted
      rw [hrelaxed]
      exact h.admitted uid (haccepted ▸ huid)
  | process uid op =>
      obtain ⟨hother, hstep⟩ := Option.ite_none_left_eq_some.mp hstep
      obtain ⟨hroot, hother⟩ := not_or.mp hother
      obtain ⟨files, happly, rfl⟩ := Option.map_eq_some_iff.mp hstep
      refine ⟨h.stands.process hroot hother happly, fun other hmem => ?_⟩
      rcases h.admitted other hmem with hroot | heuid | huser | hrelaxed
      · exact Or.inl hroot
      · exact Or.inr (Or.inl heuid)
      · exact Or.inr (Or.inr (Or.inl huser))
      · exact Or.inr (Or.inr (Or.inr (Bool.or_eq_true _ _ ▸ Or.inl hrelaxed)))
  | connect uid =>
      by_cases hsocket : s.phase.hasSocket = true
      · obtain ⟨rfl, hadmitted⟩ := connect_accepted h.stands hsocket hstep
        refine ⟨h.stands, fun other hmem => ?_⟩
        rcases List.mem_cons.mp hmem with rfl | hmem
        · exact hadmitted
        · exact h.admitted other hmem
      · obtain ⟨_, _, _, _, _, _, _, _, hnext⟩ := connect_eq_some hstep
        rw [Bool.not_eq_true] at hsocket
        rw [hsocket] at hnext
        subst hnext
        exact h

theorem guarded_of_reachable {files : SharedDirectory Content}
    (hs : Reachable (Binding.step setup) (start files) s) : Guarded setup s :=
  reachable_invariant ⟨trivial, fun _ hmem => absurd hmem List.not_mem_nil⟩
    (fun _ _ _ h hstep => h.step hstep) hs

/-- The daemon works in a directory of its own: it touches no other entry of `/tmp`, gives up
where something is at its place, and leaves nothing behind.  Whatever others do in `/tmp`
between its calls, what connects at the path reaches the daemon, and only the user that the
socket is for, `root` and the user of the daemon connect, until that user lets others in. -/
theorem socket_reserved {endpoint : String} {files : SharedDirectory Content}
    (hendpoint : checkEndpoint endpoint = .ok (setup.directory, setup.name))
    (hs : Reachable (Binding.step setup) (start files) s) :
    "wg-kotlin-".toList <+: setup.directory.toList ∧
      (∀ uid ∈ s.accepted, Admitted setup s uid) ∧
      (∀ uid s', s.phase.hasSocket = true → Binding.step setup s (.connect uid) = some s' →
        s' = { s with accepted := uid :: s.accepted }) ∧
      (s.phase = .listening → s.relaxed = false →
        (Binding.step setup s (.connect setup.user)).isSome = true) ∧
      ∀ succeeds s', Binding.step setup s (.daemon succeeds) = some s' →
        (∀ other, other ≠ setup.directory → s'.files other = s.files other) ∧
        (s.phase = .creating → s.files setup.directory ≠ none →
          s' = { s with phase := .failed }) ∧
        ∀ bound, s.phase = .removingDirectory bound → s'.files setup.directory = none := by
  have hguarded := guarded_of_reachable hs
  refine ⟨checkEndpoint_directory hendpoint, hguarded.admitted, ?_, ?_, ?_⟩
  · intro uid s' hsocket hconnect
    exact (connect_accepted hguarded.stands hsocket hconnect).1
  · exact user_connects hguarded.stands
  · intro succeeds s' hstep
    refine ⟨(stepDaemon_calls hguarded.stands hstep).others, ?_, ?_⟩
    · intro hphase hthere
      exact stepDaemon_collision hphase hthere hstep
    · intro bound hphase
      exact stepDaemon_removed hguarded.stands hphase hstep

/-- A daemon of `root` for the user 1000. -/
def rootSetup : Setup where
  euid := 0
  egid := 0
  owner := 1000
  kept := 0o755
  member := fun _ _ => false
  directory := "wg-kotlin-7"
  name := "daemon.sock"

/-- Another user makes files of its own, cannot take the place of the socket, and the
user of the daemon connects. -/
def sharedRun : List BindLabel :=
  [.daemon true, .process 1001 (.create "wg-kotlin-8" ⟨1001, 1001, 0o777, some []⟩),
    .daemon true, .daemon true, .daemon true, .daemon true, .connect 1000]

theorem sharedRun_listens :
    ((Library.run (Binding.step rootSetup) (start fun _ => none) sharedRun).map fun s =>
      (s.phase, s.accepted, s.relaxed, (Binding.step rootSetup s (.connect 1001)).isSome,
        (SharedDirectory.apply rootSetup.member 1001 s.files
          (.deleteIn "wg-kotlin-7" "daemon.sock")).isSome)) =
      some (.listening, [1000], false, false, false) := by
  decide +kernel

theorem socket_reserved_shared : ∃ s,
    Library.run (Binding.step rootSetup) (start fun _ => none) sharedRun = some s ∧
      (∀ uid ∈ s.accepted, Admitted rootSetup s uid) ∧
      (Binding.step rootSetup s (.connect rootSetup.user)).isSome = true := by
  obtain ⟨s, hrun, hs⟩ := Option.map_eq_some_iff.mp sharedRun_listens
  have hendpoint : checkEndpoint "/tmp/wg-kotlin-7/daemon.sock" =
      .ok (rootSetup.directory, rootSetup.name) := by decide +kernel
  obtain ⟨_, hadmitted, _, hconnects, _⟩ := socket_reserved hendpoint ⟨sharedRun, hrun⟩
  simp only [Prod.mk.injEq] at hs
  exact ⟨s, hrun, hadmitted, hconnects hs.1 hs.2.2.1⟩

end Steps

end Binding
end Unix
end Daemon
end WgKotlin
