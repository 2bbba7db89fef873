import Mathlib.Data.List.Basic
import Mathlib.Data.Nat.Bitwise

/-!
# A directory that everybody may write to

The entries of a sticky directory such as `/tmp`, and the entries of the directories in
it.  Processes work on them with the rights of their users.  A process that is not
privileged leaves an entry alone that is not its own, and the contents of a directory
that it may not write to.
-/

namespace WgKotlin
namespace Library

variable {κ : Type}

structure FileLeaf (κ : Type) where
  owner : Nat
  group : Nat
  mode : Nat
  content : κ
  deriving DecidableEq, Repr

/-- An entry of the shared directory.  What is not a directory has no entries. -/
structure FileNode (κ : Type) where
  owner : Nat
  group : Nat
  mode : Nat
  entries : Option (List (String × FileLeaf κ))
  deriving DecidableEq, Repr

abbrev SharedDirectory (κ : Type) := String → Option (FileNode κ)

/-- The position of a right in each of the three parts of a mode. -/
inductive Right
  | search
  | write
  deriving DecidableEq

def Right.bit : Right → Nat
  | .search => 0
  | .write => 1

/-- `member` tells the groups of a user. -/
def permits (member : Nat → Nat → Bool) (uid owner group mode : Nat) (right : Right) : Bool :=
  uid == 0 || mode.testBit (right.bit +
    if uid = owner then 6 else if member uid group then 3 else 0)

/-- What a process can do with the files. -/
inductive FileOp (κ : Type)
  | create (name : String) (node : FileNode κ)
  | delete (name : String)
  | chmod (name : String) (mode : Nat)
  | createIn (directory name : String) (leaf : FileLeaf κ)
  | deleteIn (directory name : String)
  | chmodIn (directory name : String) (mode : Nat)

namespace SharedDirectory

def set (files : SharedDirectory κ) (name : String) (node : Option (FileNode κ)) :
    SharedDirectory κ := fun other => if other = name then node else files other

/-- The entries of a directory, for a process with the rights. -/
def openDirectory (member : Nat → Nat → Bool) (uid : Nat) (rights : List Right)
    (files : SharedDirectory κ) (directory : String) :
    Option (FileNode κ × List (String × FileLeaf κ)) := do
  let node ← files directory
  let entries ← node.entries
  if rights.all (permits member uid node.owner node.group node.mode) then some (node, entries)
  else none

/-- A change of the entries of a directory. -/
def update (files : SharedDirectory κ) (directory : String) (node : FileNode κ)
    (entries : List (String × FileLeaf κ)) : SharedDirectory κ :=
  files.set directory (some { node with entries := some entries })

def setLeaf (entries : List (String × FileLeaf κ)) (name : String) (leaf : FileLeaf κ) :
    List (String × FileLeaf κ) :=
  entries.map fun entry => if entry.1 = name then (name, leaf) else entry

def deleteLeaf (entries : List (String × FileLeaf κ)) (name : String) :
    List (String × FileLeaf κ) := entries.filter fun entry => entry.1 != name

/-- An operation of a process.  In the shared directory a process deletes only what is its
own, and everywhere it changes the modes only of what is its own. -/
def apply (member : Nat → Nat → Bool) (uid : Nat) (files : SharedDirectory κ) :
    FileOp κ → Option (SharedDirectory κ)
  | .create name node =>
    if files name = none ∧ node.owner = uid then some (files.set name (some node)) else none
  | .delete name =>
    match files name with
    | none => none
    | some node => if node.owner = uid then some (files.set name none) else none
  | .chmod name mode =>
    match files name with
    | none => none
    | some node =>
      if node.owner = uid then some (files.set name (some { node with mode := mode })) else none
  | .createIn directory name leaf =>
    match openDirectory member uid [.search, .write] files directory with
    | none => none
    | some (node, entries) =>
      if entries.lookup name = none ∧ leaf.owner = uid then
        some (files.update directory node (entries ++ [(name, leaf)]))
      else none
  | .deleteIn directory name =>
    match openDirectory member uid [.search, .write] files directory with
    | none => none
    | some (node, entries) => some (files.update directory node (deleteLeaf entries name))
  | .chmodIn directory name mode =>
    match openDirectory member uid [.search] files directory with
    | none => none
    | some (node, entries) =>
      match entries.lookup name with
      | none => none
      | some leaf =>
        if leaf.owner = uid then
          some (files.update directory node (setLeaf entries name { leaf with mode := mode }))
        else none

section Protected

variable {member : Nat → Nat → Bool} {uid : Nat} {files files' : SharedDirectory κ}
  {op : FileOp κ} {directory : String} {node : FileNode κ}

theorem set_self (files : SharedDirectory κ) (name : String) (node : Option (FileNode κ)) :
    files.set name node name = node := if_pos rfl

theorem set_ne (files : SharedDirectory κ) {name other : String} (node : Option (FileNode κ))
    (h : other ≠ name) : files.set name node other = files other := if_neg h

theorem openDirectory_eq_some {rights : List Right} {entries : List (String × FileLeaf κ)}
    (h : openDirectory member uid rights files directory = some (node, entries)) :
    files directory = some node ∧ node.entries = some entries ∧
      ∀ right ∈ rights, permits member uid node.owner node.group node.mode right = true := by
  obtain ⟨found, hfound, h⟩ := Option.bind_eq_some_iff.mp h
  obtain ⟨list, hlist, h⟩ := Option.bind_eq_some_iff.mp h
  obtain ⟨hrights, h⟩ := Option.ite_none_right_eq_some.mp h
  cases h
  exact ⟨hfound, hlist, List.all_eq_true.mp hrights⟩

/-- What somebody else can do with a directory: change the mode of an entry that is its own.
For that it must be able to search the directory. -/
def OwnModeChanged (member : Nat → Nat → Bool) (uid : Nat) (op : FileOp κ) (directory : String)
    (node : FileNode κ) (node' : Option (FileNode κ)) : Prop :=
  permits member uid node.owner node.group node.mode .search = true ∧
    ∃ entries name leaf mode, op = .chmodIn directory name mode ∧ node.entries = some entries ∧
      entries.lookup name = some leaf ∧ leaf.owner = uid ∧
      node' = some { node with entries := some (setLeaf entries name { leaf with mode := mode }) }

/-- A directory of somebody else that a process may not write to. -/
theorem apply_protected (hnode : files directory = some node) (howner : node.owner ≠ uid)
    (hwrite : permits member uid node.owner node.group node.mode .write = false)
    (h : apply member uid files op = some files') :
    files' directory = some node ∨
      OwnModeChanged member uid op directory node (files' directory) := by
  have hother : ∀ {name : String} {node' : Option (FileNode κ)}, directory ≠ name →
      files.set name node' directory = some node := by
    intro name node' hne
    rw [set_ne files node' hne, hnode]
  unfold apply at h
  split at h
  next name made =>
    obtain ⟨⟨hnone, _⟩, h⟩ := Option.ite_none_right_eq_some.mp h
    cases h
    refine Or.inl (hother fun heq => ?_)
    rw [heq, hnone] at hnode
    cases hnode
  next name =>
    split at h
    · cases h
    next found hfound =>
      obtain ⟨hown, h⟩ := Option.ite_none_right_eq_some.mp h
      cases h
      refine Or.inl (hother fun heq => ?_)
      rw [heq, hfound] at hnode
      cases hnode
      exact howner hown
  next name mode =>
    split at h
    · cases h
    next found hfound =>
      obtain ⟨hown, h⟩ := Option.ite_none_right_eq_some.mp h
      cases h
      refine Or.inl (hother fun heq => ?_)
      rw [heq, hfound] at hnode
      cases hnode
      exact howner hown
  next dir name leaf =>
    split at h
    · cases h
    next found entries hopen =>
      obtain ⟨_, h⟩ := Option.ite_none_right_eq_some.mp h
      cases h
      obtain ⟨hfound, _, hrights⟩ := openDirectory_eq_some hopen
      refine Or.inl (hother fun heq => ?_)
      rw [heq, hfound] at hnode
      cases hnode
      rw [hrights .write (by simp)] at hwrite
      cases hwrite
  next dir name =>
    split at h
    · cases h
    next found entries hopen =>
      cases h
      obtain ⟨hfound, _, hrights⟩ := openDirectory_eq_some hopen
      refine Or.inl (hother fun heq => ?_)
      rw [heq, hfound] at hnode
      cases hnode
      rw [hrights .write (by simp)] at hwrite
      cases hwrite
  next dir name mode =>
    split at h
    · cases h
    next found entries hopen =>
      split at h
      · cases h
      next leaf hleaf =>
        obtain ⟨hown, h⟩ := Option.ite_none_right_eq_some.mp h
        cases h
        obtain ⟨hfound, hentries, hrights⟩ := openDirectory_eq_some hopen
        by_cases heq : directory = dir
        · subst heq
          rw [hfound] at hnode
          cases hnode
          refine Or.inr ⟨hrights .search (by simp), entries, name, leaf, mode, rfl, hentries, hleaf,
            hown, ?_⟩
          exact set_self files directory _
        · exact Or.inl (hother heq)

end Protected

end SharedDirectory
end Library
end WgKotlin
