import WgKotlin.Daemon.Macos.Requests
import WgKotlin.Library.LinkedMap

/-!
# The routing table

The kernel behind the routing socket: a table with at most one route for a key.
`RTM_ADD` fails on a key that exists and `RTM_DELETE` on one that does not.  A
request can also be lost, or be carried out and its answer be lost.
-/

namespace WgKotlin
namespace Daemon
namespace Macos

open Proto Library

/-- A routing table: each route lies under its own key. -/
structure Table where
  routes : LinkedMap RouteKey Snapshot
  keyed : ∀ k s, routes.get k = some s → s.key = .ok k

def eexist : Int32 := 17
def esrch : Int32 := 3

namespace Table

def empty : Table where
  routes := LinkedMap.empty
  keyed := fun _ _ h => by cases h

def get (t : Table) (k : RouteKey) : Option Snapshot := t.routes.get k

def insert (t : Table) {k : RouteKey} (s : Snapshot) (h : s.key = .ok k) : Table where
  routes := t.routes.put k s
  keyed := by
    intro j s' hs'
    rw [LinkedMap.get_put] at hs'
    split at hs'
    next hj =>
      cases hs'
      rw [← hj]
      exact h
    · exact t.keyed j s' hs'

def erase (t : Table) (k : RouteKey) : Table where
  routes := t.routes.remove k
  keyed := by
    intro j s' hs'
    rw [LinkedMap.get_remove] at hs'
    split at hs'
    · cases hs'
    · exact t.keyed j s' hs'

theorem get_insert (t : Table) {k : RouteKey} (s : Snapshot) (h : s.key = .ok k) (j : RouteKey) :
    (t.insert s h).get j = if k = j then some s else t.get j := LinkedMap.get_put _ _ _ _

theorem get_erase (t : Table) (k j : RouteKey) :
    (t.erase k).get j = if k = j then none else t.get j := LinkedMap.get_remove _ _ _

/-- What the kernel does with a message, and for which key. -/
def apply (t : Table) (operation : Operation) (m : Bytes) : Except IoError (RouteKey × Table) :=
  match h : Snapshot.key { bytes := m } with
  | .error e => .error e
  | .ok k =>
    match operation, t.get k with
    | .add, none => .ok (k, t.insert { bytes := m } h)
    | .add, some _ => .error (.os eexist)
    | .delete, some _ => .ok (k, t.erase k)
    | .delete, none => .error (.os esrch)
    | .get, _ => .ok (k, t)

end Table

/-- A request that is not answered as it should be.  It may have taken effect. -/
structure Fault where
  error : IoError
  effective : Bool
  deriving DecidableEq, Repr

structure Kernel where
  table : Table
  /-- What happens to the coming requests; past the end each is answered. -/
  faults : List (Option Fault)
  /-- The same for the coming dumps of the table. -/
  lookups : List (Option IoError)
  /-- The requests that took effect, oldest first. -/
  effects : List (Operation × RouteKey)

namespace Kernel

def start (table : Table) (faults : List (Option Fault)) (lookups : List (Option IoError)) :
    Kernel where
  table := table
  faults := faults
  lookups := lookups
  effects := []

/-- The same kernel, which answers from now on. -/
def answering (w : Kernel) : Kernel := { w with faults := [], lookups := [] }

def find (w : Kernel) (key : RouteKey) : Except IoError (Option Snapshot) × Kernel :=
  let w' := { w with lookups := w.lookups.tail }
  match w.lookups.head?.join with
  | some e => (.error e, w')
  | none => (.ok (w.table.get key), w')

/-- The kernel after a request that it carries out, if it can. -/
def carryOut (w : Kernel) (operation : Operation) (m : Bytes) : Kernel :=
  match w.table.apply operation m with
  | .ok (k, table) =>
    { w with table := table, faults := w.faults.tail, effects := w.effects ++ [(operation, k)] }
  | .error _ => { w with faults := w.faults.tail }

def exchange (w : Kernel) (operation : Operation) (m : Bytes) : Except IoError Unit × Kernel :=
  match w.faults.head?.join with
  | some fault =>
    (.error fault.error,
      if fault.effective then w.carryOut operation m else { w with faults := w.faults.tail })
  | none => ((w.table.apply operation m).map fun _ => (), w.carryOut operation m)

/-- `request(route, operation)` -/
def request (w : Kernel) (route : Snapshot) (operation : Operation) :
    Except IoError Unit × Kernel :=
  match route.message operation with
  | .error e => (.error e, w)
  | .ok m => w.exchange operation m

/-- The route that was there for the key has been deleted. -/
def displaced (w : Kernel) (k : RouteKey) : Bool := decide ((Operation.delete, k) ∈ w.effects)

/-- Every further request is answered. -/
structure Answers (w : Kernel) : Prop where
  faults : w.faults = []
  lookups : w.lookups = []

theorem answers_answering (w : Kernel) : w.answering.Answers := ⟨rfl, rfl⟩

/-- Table and history are the same. -/
structure Keeps (w w' : Kernel) : Prop where
  table : w'.table = w.table
  effects : w'.effects = w.effects

theorem Keeps.refl (w : Kernel) : Keeps w w := ⟨rfl, rfl⟩

/-- One request took effect, and set the entry of its key to `v`. -/
structure Sets (w w' : Kernel) (operation : Operation) (k : RouteKey) (v : Option Snapshot) :
    Prop where
  get : ∀ j, w'.table.get j = if k = j then v else w.table.get j
  effects : w'.effects = w.effects ++ [(operation, k)]

theorem Sets.get_self {w w' : Kernel} {operation : Operation} {k : RouteKey} {v : Option Snapshot}
    (h : Sets w w' operation k v) : w'.table.get k = v := by
  rw [h.get, if_pos rfl]

theorem Sets.get_ne {w w' : Kernel} {operation : Operation} {k j : RouteKey} {v : Option Snapshot}
    (h : Sets w w' operation k v) (hj : k ≠ j) : w'.table.get j = w.table.get j := by
  rw [h.get, if_neg hj]

theorem find_keeps (w : Kernel) (key : RouteKey) : Keeps w (w.find key).2 := by
  unfold find
  simp only
  split
  · exact ⟨rfl, rfl⟩
  · exact ⟨rfl, rfl⟩

theorem find_eq_ok {w : Kernel} {key : RouteKey} {found : Option Snapshot}
    (h : (w.find key).1 = .ok found) : found = w.table.get key := by
  unfold find at h
  simp only at h
  split at h
  · cases h
  · exact (Except.ok.inj h).symm

/-! ### What a request can do -/

theorem carryOut_of_ok {w : Kernel} {operation : Operation} {m : Bytes} {k : RouteKey}
    {table : Table} (h : w.table.apply operation m = .ok (k, table)) :
    w.carryOut operation m = { w with
      table := table
      faults := w.faults.tail
      effects := w.effects ++ [(operation, k)] } := by
  rw [carryOut, h]

theorem carryOut_of_error {w : Kernel} {operation : Operation} {m : Bytes} {e : IoError}
    (h : w.table.apply operation m = .error e) :
    w.carryOut operation m = { w with faults := w.faults.tail } := by
  rw [carryOut, h]

/-- A request changes nothing and fails, or the kernel has carried it out. -/
theorem request_cases (w : Kernel) (route : Snapshot) (operation : Operation) :
    ((w.request route operation).1 ≠ .ok () ∧ Keeps w (w.request route operation).2) ∨
      ∃ m k table, route.message operation = .ok m ∧
        w.table.apply operation m = .ok (k, table) ∧
        (w.request route operation).2.table = table ∧
        (w.request route operation).2.effects = w.effects ++ [(operation, k)] := by
  unfold request
  cases hm : route.message operation with
  | error e => exact Or.inl ⟨(by simp), Keeps.refl w⟩
  | ok m =>
      simp only [exchange]
      cases happly : w.table.apply operation m with
      | error e =>
          -- Whatever becomes of the answer, the table is as it was.
          rw [carryOut_of_error happly]
          refine Or.inl ?_
          split
          · refine ⟨(by simp), ?_⟩
            split
            · exact ⟨rfl, rfl⟩
            · exact ⟨rfl, rfl⟩
          · exact ⟨(by simp [Except.map]), rfl, rfl⟩
      | ok result =>
          obtain ⟨k, table⟩ := result
          rw [carryOut_of_ok happly]
          split
          · split
            · exact Or.inr ⟨m, k, table, rfl, happly, rfl, rfl⟩
            · exact Or.inl ⟨(by simp), rfl, rfl⟩
          · exact Or.inr ⟨m, k, table, rfl, happly, rfl, rfl⟩

end Kernel

section Apply

variable {t : Table} {m : Bytes} {k : RouteKey}

/-- The kernel looks at the entry of the key of the message. -/
theorem Table.apply_of_key (operation : Operation) (hkey : Snapshot.key { bytes := m } = .ok k) :
    t.apply operation m = match operation with
      | .add => if (t.get k).isSome then .error (.os eexist)
          else .ok (k, t.insert { bytes := m } hkey)
      | .delete => if (t.get k).isSome then .ok (k, t.erase k) else .error (.os esrch)
      | .get => .ok (k, t) := by
  unfold Table.apply
  split
  next e he =>
    rw [hkey] at he
    cases he
  next k' hk' =>
    have hk : k' = k := Except.ok.inj (hk'.symm.trans hkey)
    subst hk
    cases operation <;> cases t.get k' <;> rfl

theorem Table.apply_add (hkey : Snapshot.key { bytes := m } = .ok k) :
    t.apply .add m = if (t.get k).isSome then .error (.os eexist)
      else .ok (k, t.insert { bytes := m } hkey) :=
  apply_of_key .add hkey

theorem Table.apply_delete (hkey : Snapshot.key { bytes := m } = .ok k) :
    t.apply .delete m = if (t.get k).isSome then .ok (k, t.erase k)
      else .error (.os esrch) :=
  apply_of_key .delete hkey

end Apply

namespace Kernel

variable {w : Kernel} {route : Snapshot} {k : RouteKey}

/-- Deleting a route empties the entry of its key, or fails and changes nothing. -/
theorem request_delete (hkey : route.key = .ok k) :
    ((w.request route .delete).1 ≠ .ok () ∧ Keeps w (w.request route .delete).2) ∨
      Sets w (w.request route .delete).2 .delete k none := by
  rcases w.request_cases route .delete with h | ⟨m, k', table, hm, happly, htable, heffects⟩
  · exact Or.inl h
  · rw [Table.apply_delete ((key_message hm).trans hkey)] at happly
    split at happly
    · cases happly
      exact Or.inr ⟨fun j => by rw [htable, Table.get_erase], heffects⟩
    · cases happly

/-- Adding a route fills the empty entry of its key, or fails and changes nothing. -/
theorem request_add (hkey : route.key = .ok k) :
    ((w.request route .add).1 ≠ .ok () ∧ Keeps w (w.request route .add).2) ∨
      ∃ m, route.message .add = .ok m ∧
        Sets w (w.request route .add).2 .add k (some { bytes := m }) := by
  rcases w.request_cases route .add with h | ⟨m, k', table, hm, happly, htable, heffects⟩
  · exact Or.inl h
  · rw [Table.apply_add ((key_message hm).trans hkey)] at happly
    split at happly
    · cases happly
    · cases happly
      exact Or.inr ⟨m, hm, fun j => by rw [htable, Table.get_insert], heffects⟩

/-! ### A kernel that answers -/

theorem find_of_answers (hw : w.Answers) (key : RouteKey) :
    w.find key = (.ok (w.table.get key), w) := by
  cases w with
  | mk table faults lookups effects =>
      have hlookups : lookups = [] := hw.lookups
      subst hlookups
      rfl

theorem request_of_answers {operation : Operation} {m : Bytes} {table : Table} (hw : w.Answers)
    (hm : route.message operation = .ok m)
    (happly : w.table.apply operation m = .ok (k, table)) :
    w.request route operation =
      (.ok (), { w with table := table, effects := w.effects ++ [(operation, k)] }) := by
  rw [request, hm]
  show w.exchange operation m = _
  rw [exchange, carryOut_of_ok happly, happly, hw.faults]
  rfl

theorem request_delete_of_answers {m : Bytes} (hw : w.Answers) (hkey : route.key = .ok k)
    (hm : route.message .delete = .ok m) (hk : (w.table.get k).isSome = true) :
    ∃ w', w.request route .delete = (.ok (), w') ∧ w'.Answers ∧ Sets w w' .delete k none := by
  have happly : w.table.apply .delete m = .ok (k, w.table.erase k) := by
    rw [Table.apply_delete ((key_message hm).trans hkey), if_pos hk]
  exact ⟨_, request_of_answers hw hm happly, ⟨hw.faults, hw.lookups⟩,
    fun j => Table.get_erase _ _ _, rfl⟩

theorem request_add_of_answers {m : Bytes} (hw : w.Answers) (hkey : route.key = .ok k)
    (hm : route.message .add = .ok m) (hk : w.table.get k = none) :
    ∃ w', w.request route .add = (.ok (), w') ∧ w'.Answers ∧
      Sets w w' .add k (some { bytes := m }) := by
  have hmkey := (key_message hm).trans hkey
  have happly : w.table.apply .add m = .ok (k, w.table.insert { bytes := m } hmkey) := by
    rw [Table.apply_add hmkey, hk]
    rfl
  exact ⟨_, request_of_answers hw hm happly, ⟨hw.faults, hw.lookups⟩,
    fun j => Table.get_insert _ _ hmkey j, rfl⟩

end Kernel

end Macos
end Daemon
end WgKotlin
