import WgKotlin.Daemon.Dns

/-!
# The dynamic store of macOS

`dns_macos.rs` keeps the DNS settings of a session under two keys of the dynamic store.
Every call to the store can fail, and a call that fails may have been carried out for some
of its keys.  The functions read back what they have written, so that a success says what
is in the store.
-/

namespace WgKotlin
namespace Daemon
namespace Macos

inductive StoreValue
  | dns (serverAddresses supplementalMatchDomains : List String)
  | interface (userDefinedName : String)
  | other (text : String)
  deriving DecidableEq, Repr

/-- `SC_STATUS_NO_KEY` -/
def scStatusNoKey : Int := 1004

/-- A reading that fails.  That there is no key is not a failure. -/
structure ReadFault where
  status : Int
  status_ne : status ≠ scStatusNoKey
  deriving DecidableEq, Repr

/-- A change that fails, and the keys for which it has been carried out. -/
structure WriteFault where
  status : Int
  applied : List String
  deriving DecidableEq, Repr

structure DnsStore where
  values : String → Option StoreValue
  /-- What happens to the coming calls of each kind; past the end each succeeds. -/
  opens : List (Option Int)
  reads : List (Option ReadFault)
  sets : List (Option WriteFault)
  removals : List (Option WriteFault)

/-! ### The code -/

section Texts

-- `SCErrorString`
variable (errorString : Int → Option String)

def storeError (operation : String) (status : Int) : String :=
  operation ++ ": " ++ (errorString status).getD "unknown error" ++ " (SystemConfiguration " ++
    toString status ++ ")"

namespace DnsStore

/-- The store after a change, without the calls that are used up. -/
def set (s : DnsStore) (key : String) (value : Option StoreValue) : DnsStore :=
  { s with values := fun other => if other = key then value else s.values other }

def setAll (s : DnsStore) (values : List (String × StoreValue)) : DnsStore :=
  values.foldl (fun s entry => s.set entry.1 (some entry.2)) s

/-- `DnsStore::new` -/
def new (s : DnsStore) : Except String Unit × DnsStore :=
  let next := { s with opens := s.opens.tail }
  match s.opens.head?.join with
  | some status => (.error (storeError errorString "open DNS store" status), next)
  | none => (.ok (), next)

def copyValue (s : DnsStore) (key : String) : Except String (Option StoreValue) × DnsStore :=
  let next := { s with reads := s.reads.tail }
  match s.reads.head?.join with
  | some fault => (.error (storeError errorString ("read " ++ key) fault.status), next)
  | none => (.ok (s.values key), next)

/-- The loop of `set_values` that reads back what was set. -/
def checkValues (s : DnsStore) : List (String × StoreValue) → Except String Unit × DnsStore
  | [] => (.ok (), s)
  | (key, expected) :: rest =>
    match s.copyValue errorString key with
    | (.error error, s) => (.error error, s)
    | (.ok found, s) =>
      if found ≠ some expected then
        (.error ("DNS store value did not match after setting " ++ key), s)
      else checkValues s rest

def setValues (s : DnsStore) (values : List (String × StoreValue)) :
    Except String Unit × DnsStore :=
  let next := { s with sets := s.sets.tail }
  match s.sets.head?.join with
  | some fault =>
    (.error (storeError errorString "set DNS entries" fault.status),
      next.setAll (values.filter fun entry => fault.applied.contains entry.1))
  | none => (next.setAll values).checkValues errorString values

/-- The end of `remove_value`. -/
def confirmRemoved (s : DnsStore) (key : String) : Except String Unit × DnsStore :=
  match s.copyValue errorString key with
  | (.error error, s) => (.error error, s)
  | (.ok none, s) => (.ok (), s)
  | (.ok (some _), s) => (.error ("DNS store value still exists after removing " ++ key), s)

def removeValue (s : DnsStore) (key : String) : Except String Unit × DnsStore :=
  match s.copyValue errorString key with
  | (.error error, s) => (.error error, s)
  | (.ok none, s) => (.ok (), s)
  | (.ok (some _), s) =>
    let next := { s with removals := s.removals.tail }
    match s.removals.head?.join with
    | none => (next.set key none).confirmRemoved errorString key
    | some fault =>
      let next := if fault.applied.contains key then next.set key none else next
      if fault.status = scStatusNoKey then next.confirmRemoved errorString key
      else (.error (storeError errorString ("remove " ++ key) fault.status), next)

/-- The errors of `remove_values`: each key is tried. -/
def removeAll (s : DnsStore) : List String → List String × DnsStore
  | [] => ([], s)
  | key :: rest =>
    match s.removeValue errorString key with
    | (.ok (), s) => removeAll s rest
    | (.error error, s) =>
      let (errors, s) := removeAll s rest
      (error :: errors, s)

def removeValues (s : DnsStore) (keys : List String) : Except String Unit × DnsStore :=
  let (errors, s) := s.removeAll errorString keys
  (if errors.isEmpty then .ok () else .error ("; ".intercalate errors), s)

end DnsStore

def rootKey (interface : String) : String := "State:/Network/Interface/" ++ interface

def dnsKey (interface : String) : String := rootKey interface ++ "/DNS"

def resolverKeys (interface : String) : List String := [dnsKey interface, rootKey interface]

def dnsValues (interface : String) (servers domains : List String) :
    List (String × StoreValue) :=
  [(dnsKey interface, .dns servers domains), (rootKey interface, .interface interface)]

def setDnsEntries (s : DnsStore) (interface : String) (servers domains : List String) :
    Except String Unit × DnsStore :=
  match s.new errorString with
  | (.error error, s) => (.error error, s)
  | (.ok (), s) => s.setValues errorString (dnsValues interface servers domains)

def clearDnsEntries (s : DnsStore) (interface : String) : Except String Unit × DnsStore :=
  match s.new errorString with
  | (.error error, s) => (.error error, s)
  | (.ok (), s) => s.removeValues errorString (resolverKeys interface)

end Texts

/-! ### What the calls change -/

namespace DnsStore

variable {s s' s'' : DnsStore} {keys : List String}

/-- Only these keys have changed. -/
def Only (keys : List String) (s s' : DnsStore) : Prop :=
  ∀ other, other ∉ keys → s'.values other = s.values other

theorem Only.refl (keys : List String) (s : DnsStore) : Only keys s s := fun _ _ => rfl

theorem Only.of_values (h : s'.values = s.values) : Only keys s s' := fun _ _ => by rw [h]

theorem Only.trans (h : Only keys s s') (h' : Only keys s' s'') : Only keys s s'' :=
  fun other hother => (h' other hother).trans (h other hother)

theorem Only.mono {more : List String} (h : Only keys s s') (hsub : ∀ k ∈ keys, k ∈ more) :
    Only more s s' := fun other hother => h other fun hmem => hother (hsub other hmem)

variable (errorString : Int → Option String) (s : DnsStore) (key : String)

theorem new_values : (s.new errorString).2.values = s.values := by
  unfold new
  simp only
  split <;> rfl

theorem copyValue_values : (s.copyValue errorString key).2.values = s.values := by
  unfold copyValue
  simp only
  split <;> rfl

theorem copyValue_eq_ok {found : Option StoreValue}
    (h : (s.copyValue errorString key).1 = .ok found) : found = s.values key := by
  unfold copyValue at h
  simp only at h
  split at h
  · cases h
  · exact (Except.ok.inj h).symm

theorem set_only (value : Option StoreValue) : Only [key] s (s.set key value) :=
  fun _ hother => if_neg (List.ne_of_not_mem_cons hother)

theorem setAll_only (values : List (String × StoreValue)) :
    Only (values.map Prod.fst) s (s.setAll values) := by
  induction values generalizing s with
  | nil => exact Only.refl _ s
  | cons entry rest ih =>
      have hfirst : Only ((entry :: rest).map Prod.fst) s (s.set entry.1 (some entry.2)) :=
        (set_only s entry.1 (some entry.2)).mono fun k hk => by
          rw [List.mem_singleton.mp hk]
          exact List.mem_cons_self
      exact hfirst.trans ((ih _).mono fun k hk => List.mem_cons_of_mem _ hk)

/-- The values that `set_values` reads back are in the store. -/
theorem checkValues_spec (values : List (String × StoreValue)) :
    (s.checkValues errorString values).2.values = s.values ∧
      ((s.checkValues errorString values).1 = .ok () →
        ∀ entry ∈ values, s.values entry.1 = some entry.2) := by
  induction values generalizing s with
  | nil => exact ⟨rfl, fun _ _ h => absurd h List.not_mem_nil⟩
  | cons entry rest ih =>
      obtain ⟨key, expected⟩ := entry
      unfold checkValues
      have hread := copyValue_values errorString s key
      rcases hcopy : s.copyValue errorString key with ⟨found, next⟩
      rw [hcopy] at hread
      cases found with
      | error error => exact ⟨hread, fun h => (by cases h)⟩
      | ok found =>
          have hfound := copyValue_eq_ok errorString s key (congrArg Prod.fst hcopy)
          simp only
          split
          · exact ⟨hread, fun h => (by cases h)⟩
          next hequal =>
            rw [not_not] at hequal
            obtain ⟨hvalues, hall⟩ := ih next
            refine ⟨hvalues.trans hread, fun hok entry hentry => ?_⟩
            rcases List.mem_cons.mp hentry with rfl | hentry
            · exact hfound.symm.trans hequal
            · rw [← hread]
              exact hall hok entry hentry

theorem setValues_spec (values : List (String × StoreValue)) :
    Only (values.map Prod.fst) s (s.setValues errorString values).2 ∧
      ((s.setValues errorString values).1 = .ok () →
        ∀ entry ∈ values, (s.setValues errorString values).2.values entry.1 = some entry.2) := by
  have hnext : ∀ sets : List (Option WriteFault),
      Only (values.map Prod.fst) s { s with sets := sets } := fun _ _ _ => rfl
  unfold setValues
  simp only
  split
  next fault hfault =>
    refine ⟨(hnext _).trans ((setAll_only _ _).mono fun k hk => ?_), fun h => (by cases h)⟩
    obtain ⟨entry, hentry, rfl⟩ := List.mem_map.mp hk
    exact List.mem_map_of_mem (List.mem_of_mem_filter hentry)
  next =>
    obtain ⟨hvalues, hall⟩ :=
      checkValues_spec errorString (DnsStore.setAll { s with sets := s.sets.tail } values) values
    refine ⟨(hnext _).trans ((setAll_only _ values).trans (Only.of_values hvalues)), ?_⟩
    intro hok entry hentry
    rw [hvalues]
    exact hall hok entry hentry

theorem confirmRemoved_spec :
    (s.confirmRemoved errorString key).2.values = s.values ∧
      ((s.confirmRemoved errorString key).1 = .ok () → s.values key = none) := by
  unfold confirmRemoved
  have hread := copyValue_values errorString s key
  rcases hcopy : s.copyValue errorString key with ⟨found, next⟩
  rw [hcopy] at hread
  cases found with
  | error error => exact ⟨hread, fun h => (by cases h)⟩
  | ok found =>
      have hfound := copyValue_eq_ok errorString s key (congrArg Prod.fst hcopy)
      cases found with
      | none => exact ⟨hread, fun _ => hfound.symm⟩
      | some value => exact ⟨hread, fun h => (by cases h)⟩

/-- A removal leaves other keys alone; when it ends well there is no value. -/
theorem removeValue_spec :
    Only [key] s (s.removeValue errorString key).2 ∧
      ((s.removeValue errorString key).1 = .ok () →
        (s.removeValue errorString key).2.values key = none) := by
  unfold removeValue
  have hread := copyValue_values errorString s key
  rcases hcopy : s.copyValue errorString key with ⟨found, next⟩
  rw [hcopy] at hread
  have honly : Only [key] s next := Only.of_values hread
  cases found with
  | error error => exact ⟨honly, fun h => (by cases h)⟩
  | ok found =>
      have hfound := copyValue_eq_ok errorString s key (congrArg Prod.fst hcopy)
      cases found with
      | none => exact ⟨honly, fun _ => by rw [hread]; exact hfound.symm⟩
      | some value =>
          simp only
          have hused : ∀ (t : DnsStore), t.values = next.values → Only [key] s t :=
            fun t ht => honly.trans (Only.of_values ht)
          have hconfirm : ∀ t : DnsStore, Only [key] s t →
              Only [key] s (t.confirmRemoved errorString key).2 ∧
                ((t.confirmRemoved errorString key).1 = .ok () →
                  (t.confirmRemoved errorString key).2.values key = none) := by
            intro t ht
            obtain ⟨hvalues, hnone⟩ := confirmRemoved_spec errorString t key
            exact ⟨ht.trans (Only.of_values hvalues), fun hok => by rw [hvalues]; exact hnone hok⟩
          split
          · exact hconfirm _ ((hused _ rfl).trans (set_only _ key none))
          next fault hfault =>
            have happlied : Only [key] s
                (if fault.applied.contains key then
                  DnsStore.set { next with removals := next.removals.tail } key none
                else { next with removals := next.removals.tail }) := by
              split
              · exact (hused _ rfl).trans (set_only _ key none)
              · exact hused _ rfl
            split
            · exact hconfirm _ happlied
            · exact ⟨happlied, fun h => (by cases h)⟩

theorem removeAll_spec (keys : List String) :
    Only keys s (s.removeAll errorString keys).2 ∧
      ((s.removeAll errorString keys).1 = [] →
        ∀ key ∈ keys, (s.removeAll errorString keys).2.values key = none) := by
  induction keys generalizing s with
  | nil => exact ⟨Only.refl [] s, fun _ _ h => absurd h List.not_mem_nil⟩
  | cons key rest ih =>
      unfold removeAll
      have hremove := removeValue_spec errorString s key
      rcases hfirst : s.removeValue errorString key with ⟨result, next⟩
      rw [hfirst] at hremove
      obtain ⟨honly, hnone⟩ := hremove
      have hfirstOnly : Only (key :: rest) s next := honly.mono fun k hk => by
        rw [List.mem_singleton.mp hk]
        exact List.mem_cons_self
      obtain ⟨hrest, hall⟩ := ih next
      have hrestOnly := hrest.mono fun k hk => List.mem_cons_of_mem key hk
      cases result with
      | error error => exact ⟨hfirstOnly.trans hrestOnly, fun h => (by cases h)⟩
      | ok _ =>
          refine ⟨hfirstOnly.trans hrestOnly, fun hok k hk => ?_⟩
          by_cases hmem : k ∈ rest
          · exact hall hok k hmem
          · rcases List.mem_cons.mp hk with rfl | hk
            · exact (hrest k hmem).trans (hnone rfl)
            · exact absurd hk hmem

theorem removeValues_spec (keys : List String) :
    Only keys s (s.removeValues errorString keys).2 ∧
      ((s.removeValues errorString keys).1 = .ok () →
        ∀ key ∈ keys, (s.removeValues errorString keys).2.values key = none) := by
  obtain ⟨honly, hall⟩ := removeAll_spec errorString s keys
  refine ⟨honly, fun hok => hall ?_⟩
  unfold removeValues at hok
  simp only at hok
  split at hok
  next hempty => exact List.isEmpty_iff.mp hempty
  next => cases hok

/-! ### A store that works -/

/-- Every further call succeeds. -/
structure Works (s : DnsStore) : Prop where
  opens : s.opens = []
  reads : s.reads = []
  sets : s.sets = []
  removals : s.removals = []

variable {s}

theorem copyValue_of_works (h : s.Works) :
    (s.copyValue errorString key).1 = .ok (s.values key) ∧
      (s.copyValue errorString key).2.Works := by
  unfold copyValue
  rw [h.reads]
  exact ⟨rfl, h.opens, rfl, h.sets, h.removals⟩

theorem confirmRemoved_of_works (h : s.Works) (hnone : s.values key = none) :
    (s.confirmRemoved errorString key).1 = .ok () ∧
      (s.confirmRemoved errorString key).2.Works := by
  unfold confirmRemoved
  have hread := copyValue_of_works errorString key h
  rcases hcopy : s.copyValue errorString key with ⟨found, next⟩
  rw [hcopy, hnone] at hread
  obtain ⟨hfound, hnext⟩ := hread
  cases hfound
  exact ⟨rfl, hnext⟩

theorem removeValue_of_works (h : s.Works) :
    (s.removeValue errorString key).1 = .ok () ∧ (s.removeValue errorString key).2.Works := by
  unfold removeValue
  have hread := copyValue_of_works errorString key h
  rcases hcopy : s.copyValue errorString key with ⟨found, next⟩
  rw [hcopy] at hread
  obtain ⟨hfound, hnext⟩ := hread
  cases hfound
  cases s.values key with
  | none => exact ⟨rfl, hnext⟩
  | some value =>
      have hhead : next.removals.head?.join = none := by
        rw [hnext.removals]
        rfl
      simp only [hhead]
      refine confirmRemoved_of_works errorString key ⟨hnext.opens, hnext.reads, hnext.sets, ?_⟩
        (if_pos rfl)
      show next.removals.tail = []
      rw [hnext.removals]
      rfl

theorem removeAll_of_works (h : s.Works) (keys : List String) :
    (s.removeAll errorString keys).1 = [] := by
  induction keys generalizing s with
  | nil => rfl
  | cons key rest ih =>
      unfold removeAll
      have hremove := removeValue_of_works errorString key h
      rcases hfirst : s.removeValue errorString key with ⟨result, next⟩
      rw [hfirst] at hremove
      obtain ⟨hresult, hnext⟩ := hremove
      cases hresult
      exact ih hnext

end DnsStore

section Entries

variable (errorString : Int → Option String) (s : DnsStore) (interface : String)

theorem setDnsEntries_spec (servers domains : List String) :
    DnsStore.Only (resolverKeys interface) s
        (setDnsEntries errorString s interface servers domains).2 ∧
      ((setDnsEntries errorString s interface servers domains).1 = .ok () →
        ∀ entry ∈ dnsValues interface servers domains,
          (setDnsEntries errorString s interface servers domains).2.values entry.1 =
            some entry.2) := by
  unfold setDnsEntries
  have hopen := DnsStore.new_values errorString s
  rcases hnew : s.new errorString with ⟨result, next⟩
  rw [hnew] at hopen
  have honly : DnsStore.Only (resolverKeys interface) s next := DnsStore.Only.of_values hopen
  cases result with
  | error error => exact ⟨honly, fun h => (by cases h)⟩
  | ok _ =>
      obtain ⟨hset, hall⟩ := DnsStore.setValues_spec errorString next
        (dnsValues interface servers domains)
      exact ⟨honly.trans hset, hall⟩

theorem clearDnsEntries_spec :
    DnsStore.Only (resolverKeys interface) s (clearDnsEntries errorString s interface).2 ∧
      ((clearDnsEntries errorString s interface).1 = .ok () →
        ∀ key ∈ resolverKeys interface,
          (clearDnsEntries errorString s interface).2.values key = none) := by
  unfold clearDnsEntries
  have hopen := DnsStore.new_values errorString s
  rcases hnew : s.new errorString with ⟨result, next⟩
  rw [hnew] at hopen
  have honly : DnsStore.Only (resolverKeys interface) s next := DnsStore.Only.of_values hopen
  cases result with
  | error error => exact ⟨honly, fun h => (by cases h)⟩
  | ok _ =>
      obtain ⟨hremove, hall⟩ := DnsStore.removeValues_spec errorString next
        (resolverKeys interface)
      exact ⟨honly.trans hremove, hall⟩

variable {errorString s interface} in
theorem clearDnsEntries_of_works (h : s.Works) :
    (clearDnsEntries errorString s interface).1 = .ok () := by
  unfold clearDnsEntries DnsStore.new
  simp only [h.opens, List.head?_nil, Option.join_none]
  unfold DnsStore.removeValues
  have hworks : DnsStore.Works { s with opens := [].tail } := ⟨rfl, h.reads, h.sets, h.removals⟩
  simp only [DnsStore.removeAll_of_works errorString hworks, List.isEmpty_nil, if_true]

end Entries

end Macos
end Daemon
end WgKotlin
