import WgKotlin.Daemon.Reservations
import WgKotlin.Library.Numerals

/-!
# Interface names on macOS

The kernel names a device by a number, and a client may write that number with
leading zeros.  `session` writes it in one way before it reserves the name, so
two names in `active_sessions` are two devices.
-/

namespace WgKotlin
namespace Daemon

open Proto Library

/-! ### Decimal numbers -/

theorem decimalValue_eq_digitsValue (digits : List Char) :
    decimalValue digits = digitsValue 10 (fun c => c.toNat - '0'.toNat) digits := rfl

theorem decimalValue_toString (n : Nat) : decimalValue (toString n).toList = n := by
  rw [toString_toList, decimalValue_eq_digitsValue, decimal_toDigits]

/-- The digits read so far are those of the number read so far, as long as that
is not zero. -/
theorem toDigits_append_digits {acc : Nat} (hacc : 0 < acc) {digits : List Char}
    (h : ∀ c ∈ digits, c.isDigit = true) :
    Nat.toDigits 10 acc ++ digits =
      Nat.toDigits 10 (digits.foldl (fun n c => 10 * n + (c.toNat - '0'.toNat)) acc) := by
  induction digits generalizing acc with
  | nil => rw [List.append_nil, List.foldl_nil]
  | cons c rest ih =>
      obtain ⟨hc, hrest⟩ := List.forall_mem_cons.mp h
      have hlt := digit_lt_ten hc
      have hfirst : Nat.toDigits 10 acc ++ [c] =
          Nat.toDigits 10 (10 * acc + (c.toNat - '0'.toNat)) := by
        rw [← Nat.toDigits_append_toDigits (by omega) hacc hlt, Nat.toDigits_of_lt_base hlt,
          digitChar_of_isDigit hc]
      rw [List.append_cons, hfirst, List.foldl_cons, ih (by omega) hrest]

/-- Leading zeros do not change the value. -/
theorem decimalValue_trimStart (digits : List Char) :
    decimalValue (trimStartMatches '0' digits) = decimalValue digits := by
  induction digits with
  | nil => rfl
  | cons c rest ih =>
      rw [trimStartMatches, List.dropWhile_cons]
      by_cases hc : c = '0'
      · rw [hc, if_pos (by decide)]
        exact ih
      · rw [if_neg (by simpa using hc)]

/-- The digits without leading zeros, and `0` if nothing is left. -/
def canonicalDigits (digits : List Char) : List Char :=
  if (trimStartMatches '0' digits).isEmpty then ['0'] else trimStartMatches '0' digits

theorem mem_canonicalDigits {digits : List Char} (h : ∀ c ∈ digits, c.isDigit = true) :
    ∀ c ∈ canonicalDigits digits, c.isDigit = true := by
  intro c hc
  unfold canonicalDigits at hc
  split at hc
  · rw [List.mem_singleton.mp hc]
    rfl
  · exact h c ((List.dropWhile_sublist _).subset hc)

theorem decimalValue_canonicalDigits (digits : List Char) :
    decimalValue (canonicalDigits digits) = decimalValue digits := by
  rw [← decimalValue_trimStart digits, canonicalDigits]
  split
  next hempty => rw [List.isEmpty_iff.mp hempty]; rfl
  next => rfl

/-- They are the digits of the number. -/
theorem canonicalDigits_eq {digits : List Char} (h : ∀ c ∈ digits, c.isDigit = true) :
    canonicalDigits digits = Nat.toDigits 10 (decimalValue digits) := by
  rw [← decimalValue_trimStart, canonicalDigits]
  cases htrim : trimStartMatches '0' digits with
  | nil => rfl
  | cons c rest =>
      have hall : ∀ x ∈ c :: rest, x.isDigit = true := fun x hx =>
        h x ((List.dropWhile_sublist _).subset (htrim ▸ hx))
      obtain ⟨hc, hrest⟩ := List.forall_mem_cons.mp hall
      have hne : c ≠ '0' := by
        have hhead := List.head?_dropWhile_not (· == '0') digits
        rw [show digits.dropWhile (· == '0') = c :: rest from htrim] at hhead
        simpa using hhead
      have hpos : 0 < c.toNat - '0'.toNat := by
        have hzero : '0'.toNat = 48 := rfl
        have hlow := (toNat_of_isDigit hc).1
        have h48 : c.toNat ≠ 48 := fun h48 => hne (Char.toNat_inj.mp (h48.trans hzero.symm))
        omega
      have hdigits := toDigits_append_digits hpos hrest
      rw [Nat.toDigits_of_lt_base (digit_lt_ten hc), digitChar_of_isDigit hc,
        List.singleton_append] at hdigits
      rw [List.isEmpty_cons, if_neg (by decide), decimalValue, List.foldl_cons, Nat.mul_zero,
        Nat.zero_add, ← hdigits]

/-- `str::parse::<u32>` on a text of digits. -/
def parseU32 (digits : List Char) : Option Nat :=
  (readBounded 10 (2 ^ 32) (fun c => .ok (c.toNat - '0'.toNat)) () digits).toOption

/-- Reading overflows exactly when the value does not fit. -/
theorem parseU32_eq (digits : List Char) :
    parseU32 digits =
      if decimalValue digits < 2 ^ 32 then some (decimalValue digits) else none := by
  rw [parseU32, readBounded_eq (by decide) (by decide) fun _ _ => rfl,
    ← decimalValue_eq_digitsValue]
  split
  · rfl
  · rfl

/-- The test of the index in `validate_interface_name`. -/
theorem index_check_eq (digits : List Char) :
    ((parseU32 digits).bind fun index =>
      if index + 1 < 2 ^ 32 then some (index + 1) else none).isNone =
      decide (2 ^ 32 ≤ decimalValue digits + 1) := by
  rw [parseU32_eq]
  by_cases hfits : decimalValue digits < 2 ^ 32
  · rw [if_pos hfits, Option.bind_some]
    by_cases hnext : decimalValue digits + 1 < 2 ^ 32
    · rw [if_pos hnext, decide_eq_false (by omega)]
      rfl
    · rw [if_neg hnext, decide_eq_true (by omega)]
      rfl
  · rw [if_neg hfits, decide_eq_true (by omega)]
    rfl

/-! ### One spelling for each device -/

theorem utf8Len_append (a b : List Char) : utf8Len (a ++ b) = utf8Len a + utf8Len b := by
  rw [utf8Len, List.map_append, List.sum_append, utf8Len, utf8Len]

theorem drop_utun (suffix : List Char) : ("utun".toList ++ suffix).drop 4 = suffix :=
  List.drop_left' rfl

theorem validateInterfaceName_eq_ok {macos : Bool} {name : String} :
    validateInterfaceName macos name = .ok () ↔
      ∃ suffix, name.toList = "utun".toList ++ suffix ∧ 4 + utf8Len suffix ≤ 15 ∧ suffix ≠ [] ∧
        (∀ c ∈ suffix, c.isDigit = true) ∧ (macos = true → decimalValue suffix + 1 < 2 ^ 32) := by
  constructor
  · intro h
    unfold validateInterfaceName at h
    simp only at h
    split at h
    · cases h
    next hlength =>
      split at h
      · cases h
      next hstart =>
        split at h
        · cases h
        next hdigits =>
          split at h
          · cases h
          next hindex =>
            simp only [Bool.not_eq_true, Bool.not_eq_false', List.isPrefixOf_iff_prefix] at hstart
            obtain ⟨suffix, hname⟩ := hstart
            rw [← hname, drop_utun] at hdigits hindex
            simp only [Bool.or_eq_true, List.isEmpty_iff, Bool.not_eq_true', not_or,
              Bool.not_eq_false, List.all_eq_true, Bool.and_eq_true, decide_eq_true_eq, not_and,
              Nat.not_le] at hdigits hindex
            rw [← hname, utf8Len_append] at hlength
            exact ⟨suffix, hname.symm, Nat.le_of_not_lt hlength, hdigits.1, hdigits.2, hindex⟩
  · rintro ⟨suffix, hname, hlength, hne, hdigits, hindex⟩
    have hlength' : ¬ maxInterfaceNameLength < utf8Len ("utun".toList ++ suffix) := by
      rw [utf8Len_append]
      exact Nat.not_lt.mpr hlength
    have hstart : "utun".toList.isPrefixOf ("utun".toList ++ suffix) = true :=
      List.isPrefixOf_iff_prefix.mpr (List.prefix_append _ _)
    have hempty : suffix.isEmpty = false := by
      cases suffix with
      | nil => exact absurd rfl hne
      | cons c rest => rfl
    have hall : suffix.all Char.isDigit = true := List.all_eq_true.mpr hdigits
    have hsmall : (macos && decide (2 ^ 32 ≤ decimalValue suffix + 1)) = false := by
      cases macos with
      | false => rfl
      | true => exact decide_eq_false (Nat.not_le.mpr (hindex rfl))
    simp only [validateInterfaceName, hname, drop_utun, hlength', hstart, hempty, hall, hsmall,
      Bool.not_true, Bool.or_false, Bool.false_eq_true, if_false]

/-- The number of the device that an accepted name means. -/
def deviceIndex (name : String) : Nat := decimalValue (name.toList.drop 4)

/-- The canonical name is longer only where there was no digit but zeros. -/
theorem utf8Len_canonicalDigits {digits : List Char} (hne : digits ≠ []) :
    utf8Len (canonicalDigits digits) ≤ utf8Len digits := by
  unfold canonicalDigits
  split
  · cases digits with
    | nil => exact absurd rfl hne
    | cons c rest =>
        have hc : 1 ≤ c.utf8Size := Char.utf8Size_pos c
        have hsize : utf8Len (c :: rest) = c.utf8Size + utf8Len rest := by
          rw [utf8Len, List.map_cons, List.sum_cons, utf8Len]
        have hzero : utf8Len ['0'] = 1 := rfl
        omega
  · have hsplit := List.takeWhile_append_dropWhile (p := (· == '0')) (l := digits)
    have hlength := congrArg utf8Len hsplit
    rw [utf8Len_append] at hlength
    rw [trimStartMatches]
    omega

theorem macosName_ofList (name : String) :
    macosName name = String.ofList ("utun".toList ++ canonicalDigits (name.toList.drop 4)) := by
  delta macosName
  rfl

theorem macosName_toList (name : String) :
    (macosName name).toList = "utun".toList ++ canonicalDigits (name.toList.drop 4) := by
  rw [macosName_ofList, String.toList_ofList]

theorem deviceIndex_macosName (name : String) :
    deviceIndex (macosName name) = deviceIndex name := by
  rw [deviceIndex, macosName_toList, drop_utun, decimalValue_canonicalDigits, deviceIndex]

section Accepted

variable {name : String} (h : validateInterfaceName true name = .ok ())

include h

theorem deviceIndex_lt : deviceIndex name + 1 < 2 ^ 32 := by
  obtain ⟨suffix, hname, _, _, _, hindex⟩ := validateInterfaceName_eq_ok.mp h
  rw [deviceIndex, hname, drop_utun]
  exact hindex rfl

theorem macosName_eq : macosName name = "utun" ++ toString (deviceIndex name) := by
  obtain ⟨suffix, hname, _, _, hdigits, _⟩ := validateInterfaceName_eq_ok.mp h
  refine String.toList_inj.mp ?_
  rw [macosName_toList, deviceIndex, hname, drop_utun, canonicalDigits_eq hdigits,
    String.toList_append, toString_toList]

/-- The canonical name passes the test again. -/
theorem validate_macosName : validateInterfaceName true (macosName name) = .ok () := by
  obtain ⟨suffix, hname, hlength, hne, hdigits, hindex⟩ := validateInterfaceName_eq_ok.mp h
  have hshort := utf8Len_canonicalDigits hne
  refine validateInterfaceName_eq_ok.mpr ⟨canonicalDigits suffix, ?_, by omega, ?_,
    mem_canonicalDigits hdigits, ?_⟩
  · rw [macosName_toList, hname, drop_utun]
  · rw [canonicalDigits_eq hdigits]
    exact Nat.toDigits_ne_nil
  · rw [decimalValue_canonicalDigits]
    exact hindex

theorem macosName_macosName : macosName (macosName name) = macosName name := by
  rw [macosName_eq (validate_macosName h), deviceIndex_macosName, macosName_eq h]

end Accepted

/-- Two names become one exactly when they mean one device. -/
theorem macosName_eq_iff {a b : String} (ha : validateInterfaceName true a = .ok ())
    (hb : validateInterfaceName true b = .ok ()) :
    macosName a = macosName b ↔ deviceIndex a = deviceIndex b := by
  constructor
  · intro h
    rw [← deviceIndex_macosName a, h, deviceIndex_macosName]
  · intro h
    rw [macosName_eq ha, macosName_eq hb, h]

/-! ### Reserved names -/

/-- A name as it is reserved. -/
structure CanonicalName (name : String) : Prop where
  accepted : validateInterfaceName true name = .ok ()
  fixed : macosName name = name

theorem CanonicalName.of_accepted {name : String} (h : validateInterfaceName true name = .ok ()) :
    CanonicalName (macosName name) :=
  ⟨validate_macosName h, macosName_macosName h⟩

theorem CanonicalName.ext {a b : String} (ha : CanonicalName a) (hb : CanonicalName b)
    (h : deviceIndex a = deviceIndex b) : a = b := by
  rw [← ha.fixed, ← hb.fixed]
  exact (macosName_eq_iff ha.accepted hb.accepted).mpr h

/-- The name that `session` goes on with. -/
theorem checkFirst_name {message : ClientMessage} {config : TunSessionConfig}
    (h : checkFirst true message = .ok config) :
    ∃ given, validateInterfaceName true given = .ok () ∧
      config.interfaceName = macosName given := by
  obtain ⟨given, _, h⟩ := bind_eq_ok.mp h
  split at h
  · cases h
  next hvalid =>
    cases h
    obtain ⟨_, hname, _⟩ := bind_eq_ok.mp hvalid
    exact ⟨given.interfaceName, hname, rfl⟩

namespace System

/-- A connection that is not about to lock, or has checked its configuration. -/
def Checked (macos : Bool) : Connection → Prop
  | .locking config => ∃ first, checkFirst macos first = .ok config
  | _ => True

/-- What a connection does to the names: it moves on, and it may reserve the name
it has checked. -/
theorem stepConnection_names {macos : Bool} {s s' : System} {c : Nat} {connection : Connection}
    {event : ConnectionEvent} (h : s.stepConnection macos c connection event = some s') :
    (∃ next, s'.connections = s.connections.set c next ∧ Checked macos next) ∧
      (s'.active = s.active ∨
        ∃ config, connection = .locking config ∧
          s'.active = insert config.interfaceName s.active) := by
  cases stepConnection_step h with
  | moves next shutdown hchecked =>
      refine ⟨⟨next, rfl, ?_⟩, Or.inl rfl⟩
      cases next with
      | locking config => exact hchecked config rfl
      | _ => trivial
  | reserves config active hlocking hreserve =>
      exact ⟨⟨_, rfl, trivial⟩, Or.inr ⟨config, hlocking, (reserve_eq_ok hreserve).2.2⟩⟩

/-- Names are checked before they are reserved. -/
structure Canonical (s : System) : Prop where
  active : ∀ name ∈ s.active, CanonicalName name
  checked : ∀ connection ∈ s.connections, Checked true connection

theorem canonical_start : start.Canonical where
  active := fun _ h => absurd h (Finset.notMem_empty _)
  checked := fun _ h => (by cases h)

theorem forall_mem_set {s : System} {c : Nat} {next : Connection} (h : s.Canonical)
    (hnext : Checked true next) :
    ∀ connection ∈ s.connections.set c next, Checked true connection := by
  intro connection hmem
  rcases List.mem_or_eq_of_mem_set hmem with hold | rfl
  · exact h.checked connection hold
  · exact hnext

theorem Canonical.moves {s s' : System} {l : Label} (h : s.Canonical) (hm : Moves true s l s') :
    s'.Canonical := by
  cases hm with
  | accept =>
      refine ⟨h.active, fun connection hmem => ?_⟩
      rcases List.mem_append.mp hmem with hold | hnew
      · exact h.checked connection hold
      · rw [List.mem_singleton.mp hnew]
        trivial
  | refuse => exact h
  | stop => exact ⟨h.active, h.checked⟩
  | join => exact ⟨h.active, forall_mem_set h trivial⟩
  | joinedAll => exact ⟨h.active, h.checked⟩
  | observe => exact ⟨h.active, h.checked⟩
  | timeout => exact ⟨h.active, h.checked⟩
  | connection hc hstep =>
      obtain ⟨⟨next, hconnections, hnext⟩, hactive⟩ := stepConnection_names hstep
      refine ⟨fun name hname => ?_, by rw [hconnections]; exact forall_mem_set h hnext⟩
      rcases hactive with hactive | ⟨config, rfl, hactive⟩
      · rw [hactive] at hname
        exact h.active name hname
      · rw [hactive] at hname
        rcases Finset.mem_insert.mp hname with rfl | hold
        · obtain ⟨first, hfirst⟩ := h.checked _ (List.mem_of_getElem? hc)
          obtain ⟨given, hgiven, hname⟩ := checkFirst_name hfirst
          rw [hname]
          exact .of_accepted hgiven
        · exact h.active name hold
  | @session t event task task' effect ht htask =>
      cases effect with
      | quiet => exact ⟨h.active, h.checked⟩
      | cleanedUp => exact ⟨h.active, h.checked⟩
      | removes name =>
          exact ⟨fun name hname => h.active name (Finset.mem_of_mem_erase hname), h.checked⟩

theorem canonical_of_reachable {s : System} (h : Reachable (step true) start s) : s.Canonical :=
  reachable_invariant canonical_start (fun _ _ _ hs hstep => hs.moves (step_moves hstep)) h

end System

/-- On macOS an accepted name becomes `utun` and the number of its device in
decimal, which is accepted and stays as it is.  Two names become one exactly when
they mean one device, so the names that are reserved at any time are names of
different devices. -/
theorem interface_names_canonical :
    (∀ name, validateInterfaceName true name = .ok () →
      parseU32 (name.toList.drop 4) = some (deviceIndex name) ∧
      deviceIndex name + 1 < 2 ^ 32 ∧
      macosName name = "utun" ++ toString (deviceIndex name) ∧
      validateInterfaceName true (macosName name) = .ok () ∧
      macosName (macosName name) = macosName name) ∧
    (∀ message config, checkFirst true message = .ok config →
      ∃ given, validateInterfaceName true given = .ok () ∧
        config.interfaceName = macosName given) ∧
    (∀ a b, validateInterfaceName true a = .ok () → validateInterfaceName true b = .ok () →
      (macosName a = macosName b ↔ deviceIndex a = deviceIndex b)) ∧
    ∀ s, Reachable (System.step true) System.start s →
      ∀ a ∈ s.active, ∀ b ∈ s.active, deviceIndex a = deviceIndex b → a = b := by
  refine ⟨?_, fun _ _ h => checkFirst_name h, fun _ _ ha hb => macosName_eq_iff ha hb, ?_⟩
  · intro name h
    have hlt := deviceIndex_lt h
    refine ⟨?_, hlt, macosName_eq h, validate_macosName h, macosName_macosName h⟩
    rw [parseU32_eq]
    exact if_pos (Nat.lt_of_succ_lt hlt)
  · intro s hs a ha b hb hindex
    have hcanonical := System.canonical_of_reachable hs
    exact (hcanonical.active a ha).ext (hcanonical.active b hb) hindex

/-- `utun007` and `utun7` are one device. -/
theorem macosName_leading_zeros : macosName "utun007" = macosName "utun7" ∧
    deviceIndex "utun007" = 7 :=
  ⟨(interface_names_canonical.2.2.1 "utun007" "utun7" (by decide) (by decide)).mpr (by decide),
    by decide⟩

end Daemon
end WgKotlin
