import WgKotlin.Library.Except

/-!
# Records of their own length

A byte string that holds records one after another, each of which tells its own
length, is walked by a loop that moves an offset.  The first part of the file has
the loop and the reads of such a program: a read outside of the data and a loop that
does not end are outcomes of their own.  The second part has the same walk over what
is left of the data, which is a total function, with the rules that take it apart at
the records.  A loop whose steps are those of the walk computes the walk.
-/

namespace WgKotlin
namespace Library

variable {β ε σ α : Type}

/-! ### Reads and loops -/

/-- What ends a program early. -/
inductive Fault (ε : Type)
  | error (e : ε)
  | outOfRange
  | outOfFuel
  deriving DecidableEq, Repr

/-- A result that is no fault but an error of the program itself. -/
def lift (result : Except ε α) : Except (Fault ε) α := result.mapError Fault.error

@[simp] theorem lift_ok (a : α) : lift (.ok a : Except ε α) = .ok a := rfl

@[simp] theorem lift_error (e : ε) : lift (.error e : Except ε α) = .error (.error e) := rfl

theorem lift_bind {γ : Type} (result : Except ε α) (f : α → Except ε γ) :
    lift (result >>= f) = lift result >>= fun a => lift (f a) := by
  cases result with
  | error e => rfl
  | ok a => rfl

theorem lift_ite {c : Prop} [Decidable c] (a b : Except ε α) :
    lift (if c then a else b) = if c then lift a else lift b := by
  split <;> rfl

/-- The element at an index. -/
def index (data : List β) (i : Nat) : Except (Fault ε) β :=
  match data[i]? with
  | some b => .ok b
  | none => .error .outOfRange

/-- The elements from `start` on and before `stop`. -/
def slice (data : List β) (start stop : Nat) : Except (Fault ε) (List β) :=
  if start ≤ stop ∧ stop ≤ data.length then .ok ((data.drop start).take (stop - start))
  else .error .outOfRange

theorem slice_add {data : List β} {start n : Nat} (h : start + n ≤ data.length) :
    slice data start (start + n) =
      (.ok ((data.drop start).take n) : Except (Fault ε) (List β)) := by
  rw [slice, if_pos ⟨Nat.le_add_right start n, h⟩, Nat.add_sub_cancel_left]

/-- Reads of the first `count` elements from `offset` on are reads of what is left of them. -/
theorem index_window {data : List β} {count offset i : Nat} (h : offset + i < count) :
    index data (offset + i) =
      (index ((data.take count).drop offset) i : Except (Fault ε) β) := by
  rw [index, index, List.getElem?_drop, List.getElem?_take_of_lt h]

theorem slice_window {data : List β} {count offset n : Nat} (hcount : count ≤ data.length)
    (h : offset + n ≤ count) : slice data offset (offset + n) =
      (.ok (((data.take count).drop offset).take n) : Except (Fault ε) (List β)) := by
  rw [slice_add (by omega), List.drop_take, List.take_take, Nat.min_eq_left (by omega)]

/-- Repeat a step until it gives a result. -/
def loop (step : σ → Except (Fault ε) (σ ⊕ α)) : Nat → σ → Except (Fault ε) α
  | 0, _ => .error .outOfFuel
  | fuel + 1, state => do
    match ← step state with
    | .inl next => loop step fuel next
    | .inr result => .ok result

/-! ### The walk -/

/-- A kind of record and what is done with one.  The length is found at the front of
the record and lies within the data. -/
structure Format (β ε σ α : Type) where
  measure : List β → Except ε Nat
  visit : σ → List β → Except ε (σ ⊕ α)
  finish : σ → α
  measure_pos : ∀ {rest : List β} {n : Nat}, measure rest = .ok n → 0 < n
  measure_le : ∀ {rest : List β} {n : Nat}, measure rest = .ok n → n ≤ rest.length
  measure_take : ∀ {rest : List β} {n : Nat}, measure rest = .ok n →
    ∀ other, measure (rest.take n ++ other) = .ok n

namespace Format

variable (format : Format β ε σ α)

def walk (state : σ) (rest : List β) : Except ε α :=
  if rest = [] then .ok (format.finish state)
  else
    match _h : format.measure rest with
    | .error e => .error e
    | .ok n =>
      match format.visit state (rest.take n) with
      | .error e => .error e
      | .ok (.inr result) => .ok result
      | .ok (.inl next) => walk next (rest.drop n)
termination_by rest.length
decreasing_by
  have hpos := format.measure_pos _h
  have hle := format.measure_le _h
  rw [List.length_drop]
  omega

/-- One step of the walk, by offset. -/
def stepAt (data : List β) (s : σ × Nat) : Except ε ((σ × Nat) ⊕ α) :=
  if data.drop s.2 = [] then .ok (.inr (format.finish s.1))
  else do
    let n ← format.measure (data.drop s.2)
    (format.visit s.1 ((data.drop s.2).take n)).map (Sum.map (·, s.2 + n) id)

/-- A loop with the steps of the walk computes the walk: it ends, and it does not read
outside of the data. -/
theorem loop_eq_walk {data : List β} {step : σ × Nat → Except (Fault ε) ((σ × Nat) ⊕ α)}
    (hstep : ∀ s, s.2 ≤ data.length → step s = lift (format.stepAt data s)) {fuel : Nat}
    {s : σ × Nat} (hs : s.2 ≤ data.length) (hfuel : data.length - s.2 < fuel) :
    loop step fuel s = lift (format.walk s.1 (data.drop s.2)) := by
  induction fuel generalizing s with
  | zero => exact absurd hfuel (Nat.not_lt_zero _)
  | succ fuel ih =>
      rw [loop, hstep s hs, walk, stepAt]
      by_cases hnil : data.drop s.2 = []
      · rw [if_pos hnil, if_pos hnil]
        rfl
      · rw [if_neg hnil, if_neg hnil]
        split
        next e hmeasure =>
          rw [hmeasure]
          rfl
        next n hmeasure =>
          -- no record is empty, so the fuel outlasts the data
          have hpos := format.measure_pos hmeasure
          have hle := format.measure_le hmeasure
          rw [List.length_drop] at hle
          rw [hmeasure, ok_bind]
          cases hvisit : format.visit s.1 ((data.drop s.2).take n) with
          | error e => rfl
          | ok outcome =>
              cases outcome with
              | inr result => rfl
              | inl next =>
                  have hnext := @ih (next, s.2 + n) (by simp only; omega) (by simp only; omega)
                  rw [List.drop_drop]
                  exact hnext

/-! ### Records -/

/-- A record that tells its length, whatever comes after it. -/
def IsRecord (record : List β) : Prop :=
  ∀ rest, format.measure (record ++ rest) = .ok record.length

/-- The records are visited one after another, and none of them ends the walk. -/
def Visits : σ → List (List β) → σ → Prop
  | state, [], last => state = last
  | state, record :: records, last =>
    ∃ next, format.visit state record = .ok (.inl next) ∧ Visits next records last

variable {format}

theorem IsRecord.ne_nil {record : List β} (h : format.IsRecord record) : record ≠ [] := by
  have hpos := format.measure_pos (h [])
  intro hnil
  rw [hnil] at hpos
  exact Nat.lt_irrefl 0 hpos

theorem walk_nil (state : σ) : format.walk state [] = .ok (format.finish state) := by
  rw [walk, if_pos rfl]

theorem walk_record {record : List β} (h : format.IsRecord record) (state : σ) (rest : List β) :
    format.walk state (record ++ rest) =
      match format.visit state record with
      | .error e => .error e
      | .ok (.inr result) => .ok result
      | .ok (.inl next) => format.walk next rest := by
  have hne : record ++ rest ≠ [] := List.append_ne_nil_of_left_ne_nil h.ne_nil rest
  rw [walk, if_neg hne]
  split
  next e hmeasure =>
    rw [h rest] at hmeasure
    cases hmeasure
  next n hmeasure =>
    rw [h rest] at hmeasure
    cases hmeasure
    rw [List.take_left, List.drop_left]

/-- The walk goes past records that do not end it. -/
theorem walk_visits {records : List (List β)} {state last : σ}
    (hrecords : ∀ record ∈ records, format.IsRecord record)
    (h : format.Visits state records last) (rest : List β) :
    format.walk state (records.flatten ++ rest) = format.walk last rest := by
  induction records generalizing state with
  | nil =>
      cases h
      rfl
  | cons record records ih =>
      obtain ⟨next, hvisit, hnext⟩ := h
      obtain ⟨hrecord, hmore⟩ := List.forall_mem_cons.mp hrecords
      rw [List.flatten_cons, List.append_assoc, walk_record hrecord, hvisit]
      exact ih hmore hnext

theorem walk_flatten {records : List (List β)} {state last : σ}
    (hrecords : ∀ record ∈ records, format.IsRecord record)
    (h : format.Visits state records last) :
    format.walk state records.flatten = .ok (format.finish last) := by
  have hwalk := walk_visits hrecords h []
  rwa [List.append_nil, walk_nil] at hwalk

/-- How a walk ends well: at the end of the data or at a record that ends it. -/
inductive Ends (format : Format β ε σ α) (state : σ) (rest : List β) (result : α) : Prop
  | all (records : List (List β)) (last : σ)
    (hrecords : ∀ record ∈ records, format.IsRecord record)
    (hvisits : format.Visits state records last) (hrest : rest = records.flatten)
    (hresult : result = format.finish last)
  | early (records : List (List β)) (last : σ) (record more : List β)
    (hrecords : ∀ record ∈ records, format.IsRecord record)
    (hvisits : format.Visits state records last) (hrecord : format.IsRecord record)
    (hrest : rest = records.flatten ++ (record ++ more))
    (hvisit : format.visit last record = .ok (.inr result))

theorem isRecord_take {rest : List β} {n : Nat} (h : format.measure rest = .ok n) :
    format.IsRecord (rest.take n) := by
  intro other
  rw [format.measure_take h other, List.length_take, Nat.min_eq_left (format.measure_le h)]

theorem ends_of_walk {state : σ} {rest : List β} {result : α}
    (h : format.walk state rest = .ok result) : Ends format state rest result := by
  -- on the length, since what is left behind a record is no part of `rest` by structure
  induction hlength : rest.length using Nat.strongRecOn generalizing state rest with
  | ind length ih =>
      rw [walk] at h
      split at h
      next hnil =>
        cases h
        exact Ends.all [] state (fun record hrecord => (by cases hrecord)) rfl hnil rfl
      next hne =>
        split at h
        · cases h
        next n hmeasure =>
          have hrecord := isRecord_take hmeasure
          have hsplit := List.take_append_drop n rest
          split at h
          · cases h
          next hvisit =>
            cases h
            refine Ends.early [] state (rest.take n) (rest.drop n)
              (fun record hrecord => (by cases hrecord)) rfl hrecord ?_ hvisit
            exact hsplit.symm
          next next hvisit =>
            have hpos := format.measure_pos hmeasure
            have hle := format.measure_le hmeasure
            have hshort : (rest.drop n).length < length := by
              rw [List.length_drop]
              omega
            have hcons : ∀ {records : List (List β)},
                (∀ record ∈ records, format.IsRecord record) →
                ∀ record ∈ rest.take n :: records, format.IsRecord record :=
              fun hrecords => List.forall_mem_cons.mpr ⟨hrecord, hrecords⟩
            cases ih _ hshort h rfl with
            | all records last hrecords hvisits hrest hresult =>
                refine Ends.all (rest.take n :: records) last (hcons hrecords)
                  ⟨next, hvisit, hvisits⟩ ?_ hresult
                rw [List.flatten_cons, ← hrest, hsplit]
            | early records last record more hrecords hvisits hrecord' hrest hvisit' =>
                refine Ends.early (rest.take n :: records) last record more (hcons hrecords)
                  ⟨next, hvisit, hvisits⟩ hrecord' ?_ hvisit'
                rw [List.flatten_cons, List.append_assoc, ← hrest, hsplit]

end Format

end Library
end WgKotlin
