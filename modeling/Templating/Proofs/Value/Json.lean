import Templating.Proofs.Contract
import Templating.Proofs.Number.Whole
import Templating.Proofs.Value.Functions

/-!
# What has a JSON form

`Value.atoms` are the parts of a value that its arrays and objects are made of in the end, in the
order in which they are converted. A value has a JSON form if each of them has one.

* `Value.Convertible` are the values without functions and with finite numbers.
* `Value.refusal?` is the reason why an atom has no JSON form.
* `FailsFirst` says of a result that it fails with the first fault among some parts, and only with
  this. `Value.FailsAs` is the case of the refusals of values.

Results:
1. `Json.parts_induction`: induction over the parts of data. `ofJsonItems_eq_map`,
   `ofJsonMembers_eq_map`: what they stand for.
2. `convertible_iff`: a value is convertible if all of its atoms have a JSON form.
3. `FailsFirst.bind`: the faults of one result after another. `failsAs_toJson`,
   `failsAs_toJsonItems`: how conversions fail.
4. `HostFunction.run_eq_error`: a function of the host fails in no other way than by the conversion
   of its arguments and by its own account.
-/

namespace Templating

/-! ## Definitions -/

/-- The result is a failure exactly if one of the parts has a fault, and then it fails with the
fault of the first such part. -/
def FailsFirst {α π : Type} (fault? : π → Option ConversionError) (result : Except RuntimeError α)
    (parts : List π) : Prop :=
  ∀ error, result = .error error ↔
    ∃ cause, parts.findSome? fault? = some cause ∧ error = .conversion cause

namespace Value

mutual

/-- The parts of a value, at any depth of arrays and objects, that are neither, in the order of items
and fields. -/
def atoms : Value → List Value
  | array items => atomsOfItems items
  | object fields => atomsOfFields fields
  | value => [value]

def atomsOfItems : List Value → List Value
  | [] => []
  | item :: rest => item.atoms ++ atomsOfItems rest

def atomsOfFields : List (String × Value) → List Value
  | [] => []
  | (_, value) :: rest => value.atoms ++ atomsOfFields rest

end

/-- Why an atom has no JSON form, if it has none. -/
def refusal? : Value → Option ConversionError
  | numeric x => if x.isFinite then none else some (.noJsonForm x)
  | native name _ => some (.functionToHost name)
  | bound _ method => some (.functionToHost method.name)
  | _ => none

/-- There is neither a function nor a number that is not finite in the value. -/
def Convertible (value : Value) : Prop :=
  value.IsData ∧ ∀ x, value.Contains (numeric x) → x.isFinite = true

variable {α : Type}

/-- The result is a failure exactly if one of the parts has no JSON form, and then it is the refusal
of the first such part. -/
def FailsAs (result : Except RuntimeError α) (parts : List Value) : Prop :=
  ∀ error, result = .error error ↔
    ∃ cause, parts.findSome? refusal? = some cause ∧ error = .conversion cause

end Value

/-! ## 1. Data -/

/-- What holds of data as soon as it holds of its items and members holds of all data. -/
@[elab_as_elim]
theorem Json.parts_induction {motive : Json → Prop} (null : motive .null)
    (boolean : ∀ b, motive (.boolean b)) (integer : ∀ n, motive (.integer n))
    (float : ∀ x, motive (.float x)) (string : ∀ s, motive (.string s))
    (array : ∀ items, (∀ item ∈ items, motive item) → motive (.array items))
    (object : ∀ members, (∀ member ∈ members, motive member.2) → motive (.object members))
    (json : Json) : motive json := by
  cases json with
  | null => exact null
  | boolean b => exact boolean b
  | integer n => exact integer n
  | float x => exact float x
  | string s => exact string s
  | array items =>
    refine array items fun item hitem => ?_
    have hsmaller := List.sizeOf_lt_of_mem hitem
    exact parts_induction null boolean integer float string array object item
  | object members =>
    refine object members fun (name, value) hmember => ?_
    have hsmaller := List.sizeOf_lt_of_mem hmember
    exact parts_induction null boolean integer float string array object value
termination_by json
decreasing_by
  · simp only [Json.array.sizeOf_spec]
    omega
  · simp only [Json.object.sizeOf_spec, Prod.mk.sizeOf_spec] at hsmaller ⊢
    omega

namespace Value

theorem ofJsonItems_eq_map (items : List Json) : ofJsonItems items = items.map ofJson := by
  induction items with
  | nil => rfl
  | cons item rest ih => rw [ofJsonItems, ih, List.map_cons]

theorem ofJsonMembers_eq_map (members : List (String × Json)) :
    ofJsonMembers members = members.map fun member => (member.1, ofJson member.2) := by
  induction members with
  | nil => rfl
  | cons member rest ih => rw [ofJsonMembers, ih, List.map_cons]

/-! ## 2. Atoms -/

theorem refusal?_eq_none_iff {value : Value} :
    value.refusal? = none ↔
      value.kind ≠ .function ∧ ∀ x, value = numeric x → x.isFinite = true := by
  cases value <;> simp [refusal?, kind]

theorem atomsOfItems_eq_flatMap (items : List Value) :
    atomsOfItems items = items.flatMap atoms := by
  induction items with
  | nil => rfl
  | cons item rest ih => rw [atomsOfItems, ih, List.flatMap_cons]

theorem atomsOfFields_eq_flatMap (fields : List (String × Value)) :
    atomsOfFields fields = fields.flatMap fun field => field.2.atoms := by
  induction fields with
  | nil => rfl
  | cons field rest ih => rw [atomsOfFields, ih, List.flatMap_cons]

theorem contains_of_mem_atoms (value part : Value) (h : part ∈ value.atoms) :
    value.Contains part := by
  cases value with
  | array items =>
    rw [atoms, atomsOfItems_eq_flatMap] at h
    obtain ⟨item, hitem, hpart⟩ := List.mem_flatMap.mp h
    have hsmaller := List.sizeOf_lt_of_mem hitem
    exact .item hitem (contains_of_mem_atoms item part hpart)
  | object fields =>
    rw [atoms, atomsOfFields_eq_flatMap] at h
    obtain ⟨⟨name, value⟩, hfield, hpart⟩ := List.mem_flatMap.mp h
    have hsmaller := List.sizeOf_lt_of_mem hfield
    exact .field hfield (contains_of_mem_atoms value part hpart)
  | _ =>
    rw [atoms, List.mem_singleton] at h
    · rw [h]
      exact .self _
    all_goals nofun
termination_by value
decreasing_by all_goals simp_all; omega

/-- Where all atoms of a value have a JSON form, so do those of its parts. -/
theorem Contains.forall_atoms {value part : Value} (h : value.Contains part)
    (hatoms : ∀ atom ∈ value.atoms, atom.refusal? = none) :
    ∀ atom ∈ part.atoms, atom.refusal? = none := by
  induction h with
  | self => exact hatoms
  | item hitem _ ih =>
    rw [atoms, atomsOfItems_eq_flatMap] at hatoms
    exact ih fun atom hatom => hatoms atom (List.mem_flatMap.mpr ⟨_, hitem, hatom⟩)
  | field hfield _ ih =>
    rw [atoms, atomsOfFields_eq_flatMap] at hatoms
    exact ih fun atom hatom => hatoms atom (List.mem_flatMap.mpr ⟨_, hfield, hatom⟩)
  | @receiver receiver part method _ _ =>
    -- The method itself has no JSON form.
    have hmethod := hatoms (bound receiver method) (by simp [atoms])
    cases hmethod

/-- A value is convertible if each of its atoms has a JSON form. -/
theorem convertible_iff {value : Value} :
    value.Convertible ↔ ∀ atom ∈ value.atoms, atom.refusal? = none := by
  constructor
  · rintro ⟨hdata, hfinite⟩ atom hatom
    have hcontains := contains_of_mem_atoms value atom hatom
    rw [refusal?_eq_none_iff]
    refine ⟨hdata atom hcontains, ?_⟩
    rintro x rfl
    exact hfinite x hcontains
  · intro h
    constructor
    · intro part hpart hfunction
      have hatoms := hpart.forall_atoms h part
      cases part with
      | native | bound => cases hatoms (by simp [atoms])
      | _ => cases hfunction
    · intro x hx
      exact (refusal?_eq_none_iff.mp (hx.forall_atoms h _ (by simp [atoms]))).2 x rfl

end Value

/-! ## 3. Failures -/

namespace FailsFirst

variable {α β π : Type} {fault? : π → Option ConversionError} {result : Except RuntimeError α}
  {parts : List π}

theorem exists_ok_iff (h : FailsFirst fault? result parts) :
    (∃ a, result = .ok a) ↔ ∀ part ∈ parts, fault? part = none := by
  rw [← List.findSome?_eq_none_iff]
  cases result with
  | ok a =>
    refine iff_of_true ⟨a, rfl⟩ (Option.eq_none_iff_forall_ne_some.mpr fun cause hcause => ?_)
    cases (h (.conversion cause)).mpr ⟨cause, hcause, rfl⟩
  | error error =>
    obtain ⟨cause, hcause, -⟩ := (h error).mp rfl
    refine iff_of_false nofun ?_
    rw [hcause]
    nofun

theorem ok (a : α) : FailsFirst fault? (.ok a) [] := by
  simp [FailsFirst]

theorem map {f : α → β} (h : FailsFirst fault? result parts) :
    FailsFirst fault? (result >>= fun a => .ok (f a)) parts := by
  intro error
  rw [bind_eq_error, h error]
  simp

/-- One result after another. The parts of the second one matter only if the first one is no
failure. -/
theorem bind {others : List π} {next : α → Except RuntimeError β}
    (h : FailsFirst fault? result parts)
    (hnext : ∀ a, result = .ok a → FailsFirst fault? (next a) others) :
    FailsFirst fault? (result >>= next) (parts ++ others) := by
  intro error
  rw [bind_eq_error, h error, List.findSome?_append]
  cases result with
  | ok a =>
    have hnone := List.findSome?_eq_none_iff.mpr (h.exists_ok_iff.mp ⟨a, rfl⟩)
    rw [hnone, Option.none_or]
    simpa using hnext a rfl error
  | error first =>
    obtain ⟨cause, hcause, -⟩ := (h first).mp rfl
    rw [hcause, Option.some_or]
    simp

/-- Parts without faults may come before. -/
theorem append_left {others : List π} (h : FailsFirst fault? result parts)
    (hothers : ∀ part ∈ others, fault? part = none) :
    FailsFirst fault? result (others ++ parts) := by
  intro error
  rw [h error, List.findSome?_append, List.findSome?_eq_none_iff.mpr hothers, Option.none_or]

end FailsFirst

namespace Value

theorem FailsAs.exists_ok_iff {α : Type} {result : Except RuntimeError α} {parts : List Value}
    (h : FailsAs result parts) :
    (∃ a, result = .ok a) ↔ ∀ part ∈ parts, part.refusal? = none :=
  FailsFirst.exists_ok_iff h

theorem failsAs_numberToJson (x : Float) : FailsAs (numberToJson x) [numeric x] := by
  intro error
  rw [List.findSome?_singleton, refusal?, numberToJson]
  split
  next n hn =>
    rw [if_pos (Number.isFinite_of_toInt? hn)]
    split <;> simp
  next =>
    split
    next => simp
    next => simp [eq_comm]

mutual

/-- The failure of a conversion is the refusal of the first atom without a JSON form. -/
theorem failsAs_toJson : ∀ value : Value, FailsAs value.toJson value.atoms
  | null | boolean _ | string _ => by simp [FailsAs, toJson, atoms, refusal?]
  | native _ _ | bound _ _ => by simp [FailsAs, toJson, atoms, refusal?, eq_comm]
  | numeric x => by
    rw [toJson, atoms]
    · exact failsAs_numberToJson x
    all_goals nofun
  | array items => by
    rw [toJson, atoms]
    exact FailsFirst.map (failsAs_toJsonItems items)
  | object fields => by
    rw [toJson, atoms]
    exact FailsFirst.map (failsAs_toJsonFields fields)

theorem failsAs_toJsonItems :
    ∀ items : List Value, FailsAs (toJsonItems items) (atomsOfItems items)
  | [] => by
    rw [toJsonItems, atomsOfItems]
    exact FailsFirst.ok []
  | item :: rest => by
    rw [toJsonItems, atomsOfItems]
    exact FailsFirst.bind (failsAs_toJson item) fun _ _ => .map (failsAs_toJsonItems rest)

theorem failsAs_toJsonFields :
    ∀ fields : List (String × Value), FailsAs (toJsonFields fields) (atomsOfFields fields)
  | [] => by
    rw [toJsonFields, atomsOfFields]
    exact FailsFirst.ok []
  | (name, value) :: rest => by
    rw [toJsonFields, atomsOfFields]
    exact FailsFirst.bind (failsAs_toJson value) fun _ _ => .map (failsAs_toJsonFields rest)

end

end Value

/-! ## 4. Functions of the host -/

theorem HostFunction.run_eq_error {function : HostFunction} {name : String} {args : List Value}
    {error : RuntimeError} (h : function.run name args = .error error) :
    (∃ cause, error = .conversion cause) ∨ ∃ message, error = .hostCall name message := by
  rw [run] at h
  rcases bind_eq_error.mp h with h | ⟨jsons, -, h⟩
  · obtain ⟨cause, -, hcause⟩ := (Value.failsAs_toJsonItems args error).mp h
    exact Or.inl ⟨cause, hcause⟩
  · split at h
    next => cases h
    next => cases h
    next message _ =>
      cases h
      exact Or.inr ⟨message, rfl⟩

end Templating
