import Templating.Proofs.Fields
import Templating.Value.Json

/-!
# Functions inside values

`Value.Contains` are the parts of a value at any depth. By the functions among its parts a value is
`IsData` (there are none), `Plain` (there are none below the top, and at the top there is at most a
method of a string) or `NativeFree` (there are none but methods).

Results:
1. `isData_ofJson`, `isData_loopState`: host data and the state of a loop have no functions in them.
2. `BinaryOperator.isData_result?`: operators give data.
3. `admissible_any`, `admissible_nativeFree`, `admissible_plain`: these classes of values are
   `Admissible`, which is what evaluation needs not to lead out of a class.
4. `Admissible.member`: nor does looking up a member.
-/

namespace Templating

/-! ## Definitions -/

namespace Value

/-- The second value is the first one, or it is inside an item, a field or the receiver of it. -/
inductive Contains : Value → Value → Prop
  | self (value : Value) : Contains value value
  | item {items : List Value} {item part : Value} :
      item ∈ items → Contains item part → Contains (array items) part
  | field {fields : List (String × Value)} {name : String} {value part : Value} :
      (name, value) ∈ fields → Contains value part → Contains (object fields) part
  | receiver {receiver part : Value} {method : Method} :
      Contains receiver part → Contains (bound receiver method) part

/-- No function is in the value. -/
def IsData (value : Value) : Prop := ∀ part, value.Contains part → part.kind ≠ .function

/-- The only function in the value is the value itself, if it is a method of a string. -/
def Plain (value : Value) : Prop :=
  ∀ part, value.Contains part → part.kind = .function →
    part = value ∧ ∃ text method, part = bound (string text) method

/-- No native function is in the value. -/
def NativeFree (value : Value) : Prop := ∀ name identity, ¬ value.Contains (native name identity)

/-- A class of values that has all data and all methods of strings in it, and with a container also
what the container holds. -/
structure Admissible (admits : Value → Prop) : Prop where
  data : ∀ value : Value, value.IsData → admits value
  method : ∀ text method, admits (bound (string text) method)
  item : ∀ items item, admits (array items) → item ∈ items → admits item
  field : ∀ fields name value, admits (object fields) → (name, value) ∈ fields → admits value

/-! ## 1. Data -/

variable {value part : Value}

/-- A value without parts below it. -/
def IsLeaf : Value → Prop
  | array _ | object _ | bound .. => False
  | _ => True

theorem Contains.eq_of_leaf (h : value.Contains part) (hleaf : value.IsLeaf) : part = value := by
  cases h with
  | self => rfl
  | item | field | receiver => exact hleaf.elim

theorem contains_array_iff {items : List Value} :
    (array items).Contains part ↔ part = array items ∨ ∃ item ∈ items, item.Contains part := by
  constructor
  · intro h
    cases h with
    | self => exact Or.inl rfl
    | item hitem hpart => exact Or.inr ⟨_, hitem, hpart⟩
  · rintro (rfl | ⟨item, hitem, hpart⟩)
    · exact .self _
    · exact .item hitem hpart

theorem contains_object_iff {fields : List (String × Value)} :
    (object fields).Contains part ↔
      part = object fields ∨ ∃ field ∈ fields, field.2.Contains part := by
  constructor
  · intro h
    cases h with
    | self => exact Or.inl rfl
    | field hfield hpart => exact Or.inr ⟨_, hfield, hpart⟩
  · rintro (rfl | ⟨field, hfield, hpart⟩)
    · exact .self _
    · exact .field hfield hpart

theorem contains_bound_iff {receiver : Value} {method : Method} :
    (bound receiver method).Contains part ↔
      part = bound receiver method ∨ receiver.Contains part := by
  constructor
  · intro h
    cases h with
    | self => exact Or.inl rfl
    | receiver hpart => exact Or.inr hpart
  · rintro (rfl | hpart)
    · exact .self _
    · exact .receiver hpart

theorem isData_of_leaf (hleaf : value.IsLeaf) (hkind : value.kind ≠ .function) : value.IsData := by
  intro part hpart
  rw [hpart.eq_of_leaf hleaf]
  exact hkind

theorem isData_null : null.IsData := isData_of_leaf trivial nofun

theorem isData_boolean (b : Bool) : (boolean b).IsData := isData_of_leaf trivial nofun

theorem isData_numeric (x : Float) : (numeric x).IsData := isData_of_leaf trivial nofun

theorem isData_string (s : String) : (string s).IsData := isData_of_leaf trivial nofun

theorem isData_array {items : List Value} (h : ∀ item ∈ items, item.IsData) :
    (array items).IsData := by
  intro part hpart
  cases hpart with
  | self => exact nofun
  | item hmem hpart => exact h _ hmem part hpart

theorem isData_object {fields : List (String × Value)} (h : ∀ field ∈ fields, field.2.IsData) :
    (object fields).IsData := by
  intro part hpart
  cases hpart with
  | self => exact nofun
  | field hmem hpart => exact h _ hmem part hpart

theorem isData_record {fields : List (String × Value)} (h : ∀ field ∈ fields, field.2.IsData) :
    (record fields).IsData :=
  isData_object fun field hfield => h field (Fields.mem_ofList hfield)

mutual

theorem isData_ofJson : ∀ json : Json, (ofJson json).IsData
  | .null => isData_null
  | .boolean b => isData_boolean b
  | .integer n => isData_numeric (Number.ofInt n)
  | .float x => isData_numeric x
  | .string s => isData_string s
  | .array items => isData_array (isData_ofJsonItems items)
  | .object members => isData_record (isData_ofJsonMembers members)

theorem isData_ofJsonItems : ∀ items : List Json, ∀ value ∈ ofJsonItems items, value.IsData
  | [] => fun _ hvalue => absurd hvalue List.not_mem_nil
  | item :: rest => by
    intro value hvalue
    rcases List.mem_cons.mp hvalue with rfl | hvalue
    · exact isData_ofJson item
    · exact isData_ofJsonItems rest value hvalue

theorem isData_ofJsonMembers :
    ∀ members : List (String × Json), ∀ field ∈ ofJsonMembers members, field.2.IsData
  | [] => fun _ hfield => absurd hfield List.not_mem_nil
  | (name, json) :: rest => by
    intro field hfield
    rcases List.mem_cons.mp hfield with rfl | hfield
    · exact isData_ofJson json
    · exact isData_ofJsonMembers rest field hfield

end

theorem isData_loopState (index length : Nat) : (loopState index length).IsData := by
  apply isData_record
  intro field hfield
  simp only [List.mem_cons, List.not_mem_nil, or_false] at hfield
  rcases hfield with rfl | rfl | rfl | rfl | rfl
  · exact isData_numeric _
  · exact isData_numeric _
  · exact isData_boolean _
  · exact isData_boolean _
  · exact isData_numeric _

end Value

/-! ## 2. Operators -/

namespace BinaryOperator

variable {operator : BinaryOperator} {value : Value}

theorem isData_onNumbers {x y : Float} (h : operator.onNumbers x y = some value) :
    value.IsData := by
  cases operator with
  | add | subtract | multiply | divide | remainder =>
    cases h
    exact Value.isData_numeric _
  | equal | notEqual | less | lessOrEqual | greater | greaterOrEqual =>
    cases h
    exact Value.isData_boolean _
  | and | or => cases h

theorem isData_onBooleans {a b : Bool} (h : operator.onBooleans a b = some value) :
    value.IsData := by
  cases operator with
  | and | or | notEqual =>
    cases h
    exact Value.isData_boolean _
  | _ => cases h

theorem isData_onOthers {left right : Value} (h : operator.onOthers left right = some value) :
    value.IsData := by
  cases operator with
  | add =>
    cases h
    exact Value.isData_string _
  | equal | notEqual =>
    cases h
    exact Value.isData_boolean _
  | _ => cases h

theorem isData_result? {left right : Value} (h : operator.result? left right = some value) :
    value.IsData := by
  unfold result? at h
  split at h
  · exact isData_onNumbers h
  · exact isData_onBooleans h
  · exact isData_onOthers h

end BinaryOperator

/-! ## 3. Admissible classes -/

namespace Value

variable {value part : Value}

theorem admissible_any : Admissible fun _ => True where
  data _ _ := trivial
  method _ _ := trivial
  item _ _ _ _ := trivial
  field _ _ _ _ _ := trivial

theorem admissible_nativeFree : Admissible NativeFree where
  data _ hdata name identity hpart := hdata _ hpart rfl
  method text method name identity hpart := by
    cases hpart with
    | receiver hpart => cases hpart
  item items item h hmem name identity hpart := h name identity (.item hmem hpart)
  field fields name value h hmem other identity hpart := h other identity (.field hmem hpart)

/-- Below the top of a plain container there are no functions. -/
theorem Plain.below {container : Value} (h : container.Plain) (hkind : container.kind ≠ .function)
    (hbelow : ∀ part, value.Contains part → container.Contains part) : value.Plain := by
  intro part hpart hfunction
  obtain ⟨rfl, -⟩ := h part (hbelow part hpart) hfunction
  exact absurd hfunction hkind

theorem admissible_plain : Admissible Plain where
  data value hdata part hpart hfunction := absurd hfunction (hdata part hpart)
  method text method part hpart hfunction := by
    cases hpart with
    | self => exact ⟨rfl, text, method, rfl⟩
    | receiver hpart =>
      rw [hpart.eq_of_leaf trivial] at hfunction
      cases hfunction
  item items item h hmem := h.below nofun fun _ hpart => .item hmem hpart
  field fields name value h hmem := h.below nofun fun _ hpart => .field hmem hpart

/-- No native function is plain. -/
theorem not_plain_native (name : String) (identity : Nat) : ¬ (native name identity).Plain := by
  intro h
  obtain ⟨-, text, method, heq⟩ := h _ (.self _) rfl
  cases heq

/-- A plain method is a method of a string. -/
theorem Plain.receiver {receiver : Value} {method : Method} (h : (bound receiver method).Plain) :
    receiver.kind = .string := by
  obtain ⟨-, text, other, heq⟩ := h _ (.self _) rfl
  cases heq
  rfl

theorem not_nativeFree_native (name : String) (identity : Nat) :
    ¬ (native name identity).NativeFree :=
  fun h => h name identity (.self _)

/-! ## 4. Members -/

theorem builtinMember?_admits {admits : Value → Prop} (hadmits : Admissible admits) {name : String}
    (h : value.builtinMember? name = some part) : admits part := by
  unfold builtinMember? at h
  split at h
  next text =>
    split at h
    · cases h
      exact hadmits.data _ (isData_numeric _)
    · obtain ⟨method, -, rfl⟩ := Option.map_eq_some_iff.mp h
      exact hadmits.method text method
  next items =>
    split at h
    · cases h
      exact hadmits.data _ (isData_numeric _)
    · cases h
  next => cases h

/-- A member of an admitted value is admitted. -/
theorem Admissible.member {admits : Value → Prop} (hadmits : Admissible admits)
    (hvalue : admits value) {name : String} (h : value.member name = .ok part) : admits part := by
  unfold Value.member at h
  dsimp only at h
  split at h
  next found hfound =>
    cases h
    rcases Option.or_eq_some_iff.mp hfound with hfield | ⟨-, hbuiltin⟩
    · split at hfield
      next fields =>
        exact hadmits.field fields name part hvalue (Fields.mem_of_find? hfield)
      next => cases hfield
    · exact builtinMember?_admits hadmits hbuiltin
  next => cases h

end Value

end Templating
