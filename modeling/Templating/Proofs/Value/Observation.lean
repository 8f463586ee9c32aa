import Templating.Proofs.Value.Equality
import Templating.Value.Json
import Templating.Value.Members

/-!
# What can be seen of a value

Templates and their host see of a value its kind, its text, whether it is truthy, its JSON form and
its members. None of this tells two equal values apart, not even the signs of their zeros. Only the
name of a native function could, as functions are compared by their identity: so it is taken for
granted that a function has one name.

* `Value.Named` says which name goes with each identity of a native function in a value.
* `Value.Indistinguishable` says that nothing can be seen of one value that is not seen of the other.

Results:
1. `kind_form`, `isTruthy_form`, `print_form`, `toJson_form`, `builtinMember?_form`: what is seen of a
   value is seen of its form.
2. `indistinguishable_of_equals`: equal values are indistinguishable.
-/

namespace Templating.Value

/-! ## Definitions -/

/-- Every native function in the value has the name that goes with its identity. -/
def Named (names : Nat → String) (value : Value) : Prop :=
  ∀ name identity, value.Contains (native name identity) → name = names identity

/-- Whatever templates and their host see of the one value, they see of the other. Members are there
on both sides and equal, or on neither. -/
structure Indistinguishable (left right : Value) : Prop where
  kind : left.kind = right.kind
  print : left.print = right.print
  isTruthy : left.isTruthy = right.isTruthy
  toJson : left.toJson = right.toJson
  builtinMember : ∀ name,
    Option.Rel (fun part other => part.equals other = true) (left.builtinMember? name)
      (right.builtinMember? name)
  field : ∀ fields others, left = object fields → right = object others → ∀ name,
    Option.Rel (fun part other => part.equals other = true) (Fields.find? fields name)
      (Fields.find? others name)

variable {names : Nat → String} {left right : Value}

/-! ## 1. What is seen of a form -/

theorem named_native_iff {name : String} {identity : Nat} :
    (native name identity).Named names ↔ name = names identity := by
  constructor
  · exact fun h => h name identity (.self _)
  · intro h other otherIdentity hpart
    cases hpart.eq_of_leaf trivial
    exact h

theorem named_of_isData {value : Value} (h : value.IsData) : value.Named names :=
  fun name identity hpart => absurd rfl (h (native name identity) hpart)

theorem named_array_iff {items : List Value} :
    (array items).Named names ↔ ∀ item ∈ items, item.Named names := by
  simp only [Named, contains_array_iff, reduceCtorEq, false_or]
  constructor
  · exact fun h item hitem name identity hpart => h name identity ⟨item, hitem, hpart⟩
  · rintro h name identity ⟨item, hitem, hpart⟩
    exact h item hitem name identity hpart

theorem named_object_iff {fields : List (String × Value)} :
    (object fields).Named names ↔ ∀ field ∈ fields, field.2.Named names := by
  simp only [Named, contains_object_iff, reduceCtorEq, false_or]
  constructor
  · exact fun h field hfield name identity hpart => h name identity ⟨field, hfield, hpart⟩
  · rintro h name identity ⟨field, hfield, hpart⟩
    exact h field hfield name identity hpart

theorem kind_form (names : Nat → String) (value : Value) : (value.form names).kind = value.kind := by
  cases value <;> rfl

theorem isTruthy_form (names : Nat → String) (value : Value) :
    (value.form names).isTruthy = value.isTruthy := by
  cases value with
  | numeric x =>
    rw [form]
    rcases Number.unsignZero_cases x with ⟨rfl, h⟩ | h
    · rw [h]
      decide +kernel
    · rw [h]
  | _ => rfl

mutual

theorem print_form : ∀ value : Value, value.Named names → (value.form names).print = value.print
  | numeric x, _ => Number.format_unsignZero x
  | string _, _ | object _, _ | bound _ _, _ | null, _ | boolean true, _ | boolean false, _ => rfl
  | native name identity, h => by rw [form, ← named_native_iff.mp h]
  | array items, h => printItems_formItems items (named_array_iff.mp h)

theorem printItems_formItems : ∀ items : List Value, (∀ item ∈ items, item.Named names) →
    printItems (formItems names items) = printItems items
  | [], _ => rfl
  | [item], h => print_form item (List.forall_mem_singleton.mp h)
  | item :: other :: rest, h => by
    obtain ⟨hitem, hrest⟩ := List.forall_mem_cons.mp h
    have hprint := printItems_formItems (other :: rest) hrest
    simp only [formItems] at hprint
    simp only [formItems, printItems, print_form item hitem, hprint]

end

theorem numberToJson_unsignZero (x : Float) :
    numberToJson (Number.unsignZero x) = numberToJson x := by
  rcases Number.unsignZero_cases x with ⟨rfl, h⟩ | h
  · rw [numberToJson, numberToJson, Number.toInt?_unsignZero, Number.toInt?_minusZero]
    rfl
  · rw [h]

mutual

theorem toJson_form : ∀ value : Value, value.Named names → (value.form names).toJson = value.toJson
  | numeric x, _ => numberToJson_unsignZero x
  | string _, _ | boolean _, _ | bound _ _, _ | null, _ => rfl
  | native name identity, h => by rw [form, ← named_native_iff.mp h]
  | array items, h => by
    rw [form, toJson, toJson, toJsonItems_formItems items (named_array_iff.mp h)]
  | object fields, h => by
    rw [form, toJson, toJson, toJsonFields_formFields fields (named_object_iff.mp h)]

theorem toJsonItems_formItems : ∀ items : List Value, (∀ item ∈ items, item.Named names) →
    toJsonItems (formItems names items) = toJsonItems items
  | [], _ => rfl
  | item :: rest, h => by
    obtain ⟨hitem, hrest⟩ := List.forall_mem_cons.mp h
    rw [formItems, toJsonItems, toJsonItems, toJson_form item hitem,
      toJsonItems_formItems rest hrest]

theorem toJsonFields_formFields : ∀ fields : List (String × Value),
    (∀ field ∈ fields, field.2.Named names) →
      toJsonFields (formFields names fields) = toJsonFields fields
  | [], _ => rfl
  | (name, value) :: rest, h => by
    obtain ⟨hvalue, hrest⟩ := List.forall_mem_cons.mp h
    rw [formFields, toJsonFields, toJsonFields, toJson_form value hvalue,
      toJsonFields_formFields rest hrest]

end

theorem length_formItems (names : Nat → String) (items : List Value) :
    (formItems names items).length = items.length := by
  induction items with
  | nil => rfl
  | cons item rest ih => rw [formItems, List.length_cons, List.length_cons, ih]

/-- Built-in members are those of the form: only strings have methods, and they are their own form. -/
theorem builtinMember?_form (names : Nat → String) (value : Value) (name : String) :
    (value.form names).builtinMember? name = value.builtinMember? name := by
  cases value with
  | array items => simp only [form, builtinMember?, length_formItems]
  | _ => rfl

/-! ## 2. Equal values -/

theorem nanFree_of_builtinMember? {value part : Value} {name : String}
    (h : value.builtinMember? name = some part) : part.NanFree := by
  unfold builtinMember? at h
  split at h
  next text =>
    split at h
    · cases h
      exact nanFree_numeric_iff.mpr (Number.isNaN_ofNat _)
    · obtain ⟨method, -, rfl⟩ := Option.map_eq_some_iff.mp h
      exact nanFree_bound_iff.mpr (nanFree_of_leaf trivial rfl)
  next items =>
    split at h
    · cases h
      exact nanFree_numeric_iff.mpr (Number.isNaN_ofNat _)
    · cases h
  next => cases h

theorem builtinMember?_rel_self (value : Value) (name : String) :
    Option.Rel (fun part other => part.equals other = true) (value.builtinMember? name)
      (value.builtinMember? name) := by
  cases hmember : value.builtinMember? name with
  | none => exact .none
  | some part => exact .some (equals_self_iff.mpr (nanFree_of_builtinMember? hmember))

theorem toJson_eq_of_equals (hleft : left.Named names) (hright : right.Named names)
    (h : left.equals right = true) : left.toJson = right.toJson := by
  rw [← toJson_form left hleft, ((equals_iff names left right).mp h).2, toJson_form right hright]

/-- Nothing can be seen of a value that is not seen of the values that are equal to it, provided that
native functions of one identity have one name. -/
theorem indistinguishable_of_equals (hleft : left.Named names) (hright : right.Named names)
    (h : left.equals right = true) : Indistinguishable left right := by
  have hform : left.form names = right.form names := ((equals_iff names left right).mp h).2
  have hbuiltin : ∀ name, left.builtinMember? name = right.builtinMember? name := by
    intro name
    rw [← builtinMember?_form names left, hform, builtinMember?_form]
  refine ⟨?kind, ?print, ?isTruthy, ?toJson, ?builtinMember, ?field⟩
  case kind => rw [← kind_form names left, hform, kind_form]
  case print => rw [← print_form left hleft, hform, print_form right hright]
  case isTruthy => rw [← isTruthy_form names left, hform, isTruthy_form]
  case toJson => exact toJson_eq_of_equals hleft hright h
  case builtinMember =>
    intro name
    rw [← hbuiltin name]
    exact builtinMember?_rel_self left name
  case field =>
    rintro fields others rfl rfl name
    rw [equals, equalFields_iff_alike] at h
    exact h.find? name

/-- Two objects that hold the same function and zeros of both signs. -/
theorem indistinguishable_of_equals_zeros :
    let names := fun _ : Nat => "shout"
    let value := fun x => object [("a", array [native "shout" 3, numeric x]), ("b", string "x")]
    let left := value (Number.ofWord true 0)
    let right := value (Number.ofWord false 0)
    left.Named names ∧ right.Named names ∧ left.equals right = true ∧ Indistinguishable left right := by
  intro names value left right
  have hnamed : ∀ x, (value x).Named names := by
    intro x
    simp only [value, named_object_iff, named_array_iff, List.forall_mem_cons, named_native_iff]
    exact ⟨⟨rfl, named_of_isData (isData_numeric x), List.forall_mem_nil _⟩,
      named_of_isData (isData_string "x"), List.forall_mem_nil _⟩
  have hequal : left.equals right = true := by decide +kernel
  exact ⟨hnamed _, hnamed _, hequal, indistinguishable_of_equals (hnamed _) (hnamed _) hequal⟩

end Templating.Value
