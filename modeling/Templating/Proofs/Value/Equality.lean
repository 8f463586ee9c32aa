import Templating.Proofs.Number.Comparison
import Templating.Proofs.Value.Functions

/-!
# Equality of values

Comparing two values goes through both of them at once, at any depth of arrays, objects and methods.
It is equality of what a comparison looks at, except that a number must be there wherever there is
one to be compared: what is not a number is not equal to itself, and nor is a value with it inside.

* `Value.form` is what a comparison looks at: numbers without signs of zero, and native functions
  without their names.
* `Value.NanFree` are the values without anything in them that is not a number.

Results:
1. `nanFree_array_iff`, `nanFree_object_iff`, `nanFree_bound_iff`: what is in a value is in its parts.
2. `equals_iff`: which values are equal.
3. `equals_object_iff`: objects are compared by what is found under each name.
4. `equals_partialEquivalence`: equality is symmetric and transitive, and reflexive exactly on the
   values that it should be.
-/

namespace Templating.Value

/-! ## Definitions -/

mutual

/-- The value with zero in place of minus zero and with the given names of native functions, at any
depth of arrays, objects and methods. -/
def form (names : Nat → String) : Value → Value
  | numeric x => numeric (Number.unsignZero x)
  | string s => string s
  | boolean b => boolean b
  | object fields => object (formFields names fields)
  | array items => array (formItems names items)
  | native _ identity => native (names identity) identity
  | bound receiver method => bound (receiver.form names) method
  | null => null

def formItems (names : Nat → String) : List Value → List Value
  | [] => []
  | item :: rest => item.form names :: formItems names rest

def formFields (names : Nat → String) : List (String × Value) → List (String × Value)
  | [] => []
  | (name, value) :: rest => (name, value.form names) :: formFields names rest

end

/-- Whatever is numeric in the value is a number. -/
def NanFree (value : Value) : Prop := ∀ x, value.Contains (numeric x) → x.isNaN = false

/-! ## 1. Numbers inside values -/

theorem nanFree_numeric_iff {x : Float} : (numeric x).NanFree ↔ x.isNaN = false := by
  constructor
  · exact fun h => h x (.self _)
  · intro h y hy
    cases hy.eq_of_leaf trivial
    exact h

theorem nanFree_of_leaf {value : Value} (hleaf : value.IsLeaf) (h : value.number? = none) :
    value.NanFree := by
  intro x hx
  rw [← hx.eq_of_leaf hleaf] at h
  cases h

theorem nanFree_array_iff {items : List Value} :
    (array items).NanFree ↔ ∀ item ∈ items, item.NanFree := by
  simp only [NanFree, contains_array_iff, reduceCtorEq, false_or]
  constructor
  · exact fun h item hitem x hx => h x ⟨item, hitem, hx⟩
  · rintro h x ⟨item, hitem, hx⟩
    exact h item hitem x hx

theorem nanFree_object_iff {fields : List (String × Value)} :
    (object fields).NanFree ↔ ∀ field ∈ fields, field.2.NanFree := by
  simp only [NanFree, contains_object_iff, reduceCtorEq, false_or]
  constructor
  · exact fun h field hfield x hx => h x ⟨field, hfield, hx⟩
  · rintro h x ⟨field, hfield, hx⟩
    exact h field hfield x hx

theorem nanFree_bound_iff {receiver : Value} {method : Method} :
    (bound receiver method).NanFree ↔ receiver.NanFree := by
  simp only [NanFree, contains_bound_iff, reduceCtorEq, false_or]

/-! ## 2. Equal values -/

mutual

/-- Two values are equal if they have the same form and whatever is numeric in them is a number. It
does not matter which names are given to native functions. -/
theorem equals_iff (names : Nat → String) : ∀ left right : Value,
    left.equals right = true ↔ left.NanFree ∧ left.form names = right.form names
  | numeric x, right => by
    cases right with
    | numeric y => rw [equals, Number.beq_iff, nanFree_numeric_iff, form, form, numeric.injEq]
    | _ => simp [equals, form]
  | string s, right => by
    cases right with
    | string t =>
      have hfree : (string s).NanFree := nanFree_of_leaf trivial rfl
      rw [equals, form, form, string.injEq, beq_iff_eq, and_iff_right hfree]
    | _ => simp [equals, form]
  | boolean a, right => by
    cases right with
    | boolean b =>
      have hfree : (boolean a).NanFree := nanFree_of_leaf trivial rfl
      rw [equals, form, form, boolean.injEq, beq_iff_eq, and_iff_right hfree]
    | _ => simp [equals, form]
  | null, right => by
    cases right with
    | null => exact iff_of_true rfl ⟨nanFree_of_leaf trivial rfl, rfl⟩
    | _ => simp [equals, form]
  | native name identity, right => by
    cases right with
    | native other otherIdentity =>
      have hfree : (native name identity).NanFree := nanFree_of_leaf trivial rfl
      rw [equals, form, form, native.injEq, beq_iff_eq, and_iff_right hfree]
      exact ⟨fun h => ⟨congrArg names h, h⟩, And.right⟩
    | _ => simp [equals, form]
  | bound receiver method, right => by
    cases right with
    | bound other otherMethod =>
      rw [equals, Bool.and_eq_true, equals_iff names receiver other, nanFree_bound_iff, form, form,
        bound.injEq, beq_iff_eq, and_comm, and_assoc]
    | _ => simp [equals, form]
  | array items, right => by
    cases right with
    | array others =>
      rw [equals, equalItems_iff names items others, nanFree_array_iff, form, form, array.injEq]
    | _ => simp [equals, form]
  | object fields, right => by
    cases right with
    | object others =>
      rw [equals, equalFields_iff names fields others, nanFree_object_iff, form, form, object.injEq]
    | _ => simp [equals, form]

theorem equalItems_iff (names : Nat → String) : ∀ items others : List Value,
    equalItems items others = true ↔
      (∀ item ∈ items, item.NanFree) ∧ formItems names items = formItems names others
  | [], others => by cases others <;> simp [equalItems, formItems]
  | item :: rest, others => by
    cases others with
    | nil => simp [equalItems, formItems]
    | cons other others =>
      rw [equalItems, Bool.and_eq_true, equals_iff names item other,
        equalItems_iff names rest others, List.forall_mem_cons, formItems, formItems,
        List.cons.injEq, and_and_and_comm]

theorem equalFields_iff (names : Nat → String) : ∀ fields others : List (String × Value),
    equalFields fields others = true ↔
      (∀ field ∈ fields, field.2.NanFree) ∧ formFields names fields = formFields names others
  | [], others => by cases others <;> simp [equalFields, formFields]
  | (name, value) :: rest, others => by
    cases others with
    | nil => simp [equalFields, formFields]
    | cons other others =>
      obtain ⟨otherName, other⟩ := other
      rw [equalFields, Bool.and_eq_true, Bool.and_eq_true, equals_iff names value other,
        equalFields_iff names rest others, List.forall_mem_cons, formFields, formFields,
        List.cons.injEq, Prod.mk.injEq, beq_iff_eq]
      tauto

end

mutual

/-- Values of one form are free of what is not a number together. -/
theorem nanFree_form_iff (names : Nat → String) : ∀ value : Value,
    (value.form names).NanFree ↔ value.NanFree
  | numeric x => by
    rw [form, nanFree_numeric_iff, nanFree_numeric_iff, Number.isNaN_unsignZero]
  | native name identity =>
    iff_of_true (nanFree_of_leaf trivial rfl) (nanFree_of_leaf trivial rfl)
  | string _ | boolean _ | null => Iff.rfl
  | bound receiver method => by
    rw [form, nanFree_bound_iff, nanFree_bound_iff, nanFree_form_iff names receiver]
  | array items => by
    rw [form, nanFree_array_iff, nanFree_array_iff, nanFree_formItems_iff names items]
  | object fields => by
    rw [form, nanFree_object_iff, nanFree_object_iff, nanFree_formFields_iff names fields]

theorem nanFree_formItems_iff (names : Nat → String) : ∀ items : List Value,
    (∀ item ∈ formItems names items, item.NanFree) ↔ ∀ item ∈ items, item.NanFree
  | [] => Iff.rfl
  | item :: rest => by
    rw [formItems, List.forall_mem_cons, List.forall_mem_cons, nanFree_form_iff names item,
      nanFree_formItems_iff names rest]

theorem nanFree_formFields_iff (names : Nat → String) : ∀ fields : List (String × Value),
    (∀ field ∈ formFields names fields, field.2.NanFree) ↔ ∀ field ∈ fields, field.2.NanFree
  | [] => Iff.rfl
  | (name, value) :: rest => by
    rw [formFields, List.forall_mem_cons, List.forall_mem_cons, nanFree_form_iff names value,
      nanFree_formFields_iff names rest]

end

/-! ## 3. Objects -/

theorem equalFields_iff_alike {fields others : List (String × Value)} :
    equalFields fields others = true ↔
      Fields.Alike (fun left right => left.equals right = true) fields others := by
  induction fields generalizing others with
  | nil =>
    cases others with
    | nil => exact iff_of_true rfl .nil
    | cons => exact iff_of_false nofun nofun
  | cons field rest ih =>
    cases others with
    | nil => exact iff_of_false nofun nofun
    | cons other others =>
      rw [equalFields, Bool.and_eq_true, Bool.and_eq_true, beq_iff_eq, ih, Fields.alike_cons]

/-- Objects are equal if they have the same size and what the one has under a name is equal to what
the other has under it. -/
theorem equals_object_iff {fields others : List (String × Value)} (hfields : Fields.Sorted fields)
    (hothers : Fields.Sorted others) :
    (object fields).equals (object others) = true ↔
      fields.length = others.length ∧
        ∀ field ∈ fields, ∃ value, Fields.find? others field.1 = some value ∧
          field.2.equals value = true := by
  rw [equals, equalFields_iff_alike, hfields.alike_iff hothers]

/-! ## 4. Partial equivalence -/

theorem equals_self_iff {value : Value} : value.equals value = true ↔ value.NanFree := by
  rw [equals_iff fun _ => ""]
  exact and_iff_left rfl

theorem equals_comm (left right : Value) : left.equals right = right.equals left := by
  rw [Bool.eq_iff_iff, equals_iff fun _ => "", equals_iff fun _ => "", eq_comm]
  refine and_congr_left fun h => ?_
  rw [← nanFree_form_iff fun _ => "", ← h, nanFree_form_iff]

theorem equals_trans {first second third : Value} (h : first.equals second = true)
    (hnext : second.equals third = true) : first.equals third = true := by
  rw [equals_iff fun _ => ""] at h hnext ⊢
  exact ⟨h.1, h.2.trans hnext.2⟩

/-- Equality is symmetric and transitive. A value is equal to itself iff nothing in it, at any depth
of arrays, objects and receivers of methods, is a number that is none. Objects are compared by size
and by what is found under each name of the first one. -/
theorem equals_partialEquivalence :
    (∀ left right : Value, left.equals right = right.equals left) ∧
    (∀ first second third : Value, first.equals second = true → second.equals third = true →
      first.equals third = true) ∧
    (∀ value : Value, value.equals value = true ↔
      ∀ x, value.Contains (numeric x) → x.isNaN = false) ∧
    (∀ fields others : List (String × Value), Fields.Sorted fields → Fields.Sorted others →
      ((object fields).equals (object others) = true ↔
        fields.length = others.length ∧
          ∀ field ∈ fields, ∃ value, Fields.find? others field.1 = some value ∧
            field.2.equals value = true)) :=
  ⟨equals_comm, fun _ _ _ => equals_trans, fun _ => equals_self_iff,
    fun _ _ => equals_object_iff⟩

/-- The two zeros are equal wherever they are, and what is not a number spoils its container. -/
example :
    let fields (x : Float) := [("a", array [numeric x, null]), ("b", bound (numeric x) .upper)]
    (object (fields (Number.ofWord true 0))).equals (object (fields (Number.ofWord false 0))) ∧
      ¬ (object (fields Number.nan)).equals (object (fields Number.nan)) := by
  decide +kernel

end Templating.Value
