import Templating.Proofs.Value.Equality
import Templating.Value.Operators

/-!
# The table of operators

Whether an operator is defined for two values depends on their kinds only, and so does the error
where it is not. `==` and `!=` compare in the same way wherever both of them are defined.

* `BinaryOperator.defined` is the table: the operators that are defined for operands of two kinds.

Results:
1. `defined_comm`: the table is symmetric.
2. `apply_eq_ok_iff`, `apply_eq_nullOperand_iff`, `apply_eq_unknownBinary_iff`: an operator gives
   what it is defined to give, and fails in one of two ways where it is not defined.
3. `apply_equal_eq_ok_iff`, `apply_notEqual_eq_ok_iff`: what `==` and `!=` give.
4. `apply_table`: the whole table, with negation and symmetry of comparison.
-/

namespace Templating.BinaryOperator

/-- The operators that are defined for a left and a right operand of the given kinds. -/
def defined : ValueKind → ValueKind → List BinaryOperator
  | .null, _ | _, .null => []
  | .numeric, .numeric => all.filter fun operator => operator ≠ .and ∧ operator ≠ .or
  | .boolean, .boolean => [.and, .or, .notEqual]
  | _, _ => [.add, .equal, .notEqual]

variable {operator : BinaryOperator} {left right value : Value}

/-! ## 1. The table -/

/-- Of the operators on two numbers only those of logic are left out. -/
theorem mem_defined_numeric_iff :
    operator ∈ defined .numeric .numeric ↔ operator ≠ .and ∧ operator ≠ .or := by
  cases operator <;> decide

theorem defined_comm (left right : ValueKind) : defined left right = defined right left := by
  cases left <;> cases right <;> rfl

/-- Where values can be compared by `==`, they can be compared by `!=`. -/
theorem notEqual_mem_defined {left right : ValueKind} (h : .equal ∈ defined left right) :
    .notEqual ∈ defined left right := by
  revert h
  cases left <;> cases right <;> decide

theorem isNull_iff : value.isNull = true ↔ value = .null := by
  cases value <;> simp [Value.isNull]

theorem isNull_or_iff :
    (left.isNull || right.isNull) = true ↔ left = .null ∨ right = .null := by
  rw [Bool.or_eq_true, isNull_iff, isNull_iff]

/-- Nothing is defined where an operand is null. -/
theorem defined_of_null (h : left = .null ∨ right = .null) :
    defined left.kind right.kind = [] := by
  rcases h with rfl | rfl
  · rfl
  · cases left <;> rfl

/-- Values of different kinds can be joined and compared, and so can two of any other kind than
numbers and booleans. -/
theorem defined_of_others (hleft : left ≠ .null) (hright : right ≠ .null)
    (hnumbers : ∀ x y, left = .numeric x → right = .numeric y → False)
    (hbooleans : ∀ a b, left = .boolean a → right = .boolean b → False) :
    defined left.kind right.kind = [.add, .equal, .notEqual] := by
  cases left <;> cases right <;> simp_all [defined, Value.kind]

/-! ## 2. Where operators are defined -/

theorem isSome_onNumbers (x y : Float) :
    (operator.onNumbers x y).isSome ↔ operator ∈ defined .numeric .numeric := by
  rw [mem_defined_numeric_iff]
  cases operator <;> simp [onNumbers]

theorem isSome_onBooleans (a b : Bool) :
    (operator.onBooleans a b).isSome ↔ operator ∈ [.and, .or, .notEqual] := by
  cases operator <;> simp [onBooleans]

theorem isSome_onOthers (left right : Value) :
    (operator.onOthers left right).isSome ↔ operator ∈ [.add, .equal, .notEqual] := by
  cases operator <;> simp [onOthers]

/-- Two values that are not null are two numbers, two booleans or neither. -/
theorem isSome_result? (hleft : left ≠ .null) (hright : right ≠ .null) :
    (operator.result? left right).isSome ↔ operator ∈ defined left.kind right.kind := by
  unfold result?
  split
  next x y => exact isSome_onNumbers x y
  next a b => exact isSome_onBooleans a b
  next hnumbers hbooleans =>
    rw [isSome_onOthers, defined_of_others hleft hright hnumbers hbooleans]

theorem apply_of_null (h : left = .null ∨ right = .null) :
    operator.apply left right = .error (.nullOperand operator left.kind right.kind) := by
  rw [apply, if_pos (isNull_or_iff.mpr h)]

theorem apply_of_ne_null (h : ¬ (left = .null ∨ right = .null)) :
    operator.apply left right =
      match operator.result? left right with
      | some value => .ok value
      | none => .error (.unknownBinary operator left.kind right.kind) :=
  if_neg (isNull_or_iff.not.mpr h)

theorem apply_eq_ok_iff :
    (∃ value, operator.apply left right = .ok value) ↔
      operator ∈ defined left.kind right.kind := by
  by_cases hnull : left = .null ∨ right = .null
  · rw [apply_of_null hnull, defined_of_null hnull]
    exact iff_of_false (fun ⟨_, h⟩ => nomatch h) List.not_mem_nil
  · obtain ⟨hleft, hright⟩ := not_or.mp hnull
    rw [apply_of_ne_null hnull, ← isSome_result? hleft hright]
    cases operator.result? left right <;> simp

theorem apply_eq_nullOperand_iff :
    operator.apply left right = .error (.nullOperand operator left.kind right.kind) ↔
      left = .null ∨ right = .null := by
  refine ⟨fun h => ?_, apply_of_null⟩
  by_contra hnull
  rw [apply_of_ne_null hnull] at h
  split at h <;> cases h

theorem apply_eq_unknownBinary_iff :
    operator.apply left right = .error (.unknownBinary operator left.kind right.kind) ↔
      left ≠ .null ∧ right ≠ .null ∧ operator ∉ defined left.kind right.kind := by
  by_cases hnull : left = .null ∨ right = .null
  · rw [apply_of_null hnull]
    exact iff_of_false nofun fun ⟨hleft, hright, _⟩ => hnull.elim hleft hright
  · obtain ⟨hleft, hright⟩ := not_or.mp hnull
    rw [apply_of_ne_null hnull, ← isSome_result? hleft hright, and_iff_right hleft,
      and_iff_right hright]
    cases operator.result? left right <;> simp

/-! ## 3. Comparison -/

/-- Two booleans have no `==`. -/
theorem result?_equal (h : .equal ∈ defined left.kind right.kind) :
    result? .equal left right = some (.boolean (left.equals right)) := by
  unfold result?
  split
  next x y => rfl
  next a b =>
    have hundefined : .equal ∉ defined .boolean .boolean := by decide
    exact absurd h hundefined
  next => rfl

theorem result?_notEqual (left right : Value) :
    result? .notEqual left right = some (.boolean (!left.equals right)) := by
  cases left <;> cases right <;> rfl

theorem apply_of_result? (h : operator ∈ defined left.kind right.kind)
    (hresult : operator.result? left right = some value) :
    operator.apply left right = .ok value := by
  have hnull : ¬ (left = .null ∨ right = .null) := fun hnull => by
    rw [defined_of_null hnull] at h
    exact absurd h List.not_mem_nil
  rw [apply_of_ne_null hnull, hresult]

/-- Where `==` is defined, it is equality of values. -/
theorem apply_equal_eq_ok_iff :
    apply .equal left right = .ok value ↔
      .equal ∈ defined left.kind right.kind ∧ value = .boolean (left.equals right) := by
  constructor
  · intro h
    have hdefined := apply_eq_ok_iff.mp ⟨value, h⟩
    rw [apply_of_result? hdefined (result?_equal hdefined)] at h
    exact ⟨hdefined, (Except.ok.inj h).symm⟩
  · rintro ⟨hdefined, rfl⟩
    exact apply_of_result? hdefined (result?_equal hdefined)

/-- Where `!=` is defined, it is the negation of equality of values. -/
theorem apply_notEqual_eq_ok_iff :
    apply .notEqual left right = .ok value ↔
      .notEqual ∈ defined left.kind right.kind ∧ value = .boolean (!left.equals right) := by
  constructor
  · intro h
    have hdefined := apply_eq_ok_iff.mp ⟨value, h⟩
    rw [apply_of_result? hdefined (result?_notEqual left right)] at h
    exact ⟨hdefined, (Except.ok.inj h).symm⟩
  · rintro ⟨hdefined, rfl⟩
    exact apply_of_result? hdefined (result?_notEqual left right)

/-! ## 4. The whole table -/

/-- An operator fails for a null operand, gives a value for operands of the kinds in its table, and
is unknown for all others; the errors name the operator and both kinds. Where `==` gives a result,
`!=` gives the opposite one. Whatever `==` or `!=` gives, it gives the same for exchanged operands,
whether or not they are equal to themselves. -/
theorem apply_table :
    (∀ (operator : BinaryOperator) (left right : Value),
      (operator.apply left right = .error (.nullOperand operator left.kind right.kind) ↔
        left = .null ∨ right = .null) ∧
      ((∃ value, operator.apply left right = .ok value) ↔
        operator ∈ defined left.kind right.kind) ∧
      (operator.apply left right = .error (.unknownBinary operator left.kind right.kind) ↔
        left ≠ .null ∧ right ≠ .null ∧ operator ∉ defined left.kind right.kind)) ∧
    (∀ left right value : Value, apply .equal left right = .ok value →
      ∃ b, value = .boolean b ∧ apply .notEqual left right = .ok (.boolean !b)) ∧
    (∀ left right value : Value,
      (apply .equal left right = .ok value ↔ apply .equal right left = .ok value) ∧
      (apply .notEqual left right = .ok value ↔ apply .notEqual right left = .ok value)) := by
  refine ⟨fun operator left right => ?_, fun left right value h => ?_, fun left right value => ?_⟩
  · exact ⟨apply_eq_nullOperand_iff, apply_eq_ok_iff, apply_eq_unknownBinary_iff⟩
  · obtain ⟨hdefined, rfl⟩ := apply_equal_eq_ok_iff.mp h
    have hnotEqual := notEqual_mem_defined hdefined
    exact ⟨_, rfl, apply_notEqual_eq_ok_iff.mpr ⟨hnotEqual, rfl⟩⟩
  · constructor
    · rw [apply_equal_eq_ok_iff, apply_equal_eq_ok_iff, defined_comm, Value.equals_comm]
    · rw [apply_notEqual_eq_ok_iff, apply_notEqual_eq_ok_iff, defined_comm, Value.equals_comm]

/-- An object with a list in it that holds what is not a number differs from itself on both
sides. -/
theorem apply_table_nan :
    let value := Value.object [("a", .array [.numeric Number.nan, .null])]
    let other := Value.object [("a", .array [.numeric Number.nan, .bound (.string "x") .upper])]
    (apply .equal value value = .ok (.boolean false) ∧
        apply .notEqual value value = .ok (.boolean true)) ∧
      (apply .notEqual value other = .ok (.boolean true) ∧
        apply .notEqual other value = .ok (.boolean true)) ∧
      apply .equal value .null = .error (.nullOperand .equal .object .null) := by
  intro value other
  obtain ⟨hdefined, hnegates, hsymmetric⟩ := apply_table
  have hequal : apply .equal value value = .ok (.boolean false) := by
    have hdiffers : value.equals value = false := by decide +kernel
    exact congrArg (fun b => Except.ok (Value.boolean b)) hdiffers
  have hother : apply .notEqual value other = .ok (.boolean true) := by
    have hdiffers : value.equals other = false := by decide +kernel
    exact congrArg (fun b => Except.ok (Value.boolean (!b))) hdiffers
  obtain ⟨b, hb, hnotEqual⟩ := hnegates _ _ _ hequal
  cases hb
  exact ⟨⟨hequal, hnotEqual⟩, ⟨hother, (hsymmetric _ _ _).2.mp hother⟩,
    (hdefined .equal value .null).1.mpr (Or.inr rfl)⟩

end Templating.BinaryOperator
