import Templating.RuntimeError

/-!
# Operators

What an operator does depends on the kinds of its operands:

| operands | defined operators |
|---|---|
| a null among them | none |
| two numbers | arithmetic and comparison |
| two booleans | `and`, `or`, `!=` |
| any other two | `+` joins their texts, `==` and `!=` compare |
-/

namespace Templating

/-- The operators on numbers. Division and remainder by zero follow the rules of doubles. -/
def BinaryOperator.onNumbers (operator : BinaryOperator) (x y : Float) : Option Value :=
  match operator with
  | .add => some (.numeric (x + y))
  | .subtract => some (.numeric (x - y))
  | .multiply => some (.numeric (x * y))
  | .divide => some (.numeric (x / y))
  | .remainder => some (.numeric (Number.remainder x y))
  | .equal => some (.boolean (x == y))
  | .notEqual => some (.boolean (x != y))
  | .less => some (.boolean (decide (x < y)))
  | .lessOrEqual => some (.boolean (decide (x ≤ y)))
  | .greater => some (.boolean (decide (y < x)))
  | .greaterOrEqual => some (.boolean (decide (y ≤ x)))
  | .and | .or => none

def BinaryOperator.onBooleans (operator : BinaryOperator) (a b : Bool) : Option Value :=
  match operator with
  | .and => some (.boolean (a && b))
  | .or => some (.boolean (a || b))
  | .notEqual => some (.boolean (a != b))
  | _ => none

/-- The operators on two values that are neither two numbers nor two booleans. -/
def BinaryOperator.onOthers (operator : BinaryOperator) (left right : Value) : Option Value :=
  match operator with
  | .add => some (.string (left.print ++ right.print))
  | .equal => some (.boolean (left.equals right))
  | .notEqual => some (.boolean (!left.equals right))
  | _ => none

/-- The result of an operator on two values other than null, if it is defined for them. -/
def BinaryOperator.result? (operator : BinaryOperator) : Value → Value → Option Value
  | .numeric x, .numeric y => operator.onNumbers x y
  | .boolean a, .boolean b => operator.onBooleans a b
  | left, right => operator.onOthers left right

def BinaryOperator.apply (operator : BinaryOperator) (left right : Value) :
    Except RuntimeError Value :=
  if left.isNull || right.isNull then .error (.nullOperand operator left.kind right.kind)
  else
    match operator.result? left right with
    | some value => .ok value
    | none => .error (.unknownBinary operator left.kind right.kind)

/-- Negation of a truth value is defined for every operand, arithmetic negation for none. -/
def UnaryOperator.apply (operator : UnaryOperator) (operand : Value) : Except RuntimeError Value :=
  match operator with
  | .not => .ok (.boolean (!operand.isTruthy))
  | .negate => .error (.unknownUnary .negate operand.kind)

end Templating
