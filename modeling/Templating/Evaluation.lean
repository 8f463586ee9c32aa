import Templating.Scope
import Templating.Text.Blank
import Templating.Value.Members
import Templating.Value.Operators

/-!
# Evaluation of trees

Evaluating a node gives a value or fails, and may change bindings of the chain it runs in; bindings
that were changed before a failure stay changed. A block is a list of statements: they are evaluated
in order and the texts of their values are joined.

Native functions are given by a table, which is a parameter of the evaluation.
-/

namespace Templating

/-- A computation that reads and writes a chain and may fail. -/
abbrev Evaluation (α : Type) := ExceptT RuntimeError (StateM Chain) α

/-- Runs an evaluation. The chain comes back also when it fails. -/
def Evaluation.start {α : Type} (evaluation : Evaluation α) (chain : Chain) :
    Except RuntimeError α × Chain :=
  evaluation.run.run chain

/-- The native functions: what the one with a given identity does with its arguments, in the scope
it is called from. -/
abbrev Natives := Nat → List Value → Evaluation Value

/-- A table without functions. -/
def Natives.none : Natives := fun _ _ => pure .null

namespace Evaluation

/-- A result that does not depend on the chain. -/
def ofExcept {α : Type} (result : Except RuntimeError α) : Evaluation α := ExceptT.mk (pure result)

/-- Runs an evaluation in a new scope inside the current one and leaves that scope at the end, also
after a failure. -/
def inChild {α : Type} (evaluation : Evaluation α) : Evaluation α :=
  ExceptT.mk fun chain =>
    let (result, after) := evaluation.start chain.push
    (result, after.pop)

end Evaluation

/-- The name that an assignment or a loop binds. -/
def Node.target : Node → Except RuntimeError String
  | .identifier name => .ok name
  | other => .error (.invalidAssignmentTarget other.kind)

/-- The value of a numeric literal. Blanks around its source text do not matter. -/
def Numeral.value : Numeral → Except RuntimeError Value
  | .number x => .ok (.numeric x)
  | .text source =>
    match Number.parse? (Text.trim source) with
    | some x => .ok (.numeric x)
    | none => .error (.invalidLiteral source)

/-- What `loop` holds in pass `index` of `length`, counted from zero. -/
def loopState (index length : Nat) : Value :=
  .record [
    ("index", .numeric (Number.ofNat (index + 1))),
    ("index0", .numeric (Number.ofNat index)),
    ("first", .boolean (decide (index = 0))),
    ("last", .boolean (decide (index + 1 = length))),
    ("length", .numeric (Number.ofNat length))]

/-- One pass of a loop: `loop` and the loop variable are set, then the body runs. -/
def loopPass (name : String) (body : Evaluation String) (index length : Nat) (item : Value) :
    Evaluation String := do
  modify (·.set "loop" (loopState index length))
  modify (·.set name item)
  body

/-- The passes of a loop over the items that are left, from pass `index` on. -/
def loopPasses (name : String) (body : Evaluation String) (length : Nat) :
    Nat → List Value → Evaluation String
  | _, [] => pure ""
  | index, item :: rest => do
    let text ← loopPass name body index length item
    return text ++ (← loopPasses name body length (index + 1) rest)

/-- Calls a function. -/
def Value.call (natives : Natives) (callee : Value) (args : List Value) : Evaluation Value :=
  match callee with
  | .native _ identity => natives identity args
  | .bound receiver method => Evaluation.ofExcept (method.invoke receiver args)
  | other => throw (.notCallable other.kind)

mutual

def Node.evaluate (natives : Natives) : Node → Evaluation Value
  | .program body => return .string (← evaluateBlock natives body)
  | .set assignee value => do
    let name ← Evaluation.ofExcept assignee.target
    let value ← value.evaluate natives
    modify (·.set name value)
    return .null
  | .branch test body alternate => do
    match ← test.evaluate natives with
    | .boolean true => return .string (← evaluateBlock natives body)
    | .boolean false => return .string (← evaluateBlock natives alternate)
    | other => throw (.typeMismatch .condition other.kind)
  | .loop target iterable body => do
    let name ← Evaluation.ofExcept target.target
    match ← iterable.evaluate natives with
    | .array items =>
      return .string
        (← (loopPasses name (evaluateBlock natives body) items.length 0 items).inChild)
    | other => throw (.typeMismatch .iterable other.kind)
  | .numeric value => Evaluation.ofExcept value.value
  | .string value => return .string value
  | .boolean value => return .boolean value
  | .identifier name => return (← get).lookup name
  | .call callee args => do
    let args ← evaluateAll natives args
    let callee ← callee.evaluate natives
    callee.call natives args
  | .member object property computed => do
    let key ←
      match computed, property with
      | false, .identifier name => pure (Value.string name)
      | _, property => property.evaluate natives
    match key with
    | .string name => do
      let object ← object.evaluate natives
      Evaluation.ofExcept (object.member name)
    | other => throw (.typeMismatch .propertyKey other.kind)
  | .unary operator argument => do
    let operand ← argument.evaluate natives
    Evaluation.ofExcept (operator.apply operand)
  | .binary operator left right => do
    let left ← left.evaluate natives
    let right ← right.evaluate natives
    Evaluation.ofExcept (operator.apply left right)
  | .unknown => throw .unknownNode

/-- The joined texts of the statements of a block. -/
def evaluateBlock (natives : Natives) : List Node → Evaluation String
  | [] => return ""
  | statement :: rest => do
    let value ← statement.evaluate natives
    return value.print ++ (← evaluateBlock natives rest)

/-- The values of nodes from left to right. -/
def evaluateAll (natives : Natives) : List Node → Evaluation (List Value)
  | [] => return []
  | node :: rest => do
    let value ← node.evaluate natives
    return value :: (← evaluateAll natives rest)

end

/-- The text of a whole program. -/
def Node.render (natives : Natives) (program : Node) : Evaluation String :=
  return (← program.evaluate natives).print

end Templating
