import Templating.Node.Basic
import Templating.Value.Basic

/-!
# Why an evaluation fails

`RuntimeError` has one constructor for each cause. `RuntimeError.message` is its wording,
`RuntimeError.code` its stable code, `RuntimeError.tag` its dotted name and `RuntimeError.help?` an
advice that some causes come with.
-/

namespace Templating

/-- A place that takes values of one kind only. -/
inductive Place where
  | condition
  | iterable
  | propertyKey
  | receiver (method : Method)
  deriving DecidableEq, Repr

def Place.name : Place → String
  | .condition => "if condition"
  | .iterable => "for-loop iterable"
  | .propertyKey => "property key"
  | .receiver method => "receiver of `" ++ method.name ++ "`"

/-- The kind of value that a place takes. -/
def Place.kind : Place → ValueKind
  | .condition => .boolean
  | .iterable => .array
  | .propertyKey => .string
  | .receiver _ => .string

/-- Why a value cannot be passed between templates and their host. -/
inductive ConversionError where
  /-- JSON has no form for numbers that are not finite. -/
  | noJsonForm (number : Float)
  | functionToHost (name : String)
  /-- A key of a map has no text. -/
  | keyKind (kind : ValueKind)
  | valueBeforeKey
  | unsupportedType (type : String)
  /-- The host's own account of a failure. -/
  | reported (message : String)
  deriving DecidableEq

def ConversionError.message : ConversionError → String
  | .noJsonForm number => Number.Layout.signed.print number ++ " has no JSON form"
  | .functionToHost name => "function `" ++ name ++ "` cannot be passed to the host"
  | .keyKind kind => "map key must be a string, got " ++ kind.name
  | .valueBeforeKey => "map value serialized before its key"
  | .unsupportedType type => type ++ " is not supported"
  | .reported message => message

inductive RuntimeError where
  | duplicateDeclaration (name : String)
  | invalidAssignmentTarget (found : Kind)
  | typeMismatch (place : Place) (got : ValueKind)
  | nullOperand (operator : BinaryOperator) (left right : ValueKind)
  | unknownUnary (operator : UnaryOperator) (operand : ValueKind)
  | unknownBinary (operator : BinaryOperator) (left right : ValueKind)
  | notCallable (kind : ValueKind)
  | noSuchProperty (kind : ValueKind) (property : String)
  | unknownNode
  | conversion (error : ConversionError)
  | invalidLiteral (text : String)
  | arityMismatch (name : String) (expected got : Nat)
  | hostCall (name message : String)
  deriving DecidableEq

namespace RuntimeError

def message : RuntimeError → String
  | duplicateDeclaration name => "cannot redeclare variable `" ++ name ++ "` in the same scope"
  | invalidAssignmentTarget found =>
    "invalid assignment target: expected an identifier, got " ++ found.name
  | typeMismatch place got =>
    "type error: " ++ place.name ++ " must be " ++ place.kind.name ++ ", got " ++ got.name
  | nullOperand operator left right =>
    "cannot apply `" ++ operator.token ++ "` to " ++ left.name ++ " and " ++ right.name ++
      ": null operand"
  | unknownUnary operator operand =>
    "unknown operator `" ++ operator.token ++ "` for " ++ operand.name
  | unknownBinary operator left right =>
    "unknown operator `" ++ operator.token ++ "` for " ++ left.name ++ " and " ++ right.name
  | notCallable kind => "value of type " ++ kind.name ++ " is not callable"
  | noSuchProperty kind property => "no property `" ++ property ++ "` on " ++ kind.name
  | unknownNode => "unknown AST node type `" ++ Kind.unknown.name ++ "`"
  | conversion error => "cannot convert host value: " ++ error.message
  | invalidLiteral text => "invalid numeric literal `" ++ text ++ "`"
  | arityMismatch name expected got =>
    "`" ++ name ++ "` expects " ++ toString expected ++ " arguments, got " ++ toString got
  | hostCall name message => "host function `" ++ name ++ "` failed: " ++ message

def code : RuntimeError → String
  | duplicateDeclaration _ => "E5001"
  | invalidAssignmentTarget _ => "E5002"
  | typeMismatch .. => "E5003"
  | nullOperand .. => "E5004"
  | unknownUnary .. => "E5005"
  | unknownBinary .. => "E5005"
  | notCallable _ => "E5006"
  | noSuchProperty .. => "E5007"
  | unknownNode => "E5008"
  | conversion _ => "E5009"
  | invalidLiteral _ => "E5010"
  | arityMismatch .. => "E5011"
  | hostCall .. => "E5012"

def tag : RuntimeError → String
  | duplicateDeclaration _ => "stencil::duplicate_declaration"
  | invalidAssignmentTarget _ => "stencil::invalid_assignment_target"
  | typeMismatch .. => "stencil::type_error"
  | nullOperand .. => "stencil::null_operation"
  | unknownUnary .. => "stencil::unknown_operator"
  | unknownBinary .. => "stencil::unknown_operator"
  | notCallable _ => "stencil::not_callable"
  | noSuchProperty .. => "stencil::no_such_property"
  | unknownNode => "stencil::unknown_node"
  | conversion _ => "stencil::conversion_error"
  | invalidLiteral _ => "stencil::invalid_literal"
  | arityMismatch .. => "stencil::arity_mismatch"
  | hostCall .. => "stencil::host_call"

def help? : RuntimeError → Option String
  | duplicateDeclaration _ => some "each top-level binding may be injected only once"
  | invalidAssignmentTarget _ => some "only plain variable names can be assigned"
  | _ => none

end RuntimeError

end Templating
