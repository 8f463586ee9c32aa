import Templating.RuntimeError
import Templating.Text.Case

/-!
# Built-in members

Strings and arrays have a length, strings also have methods. Objects have no built-in members: what
is looked up in them are their fields.
-/

namespace Templating

/-- What a method makes of a text. -/
def Method.onText (method : Method) (text : String) : String :=
  match method with
  | .upper => Text.upper text
  | .lower => Text.lower text
  | .strip => Text.trim text
  | .title => Text.title text

/-- Calls a method. Methods take no arguments; their number is checked before the receiver. -/
def Method.invoke (method : Method) (receiver : Value) (args : List Value) :
    Except RuntimeError Value :=
  if args.length = 0 then
    match receiver with
    | .string text => .ok (.string (method.onText text))
    | other => .error (.typeMismatch (.receiver method) other.kind)
  else .error (.arityMismatch method.name 0 args.length)

def Method.all : List Method := [.upper, .lower, .strip, .title]

namespace Value

def builtinMember? (receiver : Value) (name : String) : Option Value :=
  match receiver with
  | string text =>
    if name = "length" then some (numeric (Number.ofNat text.length))
    else (Method.all.find? fun method => method.name == name).map (bound receiver)
  | array items => if name = "length" then some (numeric (Number.ofNat items.length)) else none
  | _ => none

/-- A member of a value: a field of an object, else a built-in member. -/
def member (value : Value) (name : String) : Except RuntimeError Value :=
  let field :=
    match value with
    | object fields => Fields.find? fields name
    | _ => none
  match field.or (value.builtinMember? name) with
  | some found => .ok found
  | none => .error (.noSuchProperty value.kind name)

end Value

end Templating
