import Templating.Fields
import Templating.Number.Layout

/-!
# Runtime values

Every node evaluates to a value. There are two kinds of functions: a native one is known by its
name and an identity, a bound method is a built-in method together with the value it was taken from.

* `Value.print` is the text that a value contributes to the output.
* `Value.isTruthy` is what `not` looks at, `Value.equals` what `==` computes.
-/

namespace Templating

/-- The methods that every string has. -/
inductive Method where
  | upper
  | lower
  | strip
  | title
  deriving DecidableEq, Repr

def Method.name : Method → String
  | .upper => "upper"
  | .lower => "lower"
  | .strip => "strip"
  | .title => "title"

inductive Value where
  | numeric (value : Float)
  | string (value : String)
  | boolean (value : Bool)
  /-- The fields are sorted by name. -/
  | object (fields : List (String × Value))
  | array (items : List Value)
  | native (name : String) (identity : Nat)
  | bound (receiver : Value) (method : Method)
  | null
  deriving Inhabited

inductive ValueKind where
  | numeric
  | string
  | boolean
  | object
  | array
  | function
  | null
  deriving DecidableEq, Repr

def ValueKind.name : ValueKind → String
  | .numeric => "Numeric"
  | .string => "String"
  | .boolean => "Boolean"
  | .object => "Object"
  | .array => "Array"
  | .function => "Function"
  | .null => "Null"

namespace Value

def kind : Value → ValueKind
  | numeric _ => .numeric
  | string _ => .string
  | boolean _ => .boolean
  | object _ => .object
  | array _ => .array
  | native .. => .function
  | bound .. => .function
  | null => .null

def isNull : Value → Bool
  | null => true
  | _ => false

/-- Zero, what is not a number, the empty string, false and null are not truthy. Containers and
functions always are. -/
def isTruthy : Value → Bool
  | numeric x => x != Number.ofNat 0 && !x.isNaN
  | string s => s != ""
  | boolean b => b
  | object _ => true
  | array _ => true
  | native .. => true
  | bound .. => true
  | null => false

/-- The object with the given fields. The last of several fields of one name counts. -/
def record (fields : List (String × Value)) : Value := object (Fields.ofList fields)

def string? : Value → Option String
  | string s => some s
  | _ => none

def number? : Value → Option Float
  | numeric x => some x
  | _ => none

mutual

/-- The text of a value in the output. The items of an array are separated by commas. -/
def print : Value → String
  | numeric x => Number.format x
  | string s => s
  | boolean true => "true"
  | boolean false => "false"
  | object _ => "[object Object]"
  | array items => printItems items
  | native name _ => "[function " ++ name ++ "]"
  | bound _ method => "[function " ++ method.name ++ "]"
  | null => ""

def printItems : List Value → String
  | [] => ""
  | [item] => item.print
  | item :: rest => item.print ++ "," ++ printItems rest

end

mutual

/-- Containers are equal if their parts are, numbers as numbers. A native function is equal to
itself only, a bound method to the same method of an equal receiver. -/
def equals : Value → Value → Bool
  | numeric x, numeric y => x == y
  | string s, string t => s == t
  | boolean a, boolean b => a == b
  | object fields, object others => equalFields fields others
  | array items, array others => equalItems items others
  | native _ identity, native _ other => identity == other
  | bound receiver method, bound other otherMethod =>
    method == otherMethod && receiver.equals other
  | null, null => true
  | _, _ => false

def equalItems : List Value → List Value → Bool
  | [], [] => true
  | item :: rest, other :: others => item.equals other && equalItems rest others
  | _, _ => false

def equalFields : List (String × Value) → List (String × Value) → Bool
  | [], [] => true
  | (name, value) :: rest, (otherName, other) :: others =>
    name == otherName && value.equals other && equalFields rest others
  | _, _ => false

end

end Value

end Templating
