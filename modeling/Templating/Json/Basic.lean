import Templating.Fields
import Templating.Number.Layout
import Templating.Text.Quoted

/-!
# JSON values

A number is either an integer, as long as it fits 64 bits with or without a sign, or a double.
Objects keep their members in the order of the text they come from; `Json.canonical` sorts them and
keeps the last of several members of one name.
-/

namespace Templating

inductive Json where
  | null
  | boolean (value : Bool)
  | integer (value : Int)
  | float (value : Float)
  | string (value : String)
  | array (items : List Json)
  | object (members : List (String × Json))
  deriving Inhabited

namespace Json

/-- The largest integer without a sign. -/
def maxUnsigned : Int := 0xFFFFFFFFFFFFFFFF

/-- The least integer with a sign. -/
def minSigned : Int := -0x8000000000000000

mutual

/-- The value with the members of every object sorted by name, the last of equal names kept. -/
def canonical : Json → Json
  | .array items => .array (canonicalItems items)
  | .object members => .object (Fields.ofList (canonicalMembers members))
  | value => value

def canonicalItems : List Json → List Json
  | [] => []
  | item :: rest => item.canonical :: canonicalItems rest

def canonicalMembers : List (String × Json) → List (String × Json)
  | [] => []
  | (name, value) :: rest => (name, value.canonical) :: canonicalMembers rest

end

/-- What a value is called where something else was expected. -/
def describe : Json → String
  | .null => "null"
  | .boolean value => "boolean `" ++ (if value then "true" else "false") ++ "`"
  | .integer value => "integer `" ++ toString value ++ "`"
  | .float value => "floating point `" ++ Number.Layout.json.print value ++ "`"
  | .string value => "string " ++ Text.quote value
  | .array _ => "sequence"
  | .object _ => "map"

/-- The name of a value's kind. -/
def kindName : Json → String
  | .null => "null"
  | .boolean _ => "boolean"
  | .integer _ | .float _ => "number"
  | .string _ => "string"
  | .array _ => "array"
  | .object _ => "object"

end Json

end Templating
