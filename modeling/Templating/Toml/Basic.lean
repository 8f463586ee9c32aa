import Templating.Json.Basic
import Templating.Toml.DateTime

/-!
# TOML values

`Toml.toJson` is the JSON form of a value: a date-time becomes an object with a single member of a
reserved name that holds its text, a number that is not finite becomes null.
-/

namespace Templating

inductive Toml where
  | string (value : String)
  | integer (value : Int)
  | float (value : Float)
  | boolean (value : Bool)
  | dateTime (value : Toml.DateTime)
  | array (items : List Toml)
  /-- The fields are sorted by name. -/
  | table (fields : List (String × Toml))
  deriving Inhabited

namespace Toml

/-- The reserved name under which the text of a date-time stands where there are no date-times. -/
def dateTimeName : String := "$__toml_private_datetime"

def isTable : Toml → Bool
  | table _ => true
  | _ => false

mutual

def toJson : Toml → Json
  | string s => .string s
  | integer n => .integer n
  | float x => if x.isFinite then .float x else .null
  | boolean b => .boolean b
  | dateTime d => .object [(dateTimeName, .string d.print)]
  | array items => .array (itemsJson items)
  | table fields => .object (fieldsJson fields)

def itemsJson : List Toml → List Json
  | [] => []
  | item :: rest => item.toJson :: itemsJson rest

def fieldsJson : List (String × Toml) → List (String × Json)
  | [] => []
  | (name, value) :: rest => (name, value.toJson) :: fieldsJson rest

end

mutual

/-- Equality, with numbers compared as numbers. -/
def equals : Toml → Toml → Bool
  | string s, string t => s == t
  | integer m, integer n => m == n
  | float x, float y => x == y
  | boolean a, boolean b => a == b
  | dateTime d, dateTime e => d == e
  | array items, array others => equalItems items others
  | table fields, table others => equalFields fields others
  | _, _ => false

def equalItems : List Toml → List Toml → Bool
  | [], [] => true
  | item :: rest, other :: others => item.equals other && equalItems rest others
  | _, _ => false

def equalFields : List (String × Toml) → List (String × Toml) → Bool
  | [], [] => true
  | (name, value) :: rest, (otherName, other) :: others =>
    name == otherName && value.equals other && equalFields rest others
  | _, _ => false

end

end Toml

end Templating
