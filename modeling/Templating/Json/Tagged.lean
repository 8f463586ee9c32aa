import Templating.Json.Printer

/-!
# JSON data with its number types shown

`Json.tagged` writes data so that integers and doubles can be told apart and the order of members is
explicit: an integer is an object with the member `int`, a double one with the member `float`, an
object one with the member `obj` that holds pairs of names and values.
-/

namespace Templating.Json

mutual

def tagged : Json → Json
  | .null => .null
  | .boolean b => .boolean b
  | .integer n => .object [("int", .string (toString n))]
  | .float x => .object [("float", .string (Number.Layout.signed.print x))]
  | .string s => .string s
  | .array items => .array (taggedItems items)
  | .object members => .object [("obj", .array (taggedMembers members))]

def taggedItems : List Json → List Json
  | [] => []
  | item :: rest => item.tagged :: taggedItems rest

def taggedMembers : List (String × Json) → List Json
  | [] => []
  | (name, value) :: rest => .array [.string name, value.tagged] :: taggedMembers rest

end

end Templating.Json
