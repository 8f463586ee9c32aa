import Templating.Evaluation
import Templating.Json.Basic

/-!
# Values and JSON

Data comes in and goes out as JSON. Every JSON value has a runtime value, `Value.ofJson`; the way
back, `Value.toJson`, fails for functions and for numbers that are not finite. A host function is a
native function that takes and gives JSON.
-/

namespace Templating

namespace Value

mutual

/-- The runtime value of JSON data. Every number becomes the nearest double. -/
def ofJson : Json → Value
  | .null => null
  | .boolean b => boolean b
  | .integer n => numeric (Number.ofInt n)
  | .float x => numeric x
  | .string s => string s
  | .array items => array (ofJsonItems items)
  | .object members => record (ofJsonMembers members)

def ofJsonItems : List Json → List Value
  | [] => []
  | item :: rest => ofJson item :: ofJsonItems rest

def ofJsonMembers : List (String × Json) → List (String × Value)
  | [] => []
  | (name, json) :: rest => (name, ofJson json) :: ofJsonMembers rest

end

/-- Whole numbers up to this magnitude are written as integers. -/
def maxSafeInteger : Nat := 0x1FFFFFFFFFFFFF

/-- The JSON number of a double. -/
def numberToJson (x : Float) : Except RuntimeError Json :=
  match Number.toInt? x with
  | some n => if n.natAbs ≤ maxSafeInteger then .ok (.integer n) else .ok (.float x)
  | none => if x.isFinite then .ok (.float x) else .error (.conversion (.noJsonForm x))

mutual

/-- The JSON form of a value. The first part without one is reported. -/
def toJson : Value → Except RuntimeError Json
  | null => .ok .null
  | boolean b => .ok (.boolean b)
  | numeric x => numberToJson x
  | string s => .ok (.string s)
  | array items => do .ok (.array (← toJsonItems items))
  | object fields => do .ok (.object (← toJsonFields fields))
  | native name _ => .error (.conversion (.functionToHost name))
  | bound _ method => .error (.conversion (.functionToHost method.name))

def toJsonItems : List Value → Except RuntimeError (List Json)
  | [] => .ok []
  | item :: rest => do
    let json ← toJson item
    .ok (json :: (← toJsonItems rest))

def toJsonFields : List (String × Value) → Except RuntimeError (List (String × Json))
  | [] => .ok []
  | (name, value) :: rest => do
    let json ← toJson value
    .ok ((name, json) :: (← toJsonFields rest))

end

end Value

/-- A function of the host: it gives JSON, or nothing, or fails with a message. -/
abbrev HostFunction := List Json → Except String (Option Json)

/-- What a host function does as a native one. It is called only if all arguments have a JSON
form; no result is null. -/
def HostFunction.run (function : HostFunction) (name : String) (args : List Value) :
    Except RuntimeError Value := do
  let args ← Value.toJsonItems args
  match function args with
  | .ok (some json) => .ok (Value.ofJson json)
  | .ok none => .ok .null
  | .error message => .error (.hostCall name message)

end Templating
