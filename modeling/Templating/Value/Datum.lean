import Templating.Value.Json

/-!
# Host data

`Datum` is data as a host describes it while handing it over: scalars, options, sequences, maps,
records and the variants of a choice. `Datum.toValue` turns it into a runtime value. A variant
without a payload is its name, one with a payload is an object with a single field.

JSON data can be handed over as well; `Datum.ofJson` is the way it describes itself.
-/

namespace Templating

inductive Datum where
  | boolean (value : Bool)
  /-- An integer of at most 64 bits. -/
  | integer (value : Int)
  /-- An integer of 128 bits, with or without a sign. -/
  | wideInteger (signed : Bool)
  | float (value : Float)
  | character (value : Char)
  | string (value : String)
  | bytes (value : List UInt8)
  | absent
  | present (value : Datum)
  | unit
  | unitRecord
  | unitVariant (variant : String)
  | wrapper (value : Datum)
  | variant (variant : String) (value : Datum)
  | sequence (items : List Datum)
  | sequenceVariant (variant : String) (items : List Datum)
  | map (entries : List (Datum × Datum))
  /-- A map that gives a value before any key. -/
  | keylessMap (value : Datum)
  | record (fields : List (String × Datum))
  | recordVariant (variant : String) (fields : List (String × Datum))
  /-- Data that fails to describe itself. -/
  | failure (message : String)
  deriving Inhabited

/-- The text of a map's key. Scalars have their printed form. -/
def Value.keyText : Value → Except RuntimeError String
  | .string s => .ok s
  | .numeric x => .ok (Number.format x)
  | .boolean true => .ok "true"
  | .boolean false => .ok "false"
  | other => .error (.conversion (.keyKind other.kind))

namespace Datum

mutual

/-- The description of JSON data. -/
def ofJson : Json → Datum
  | .null => unit
  | .boolean b => boolean b
  | .integer n => integer n
  | .float x => float x
  | .string s => string s
  | .array items => sequence (ofJsonItems items)
  | .object members => map (ofJsonMembers members)

def ofJsonItems : List Json → List Datum
  | [] => []
  | item :: rest => ofJson item :: ofJsonItems rest

def ofJsonMembers : List (String × Json) → List (Datum × Datum)
  | [] => []
  | (name, json) :: rest => (string name, ofJson json) :: ofJsonMembers rest

end

/-- An object whose only field is a variant. -/
def tagged (variant : String) (value : Value) : Value := .object [(variant, value)]

mutual

def toValue : Datum → Except RuntimeError Value
  | boolean b => .ok (.boolean b)
  | integer n => .ok (.numeric (Number.ofInt n))
  | wideInteger signed =>
    .error (.conversion (.unsupportedType (if signed then "i128" else "u128")))
  | float x => .ok (.numeric x)
  | character c => .ok (.string (String.singleton c))
  | string s => .ok (.string s)
  | bytes value => .ok (.array (value.map fun byte => .numeric (Number.ofNat byte.toNat)))
  | absent => .ok .null
  | present value => value.toValue
  | unit => .ok .null
  | unitRecord => .ok .null
  | unitVariant name => .ok (.string name)
  | wrapper value => value.toValue
  | variant name value => do .ok (tagged name (← value.toValue))
  | sequence items => do .ok (.array (← itemValues items))
  | sequenceVariant name items => do .ok (tagged name (.array (← itemValues items)))
  | map entries => do .ok (.record (← entryValues entries))
  | keylessMap _ => .error (.conversion .valueBeforeKey)
  | record fields => do .ok (.record (← fieldValues fields))
  | recordVariant name fields => do .ok (tagged name (.record (← fieldValues fields)))
  | failure message => .error (.conversion (.reported message))

def itemValues : List Datum → Except RuntimeError (List Value)
  | [] => .ok []
  | item :: rest => do
    let value ← item.toValue
    .ok (value :: (← itemValues rest))

/-- The entries of a map. The key of an entry is converted before its value. -/
def entryValues : List (Datum × Datum) → Except RuntimeError (List (String × Value))
  | [] => .ok []
  | (key, value) :: rest => do
    let name ← (← key.toValue).keyText
    let value ← value.toValue
    .ok ((name, value) :: (← entryValues rest))

def fieldValues : List (String × Datum) → Except RuntimeError (List (String × Value))
  | [] => .ok []
  | (name, value) :: rest => do
    let value ← value.toValue
    .ok ((name, value) :: (← fieldValues rest))

end

end Datum

end Templating
