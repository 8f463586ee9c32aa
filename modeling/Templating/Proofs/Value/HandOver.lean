import Templating.Json.Printer
import Templating.Proofs.Value.Integers
import Templating.Renderer

/-!
# Handing data over

A host hands data over by describing it: scalars at once, sequences and records part by part, maps
by a key and a value in turn. The value is built while this goes on. JSON data can be handed over in
this way or be converted as a whole. Both ways give the same value, and none of the checks that are
made on them can fail.

* `MapBuilder` is what has been handed over of a map.
* `Datum.handOver` builds the value of data, call by call.
* `Value.fromJson` converts JSON data, with a check that numbers have doubles.

Results:
1. `MapBuilder.takeKey_bind_takeValue`: what a key and a value add to a map.
2. `handOver_eq`: what is built is the value of the data.
3. `fromJson_eq`, `json_ofJson`: the value of JSON data on both ways.
4. `handOver_json`: both ways agree.
-/

namespace Templating

/-! ## Definitions -/

/-- What has been handed over of a map: the fields so far, and the key that waits for its value. -/
structure MapBuilder where
  fields : List (String × Value)
  pending? : Option String

namespace MapBuilder

def empty : MapBuilder := ⟨[], none⟩

/-- A key comes. It takes the place of one that still waits. -/
def takeKey (builder : MapBuilder) (key : Value) : Except RuntimeError MapBuilder := do
  .ok { builder with pending? := some (← key.keyText) }

/-- A value comes. It is converted only if there is a key that waits for it. -/
def takeValue (builder : MapBuilder) (value : Except RuntimeError Value) :
    Except RuntimeError MapBuilder :=
  match builder.pending? with
  | some name => do .ok ⟨Fields.insert name (← value) builder.fields, none⟩
  | none => .error (.conversion .valueBeforeKey)

end MapBuilder

namespace Datum

mutual

/-- Builds the value of data while the data describes itself. -/
def handOver : Datum → Except RuntimeError Value
  | present value => value.handOver
  | wrapper value => value.handOver
  | variant name value => do .ok (.record [(name, ← value.handOver)])
  | sequence items => do .ok (.array (← handOverItems [] items))
  | sequenceVariant name items => do .ok (.record [(name, .array (← handOverItems [] items))])
  | map entries => do .ok (.object (← handOverEntries .empty entries).fields)
  | keylessMap value => do .ok (.object (← MapBuilder.empty.takeValue value.handOver).fields)
  | record fields => do .ok (.object (← handOverFields [] fields))
  | recordVariant name fields => do .ok (.record [(name, .object (← handOverFields [] fields))])
  | scalar => scalar.toValue

/-- Adds items to those that have been handed over. -/
def handOverItems : List Value → List Datum → Except RuntimeError (List Value)
  | items, [] => .ok items
  | items, item :: rest => do handOverItems (items ++ [← item.handOver]) rest

def handOverEntries : MapBuilder → List (Datum × Datum) → Except RuntimeError MapBuilder
  | builder, [] => .ok builder
  | builder, (key, value) :: rest => do
    let builder ← builder.takeKey (← key.handOver)
    handOverEntries (← builder.takeValue value.handOver) rest

def handOverFields : List (String × Value) → List (String × Datum) →
    Except RuntimeError (List (String × Value))
  | fields, [] => .ok fields
  | fields, (name, value) :: rest => do
    handOverFields (Fields.insert name (← value.handOver) fields) rest

end

end Datum

/-- The double of a JSON number. There is one for every number, however large it is. -/
def Json.double? : Json → Option Float
  | .integer n => some (Number.ofInt n)
  | .float x => some x
  | _ => none

namespace Value

mutual

/-- The value of JSON data, as long as each of its numbers has a double. -/
def fromJson : Json → Except RuntimeError Value
  | .null => .ok null
  | .boolean b => .ok (boolean b)
  | .string s => .ok (string s)
  | .array items => do .ok (array (← fromJsonItems items))
  | .object members => do .ok (record (← fromJsonMembers members))
  | number =>
    match number.double? with
    | some x => .ok (numeric x)
    | none =>
      .error (.conversion (.reported ("number " ++ number.print ++ " does not fit in f64")))

def fromJsonItems : List Json → Except RuntimeError (List Value)
  | [] => .ok []
  | item :: rest => do
    let item ← fromJson item
    .ok (item :: (← fromJsonItems rest))

def fromJsonMembers : List (String × Json) → Except RuntimeError (List (String × Value))
  | [] => .ok []
  | (name, json) :: rest => do
    let value ← fromJson json
    .ok ((name, value) :: (← fromJsonMembers rest))

end

end Value

/-! ## 1. Maps -/

/-- A key and a value add a field, whatever was waiting before. -/
theorem MapBuilder.takeKey_bind_takeValue (builder : MapBuilder) (key : Value)
    (value : Except RuntimeError Value) :
    builder.takeKey key >>= (·.takeValue value) =
      key.keyText >>= fun name =>
        value >>= fun value => .ok ⟨Fields.insert name value builder.fields, none⟩ := by
  rw [takeKey]
  cases key.keyText <;> rfl

/-! ## 2. Host data -/

namespace Datum

/-- An entry leaves a map without a key that waits, as long as it is converted. -/
theorem handOverEntries_cons (builder : MapBuilder) (key value : Datum)
    (rest : List (Datum × Datum)) :
    handOverEntries builder ((key, value) :: rest) =
      key.handOver >>= fun key => key.keyText >>= fun name => value.handOver >>= fun value =>
        handOverEntries ⟨Fields.insert name value builder.fields, none⟩ rest := by
  rw [handOverEntries]
  refine bind_congr fun key => ?_
  rw [← bind_assoc, MapBuilder.takeKey_bind_takeValue]
  simp only [bind_assoc]
  rfl

mutual

/-- What is built is the value of the data, or the error is the same. -/
theorem handOver_eq : ∀ datum : Datum, datum.handOver = datum.toValue
  | boolean _ | integer _ | wideInteger _ | float _ | character _ | string _ | bytes _ => rfl
  | absent | unit | unitRecord | unitVariant _ | keylessMap _ | failure _ => rfl
  | present value | wrapper value => by rw [handOver, toValue, handOver_eq value]
  | variant name value => by
    rw [handOver, toValue, handOver_eq value]
    rfl
  | sequence items => by
    rw [handOver, toValue, handOverItems_eq [] items]
    cases itemValues items <;> rfl
  | sequenceVariant name items => by
    rw [handOver, toValue, handOverItems_eq [] items]
    cases itemValues items <;> rfl
  | map entries => by
    rw [handOver, toValue, MapBuilder.empty, handOverEntries_eq [] entries]
    cases entryValues entries <;> rfl
  | record fields => by
    rw [handOver, toValue, handOverFields_eq [] fields]
    cases fieldValues fields <;> rfl
  | recordVariant name fields => by
    rw [handOver, toValue, handOverFields_eq [] fields]
    cases fieldValues fields <;> rfl

theorem handOverItems_eq : ∀ (built : List Value) (items : List Datum),
    handOverItems built items = (built ++ ·) <$> itemValues items
  | built, [] => by
    rw [handOverItems, itemValues]
    exact congrArg Except.ok (List.append_nil built).symm
  | built, item :: rest => by
    rw [handOverItems, itemValues, handOver_eq item]
    cases item.toValue with
    | error error => rfl
    | ok value =>
      have hrest := handOverItems_eq (built ++ [value]) rest
      simp only [bind, Except.bind, hrest]
      cases itemValues rest with
      | error error => rfl
      | ok values => exact congrArg Except.ok (List.append_assoc built [value] values)

/-- Between two entries no key waits. -/
theorem handOverEntries_eq : ∀ (fields : List (String × Value)) (entries : List (Datum × Datum)),
    handOverEntries ⟨fields, none⟩ entries =
      (fun added => ⟨Fields.insertAll fields added, none⟩) <$> entryValues entries
  | fields, [] => rfl
  | fields, (key, value) :: rest => by
    rw [handOverEntries_cons, entryValues, handOver_eq key, handOver_eq value]
    cases key.toValue with
    | error error => rfl
    | ok key =>
      cases hname : key.keyText with
      | error error => simp [bind, Except.bind, hname]
      | ok name =>
        cases value.toValue with
        | error error => simp [bind, Except.bind, hname]
        | ok value =>
          have hrest := handOverEntries_eq (Fields.insert name value fields) rest
          simp only [bind, Except.bind, hname, hrest]
          cases entryValues rest <;> rfl

theorem handOverFields_eq : ∀ (built : List (String × Value)) (fields : List (String × Datum)),
    handOverFields built fields = Fields.insertAll built <$> fieldValues fields
  | built, [] => rfl
  | built, (name, value) :: rest => by
    rw [handOverFields, fieldValues, handOver_eq value]
    cases value.toValue with
    | error error => rfl
    | ok value =>
      have hrest := handOverFields_eq (Fields.insert name value built) rest
      simp only [bind, Except.bind, hrest]
      cases fieldValues rest <;> rfl

end

end Datum

/-! ## 3. JSON data -/

namespace Value

mutual

/-- Every number has a double, so the check never fails. -/
theorem fromJson_eq : ∀ json : Json, fromJson json = .ok (ofJson json)
  | .null | .boolean _ | .string _ | .integer _ | .float _ => rfl
  | .array items => by
    rw [fromJson, fromJsonItems_eq items, ofJson]
    rfl
  | .object members => by
    rw [fromJson, fromJsonMembers_eq members, ofJson]
    rfl

theorem fromJsonItems_eq : ∀ items : List Json, fromJsonItems items = .ok (ofJsonItems items)
  | [] => rfl
  | item :: rest => by
    rw [fromJsonItems, fromJson_eq item, fromJsonItems_eq rest]
    rfl

theorem fromJsonMembers_eq : ∀ members : List (String × Json),
    fromJsonMembers members = .ok (ofJsonMembers members)
  | [] => rfl
  | (name, json) :: rest => by
    rw [fromJsonMembers, fromJson_eq json, fromJsonMembers_eq rest]
    rfl

end

end Value

namespace Datum

mutual

/-- JSON data describes itself: its names are keys, and no key is refused. -/
theorem json_ofJson : ∀ json : Json, (ofJson json).json = .ok json
  | .null | .boolean _ | .string _ | .integer _ | .float _ => rfl
  | .array items => by
    rw [ofJson, json, itemsJson_ofJsonItems items]
    rfl
  | .object members => by
    rw [ofJson, json, entriesJson_ofJsonMembers members]
    rfl

theorem itemsJson_ofJsonItems : ∀ items : List Json, itemsJson (ofJsonItems items) = .ok items
  | [] => rfl
  | item :: rest => by
    rw [ofJsonItems, itemsJson, json_ofJson item, itemsJson_ofJsonItems rest]
    rfl

theorem entriesJson_ofJsonMembers : ∀ members : List (String × Json),
    entriesJson (ofJsonMembers members) = .ok members
  | [] => rfl
  | (name, json) :: rest => by
    rw [ofJsonMembers, entriesJson, json_ofJson json, entriesJson_ofJsonMembers rest]
    rfl

end

theorem toValue_ofJson (json : Json) : (ofJson json).toValue = .ok (Value.ofJson json) := by
  rw [toValue_eq, json_ofJson]
  rfl

end Datum

/-! ## 4. Both ways -/

namespace Renderer

theorem insert_ofJson (renderer : Renderer) (name : String) (json : Json) :
    renderer.insert name (Datum.ofJson json) = .ok (renderer.insertJson name json) := by
  rw [insert, Datum.toValue_ofJson]
  rfl

/-- Members can be bound all at once or one by one. -/
theorem foldlM_insert_ofJson (renderer : Renderer) (members : List (String × Json)) :
    members.foldlM (fun renderer member => renderer.insert member.1 (Datum.ofJson member.2))
      renderer = .ok (renderer.insertAll members) := by
  induction members generalizing renderer with
  | nil => rfl
  | cons member rest ih =>
    rw [List.foldlM_cons, insert_ofJson]
    exact ih _

end Renderer

/-- JSON data becomes the same value whether it is converted as a whole, described and converted, or
built while it describes itself. None of this fails. So it does not matter on which way data is bound
to a name, nor whether members of an object are bound all at once or one by one. -/
theorem Value.handOver_json (json : Json) :
    fromJson json = .ok (ofJson json) ∧
    (Datum.ofJson json).toValue = .ok (ofJson json) ∧
    (Datum.ofJson json).handOver = .ok (ofJson json) ∧
    (∀ (renderer : Renderer) (name : String),
      renderer.insert name (Datum.ofJson json) = .ok (renderer.insertJson name json)) ∧
    (∀ (renderer : Renderer) (members : List (String × Json)),
      members.foldlM (fun renderer member => renderer.insert member.1 (Datum.ofJson member.2))
        renderer = .ok (renderer.insertAll members)) := by
  refine ⟨fromJson_eq json, Datum.toValue_ofJson json, ?_, ?_, ?_⟩
  · rw [Datum.handOver_eq, Datum.toValue_ofJson]
  · exact fun renderer name => renderer.insert_ofJson name json
  · exact fun renderer members => renderer.foldlM_insert_ofJson members

end Templating
