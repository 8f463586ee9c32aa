import Templating.Proofs.Fields
import Templating.Proofs.Number.Integers
import Templating.Proofs.Value.Json
import Templating.Value.Datum

/-!
# Integers on their way in

Data may have integers of 64 bits, a value has doubles. JSON data and host data become values in the
same way: host data describes JSON data, with every integer as it is, and has the value of the data
it describes. No integer is refused. One that is not equal to its double is rounded, and any other
stands for itself.

* `Value.Represents` says that a value is what some data says, taken literally.
* `Json.integers` are the integers in data.
* `Datum.json` is the data that host data describes.

Results:
1. `represents_ofJson_iff`: the value of data is what the data says iff all of its integers are
   exact.
2. `toValue_eq`: host data has the value of the data that it describes.
3. `integers_kept_iff`: what becomes of integers of 64 bits.
-/

namespace Templating

/-! ## Definitions -/

namespace Json

mutual

/-- The integers in the data, at any depth of arrays and objects. -/
def integers : Json → List Int
  | .integer n => [n]
  | .array items => integersOfItems items
  | .object members => integersOfMembers members
  | _ => []

def integersOfItems : List Json → List Int
  | [] => []
  | item :: rest => item.integers ++ integersOfItems rest

def integersOfMembers : List (String × Json) → List Int
  | [] => []
  | (_, value) :: rest => value.integers ++ integersOfMembers rest

end

end Json

namespace Value

/-- The value is what the data says: it has the same items and fields in the same order, and each
number in it is equal to the number in its place. -/
inductive Represents : Value → Json → Prop
  | null : Represents null .null
  | boolean (b : Bool) : Represents (boolean b) (.boolean b)
  | integer {x : Float} {n : Int} : Number.toInt? x = some n → Represents (numeric x) (.integer n)
  | float (x : Float) : Represents (numeric x) (.float x)
  | string (s : String) : Represents (string s) (.string s)
  | array {values : List Value} {items : List Json} :
      List.Forall₂ Represents values items → Represents (array values) (.array items)
  | object {fields : List (String × Value)} {members : List (String × Json)} :
      fields.map Prod.fst = members.map Prod.fst →
      List.Forall₂ Represents (fields.map Prod.snd) (members.map Prod.snd) →
      Represents (object fields) (.object members)

end Value

namespace Datum

mutual

/-- The JSON data that host data describes, with every integer as it is. -/
def json : Datum → Except RuntimeError Json
  | boolean b => .ok (.boolean b)
  | integer n => .ok (.integer n)
  | wideInteger signed =>
    .error (.conversion (.unsupportedType (if signed then "i128" else "u128")))
  | float x => .ok (.float x)
  | character c => .ok (.string (String.singleton c))
  | string s => .ok (.string s)
  | bytes value => .ok (.array (value.map fun byte => .integer byte.toNat))
  | absent => .ok .null
  | present value => value.json
  | unit => .ok .null
  | unitRecord => .ok .null
  | unitVariant name => .ok (.string name)
  | wrapper value => value.json
  | variant name value => do .ok (.object [(name, ← value.json)])
  | sequence items => do .ok (.array (← itemsJson items))
  | sequenceVariant name items => do .ok (.object [(name, .array (← itemsJson items))])
  | map entries => do .ok (.object (← entriesJson entries))
  | keylessMap _ => .error (.conversion .valueBeforeKey)
  | record fields => do .ok (.object (← fieldsJson fields))
  | recordVariant name fields => do .ok (.object [(name, .object (← fieldsJson fields))])
  | failure message => .error (.conversion (.reported message))

def itemsJson : List Datum → Except RuntimeError (List Json)
  | [] => .ok []
  | item :: rest => do
    let item ← item.json
    .ok (item :: (← itemsJson rest))

/-- The entries of a map, under the names that their keys have in a value. -/
def entriesJson : List (Datum × Datum) → Except RuntimeError (List (String × Json))
  | [] => .ok []
  | (key, value) :: rest => do
    let name ← (← key.toValue).keyText
    let value ← value.json
    .ok ((name, value) :: (← entriesJson rest))

def fieldsJson : List (String × Datum) → Except RuntimeError (List (String × Json))
  | [] => .ok []
  | (name, value) :: rest => do
    let value ← value.json
    .ok ((name, value) :: (← fieldsJson rest))

end

end Datum

/-! ## 1. JSON data -/

namespace Json

theorem integersOfItems_eq_flatMap (items : List Json) :
    integersOfItems items = items.flatMap integers := by
  induction items with
  | nil => rfl
  | cons item rest ih => rw [integersOfItems, ih, List.flatMap_cons]

theorem integersOfMembers_eq_flatMap (members : List (String × Json)) :
    integersOfMembers members = members.flatMap fun member => member.2.integers := by
  induction members with
  | nil => rfl
  | cons member rest ih => rw [integersOfMembers, ih, List.flatMap_cons]

theorem canonicalItems_eq_map (items : List Json) : canonicalItems items = items.map canonical := by
  induction items with
  | nil => rfl
  | cons item rest ih => rw [canonicalItems, ih, List.map_cons]

theorem canonicalMembers_eq_map (members : List (String × Json)) :
    canonicalMembers members = members.map fun member => (member.1, member.2.canonical) := by
  induction members with
  | nil => rfl
  | cons member rest ih => rw [canonicalMembers, ih, List.map_cons]

end Json

namespace Value

theorem forall₂_represents_map {α : Type} {parts : List α} {value : α → Value} {json : α → Json} :
    List.Forall₂ Represents (parts.map value) (parts.map json) ↔
      ∀ part ∈ parts, (value part).Represents (json part) := by
  rw [List.forall₂_map_left_iff, List.forall₂_map_right_iff, List.forall₂_same]

theorem represents_array_iff {items : List Json} :
    (ofJson (.array items)).Represents (Json.array items).canonical ↔
      ∀ item ∈ items, (ofJson item).Represents item.canonical := by
  rw [ofJson, ofJsonItems_eq_map, Json.canonical, Json.canonicalItems_eq_map,
    ← forall₂_represents_map]
  constructor
  · intro h
    cases h with
    | array h => exact h
  · exact .array

/-- Of several members of one name, the last counts on both sides. -/
theorem represents_object_iff {members : List (String × Json)} :
    (ofJson (.object members)).Represents (Json.object members).canonical ↔
      ∀ member ∈ Fields.ofList members, (ofJson member.2).Represents member.2.canonical := by
  rw [ofJson, record, ofJsonMembers_eq_map, Fields.ofList_map, Json.canonical,
    Json.canonicalMembers_eq_map, Fields.ofList_map, ← forall₂_represents_map]
  constructor
  · intro h
    cases h with
    | object _ h => simpa only [List.map_map, Function.comp_def] using h
  · intro h
    refine .object ?_ ?_
    · simp only [List.map_map, Function.comp_def]
    · simpa only [List.map_map, Function.comp_def] using h

/-- The value of data is what the data says iff all of its integers are exact. -/
theorem represents_ofJson_iff (json : Json) :
    (ofJson json).Represents json.canonical ↔
      ∀ n ∈ json.canonical.integers, Number.IsExact n := by
  induction json using Json.parts_induction with
  | null => exact ⟨fun _ n hn => absurd hn List.not_mem_nil, fun _ => .null⟩
  | boolean b => exact ⟨fun _ n hn => absurd hn List.not_mem_nil, fun _ => .boolean b⟩
  | float x => exact ⟨fun _ n hn => absurd hn List.not_mem_nil, fun _ => .float x⟩
  | string s => exact ⟨fun _ n hn => absurd hn List.not_mem_nil, fun _ => .string s⟩
  | integer n =>
    have hintegers : (Json.integer n).canonical.integers = [n] := rfl
    rw [hintegers, List.forall_mem_singleton]
    constructor
    · intro h
      cases h with
      | integer h => exact h
    · exact .integer
  | array items ih =>
    rw [represents_array_iff, Json.canonical, Json.integers, Json.integersOfItems_eq_flatMap,
      List.forall_mem_flatMap, Json.canonicalItems_eq_map, List.forall_mem_map]
    exact forall₂_congr ih
  | object members ih =>
    rw [represents_object_iff, Json.canonical, Json.integers, Json.integersOfMembers_eq_flatMap,
      List.forall_mem_flatMap, Json.canonicalMembers_eq_map, Fields.ofList_map, List.forall_mem_map]
    exact forall₂_congr fun member hmember => ih member (Fields.mem_ofList hmember)

end Value

/-! ## 2. Host data -/

namespace Datum

theorem ofJson_bytes (bytes : List UInt8) :
    Value.ofJson (.array (bytes.map fun byte => .integer byte.toNat)) =
      .array (bytes.map fun byte => .numeric (Number.ofNat byte.toNat)) := by
  rw [Value.ofJson, Value.ofJsonItems_eq_map, List.map_map]
  rfl

mutual

/-- Host data has the value of the data that it describes, or fails as its description does. -/
theorem toValue_eq : ∀ datum : Datum, datum.toValue = Value.ofJson <$> datum.json
  | boolean _ | integer _ | wideInteger _ | float _ | character _ | string _ => rfl
  | absent | unit | unitRecord | unitVariant _ | keylessMap _ | failure _ => rfl
  | bytes value => by
    rw [toValue, json, ← ofJson_bytes]
    rfl
  | present value | wrapper value => by rw [toValue, json, toValue_eq value]
  | variant name value => by
    rw [toValue, json, toValue_eq value]
    cases value.json <;> rfl
  | sequence items => by
    rw [toValue, json, itemValues_eq items]
    cases itemsJson items <;> rfl
  | sequenceVariant name items => by
    rw [toValue, json, itemValues_eq items]
    cases itemsJson items <;> rfl
  | map entries => by
    rw [toValue, json, entryValues_eq entries]
    cases entriesJson entries <;> rfl
  | record fields => by
    rw [toValue, json, fieldValues_eq fields]
    cases fieldsJson fields <;> rfl
  | recordVariant name fields => by
    rw [toValue, json, fieldValues_eq fields]
    cases fieldsJson fields <;> rfl

theorem itemValues_eq :
    ∀ items : List Datum, itemValues items = Value.ofJsonItems <$> itemsJson items
  | [] => rfl
  | item :: rest => by
    rw [itemValues, itemsJson, toValue_eq item, itemValues_eq rest]
    cases item.json with
    | error error => rfl
    | ok value => cases itemsJson rest <;> rfl

theorem entryValues_eq : ∀ entries : List (Datum × Datum),
    entryValues entries = Value.ofJsonMembers <$> entriesJson entries
  | [] => rfl
  | (key, value) :: rest => by
    rw [entryValues, entriesJson, toValue_eq value, entryValues_eq rest]
    cases key.toValue with
    | error error => rfl
    | ok key =>
      cases hname : key.keyText with
      | error error => simp [bind, Except.bind, hname]
      | ok name =>
        simp only [bind, Except.bind, hname]
        cases value.json with
        | error error => rfl
        | ok value => cases entriesJson rest <;> rfl

theorem fieldValues_eq : ∀ fields : List (String × Datum),
    fieldValues fields = Value.ofJsonMembers <$> fieldsJson fields
  | [] => rfl
  | (name, value) :: rest => by
    rw [fieldValues, fieldsJson, toValue_eq value, fieldValues_eq rest]
    cases value.json with
    | error error => rfl
    | ok value => cases fieldsJson rest <;> rfl

end

end Datum

/-! ## 3. Integers of 64 bits -/

theorem Json.natAbs_lt_of_range {n : Int} (h : minSigned ≤ n ∧ n ≤ maxUnsigned) :
    n.natAbs < 2 ^ 64 := by
  rw [minSigned, maxUnsigned] at h
  omega

namespace Value

/-- JSON data always has a value, and this is what the data says iff its integers have at most 53
binary digits but for zeros at their end. Host data has the value of the data that it describes. -/
theorem integers_kept_iff {json : Json}
    (hrange : ∀ n ∈ json.canonical.integers, Json.minSigned ≤ n ∧ n ≤ Json.maxUnsigned) :
    ((ofJson json).Represents json.canonical ↔
      ∀ n ∈ json.canonical.integers, Number.FitsSignificand n) ∧
    ∀ datum : Datum, datum.json = .ok json → datum.toValue = .ok (ofJson json) := by
  constructor
  · rw [represents_ofJson_iff]
    exact forall₂_congr fun n hn => Number.isExact_iff (Json.natAbs_lt_of_range (hrange n hn))
  · intro datum hdatum
    rw [datum.toValue_eq, hdatum]
    rfl

/-- The first integer after `2 ^ 53` is overwritten by another member of its name. -/
theorem integers_kept_overwritten :
    let json := Json.object
      [("a", .integer (2 ^ 53 + 1)), ("a", .array [.integer (2 ^ 63), .integer (-3)])]
    let datum := Datum.map [(.string "a", .integer (2 ^ 53 + 1)),
      (.character 'a', .present (.sequence [.integer (2 ^ 63), .wrapper (.integer (-3))]))]
    (∀ n ∈ json.canonical.integers, Json.minSigned ≤ n ∧ n ≤ Json.maxUnsigned) ∧
      (ofJson json).Represents json.canonical ∧ datum.json = .ok json ∧
      datum.toValue = .ok (ofJson json) := by
  intro json datum
  have hintegers : json.canonical.integers = [2 ^ 63, -3] := rfl
  have hrange : ∀ n ∈ json.canonical.integers, Json.minSigned ≤ n ∧ n ≤ Json.maxUnsigned := by
    rw [hintegers]
    decide
  have hdatum : datum.json = .ok json := rfl
  obtain ⟨hkept, hvalue⟩ := integers_kept_iff hrange
  refine ⟨hrange, hkept.mpr ?_, hdatum, hvalue datum hdatum⟩
  rw [hintegers, List.forall_mem_cons, List.forall_mem_singleton]
  exact ⟨⟨1, 63, by decide, rfl⟩, ⟨3, 0, by decide, rfl⟩⟩

/-- The first integer after `2 ^ 53` comes in as the one before it, on both ways. -/
theorem integer_rounded :
    Json.minSigned ≤ 2 ^ 53 + 1 ∧ 2 ^ 53 + 1 ≤ Json.maxUnsigned ∧
      ¬ (ofJson (.integer (2 ^ 53 + 1))).Represents (.integer (2 ^ 53 + 1)) ∧
      ofJson (.integer (2 ^ 53 + 1)) = ofJson (.integer (2 ^ 53)) ∧
      (Datum.integer (2 ^ 53 + 1)).toValue = .ok (ofJson (.integer (2 ^ 53))) := by
  have hrounded : ofJson (.integer (2 ^ 53 + 1)) = ofJson (.integer (2 ^ 53)) :=
    congrArg numeric Number.ofInt_collapses
  have hinexact : ¬ Number.IsExact (2 ^ 53 + 1) := by decide +kernel
  refine ⟨by decide, by decide, ?_, hrounded, congrArg Except.ok hrounded⟩
  intro h
  cases h with
  | integer h => exact hinexact h

end Value

end Templating
