import Templating.Proofs.Json.Reading
import Templating.Proofs.Number.Integers
import Templating.Proofs.Value.HandOver
import Templating.Proofs.Value.Observation
import Templating.Proofs.Value.RoundTrip

/-!
# The normal form of JSON data

Data that comes in and goes out again keeps its shape, its names and its strings. Its numbers have
become doubles on the way, so that they come back in one form: as integers if they are whole and of
a magnitude up to `2 ^ 53 - 1`, and as doubles otherwise. This is the normal form of the data.

* `Json.normal` is the normal form.
* `Json.Alike` says of two data that they are the same but for the form of numbers.
* `Json.IsKept` says of a number that it is in normal form, and `Json.numbers` are those in data.

Results:
1. `normal_eq_iff`: data is in normal form iff its numbers are.
2. `alike_normal`: normal forms are alike.
3. `toJson_ofJson`: what goes out is the normal form of what came in.
4. `toJson_ofJson_of_toJson`: what went out does not change any more.
5. `toJson_normalForm`: all of this for data.
-/

namespace Templating

/-! ## Definitions -/

namespace Json

mutual

/-- The data with its numbers in the form in which they go out. -/
def normal : Json → Json
  | .integer n => if n.natAbs ≤ Value.maxSafeInteger then .integer n else .float (Number.ofInt n)
  | .float x =>
    match Number.toInt? x with
    | some n => if n.natAbs ≤ Value.maxSafeInteger then .integer n else .float x
    | none => .float x
  | .array items => .array (normalItems items)
  | .object members => .object (normalMembers members)
  | json => json

def normalItems : List Json → List Json
  | [] => []
  | item :: rest => item.normal :: normalItems rest

def normalMembers : List (String × Json) → List (String × Json)
  | [] => []
  | (name, json) :: rest => (name, json.normal) :: normalMembers rest

end

mutual

/-- The numbers in the data, at any depth of arrays and objects. -/
def numbers : Json → List Json
  | .integer n => [.integer n]
  | .float x => [.float x]
  | .array items => numbersOfItems items
  | .object members => numbersOfMembers members
  | _ => []

def numbersOfItems : List Json → List Json
  | [] => []
  | item :: rest => item.numbers ++ numbersOfItems rest

def numbersOfMembers : List (String × Json) → List Json
  | [] => []
  | (_, json) :: rest => json.numbers ++ numbersOfMembers rest

end

/-- The number is an integer of a magnitude up to `2 ^ 53 - 1`, or a double that is not whole or
beyond this magnitude. -/
def IsKept : Json → Prop
  | .integer n => n.natAbs ≤ Value.maxSafeInteger
  | .float x => ∀ n, Number.toInt? x = some n → Value.maxSafeInteger < n.natAbs
  | _ => True

/-- The data has the same shape, the same names in the same order, the same strings and booleans, and
numbers whose doubles compare equal. -/
inductive Alike : Json → Json → Prop
  | null : Alike .null .null
  | boolean (b : Bool) : Alike (.boolean b) (.boolean b)
  | number {json other : Json} {x y : Float} : json.double? = some x → other.double? = some y →
      (x == y) = true → Alike json other
  | string (s : String) : Alike (.string s) (.string s)
  | array {items others : List Json} :
      List.Forall₂ Alike items others → Alike (.array items) (.array others)
  | object {members others : List (String × Json)} :
      members.map Prod.fst = others.map Prod.fst →
      List.Forall₂ Alike (members.map Prod.snd) (others.map Prod.snd) →
      Alike (.object members) (.object others)

/-! ## 1. Data in normal form -/

mutual

/-- Data is in normal form iff its numbers are. -/
theorem normal_eq_iff : ∀ json : Json,
    json.normal = json ↔ ∀ number ∈ json.numbers, number.IsKept
  | .null | .boolean _ | .string _ => iff_of_true rfl (List.forall_mem_nil _)
  | .integer n => by
    rw [normal, numbers, List.forall_mem_singleton, IsKept]
    split
    next hsmall => exact iff_of_true rfl hsmall
    next hlarge => exact iff_of_false nofun hlarge
  | .float x => by
    rw [normal, numbers, List.forall_mem_singleton, IsKept]
    split
    next n hn =>
      split
      next hsmall =>
        exact iff_of_false nofun fun h => absurd hsmall (Nat.not_le.mpr (h n hn))
      next hlarge =>
        refine iff_of_true rfl fun m hm => ?_
        obtain rfl := Option.some.inj (hn.symm.trans hm)
        exact Nat.not_le.mp hlarge
    next hnone => exact iff_of_true rfl fun n hn => nomatch hnone.symm.trans hn
  | .array items => by rw [normal, numbers, array.injEq, normalItems_eq_iff items]
  | .object members => by rw [normal, numbers, object.injEq, normalMembers_eq_iff members]

theorem normalItems_eq_iff : ∀ items : List Json,
    normalItems items = items ↔ ∀ number ∈ numbersOfItems items, number.IsKept
  | [] => iff_of_true rfl (List.forall_mem_nil _)
  | item :: rest => by
    rw [normalItems, numbersOfItems, List.cons_eq_cons, List.forall_mem_append,
      normal_eq_iff item, normalItems_eq_iff rest]

theorem normalMembers_eq_iff : ∀ members : List (String × Json),
    normalMembers members = members ↔ ∀ number ∈ numbersOfMembers members, number.IsKept
  | [] => iff_of_true rfl (List.forall_mem_nil _)
  | (name, json) :: rest => by
    rw [normalMembers, numbersOfMembers, List.cons_eq_cons, List.forall_mem_append, Prod.mk.injEq,
      normal_eq_iff json, normalMembers_eq_iff rest]
    simp only [true_and]

end

/-! ## 2. Alike data -/

theorem normalItems_eq_map (items : List Json) : normalItems items = items.map normal := by
  induction items with
  | nil => rfl
  | cons item rest ih => rw [normalItems, ih, List.map_cons]

theorem normalMembers_eq_map (members : List (String × Json)) :
    normalMembers members = members.map fun member => (member.1, member.2.normal) := by
  induction members with
  | nil => rfl
  | cons member rest ih => rw [normalMembers, ih, List.map_cons]

/-- The normal form of an integer is that of its double. -/
theorem normal_integer {n : Int} (h : n.natAbs < 2 ^ 64) :
    (integer n).normal = (float (Number.ofInt n)).normal := by
  have hmax : Value.maxSafeInteger + 1 = 2 ^ 53 := rfl
  rw [normal, normal]
  by_cases hn : n.natAbs ≤ Value.maxSafeInteger
  · have hexact : Number.toInt? (Number.ofInt n) = some n :=
      Number.isExact_of_fitsSignificand h (Number.fitsSignificand_of_le (by omega))
    rw [hexact, if_pos hn]
    exact (if_pos hn).symm
  · obtain ⟨m, hm, hlarge⟩ := Number.exists_toInt?_ofInt h (by omega)
    rw [hm, if_neg hn]
    exact (if_neg (by omega)).symm

theorem alike_normal_float {json : Json} {x : Float} (hx : json.double? = some x)
    (hfinite : x.isFinite = true) : json.Alike (float x).normal := by
  have hnumber := Number.isNaN_of_isFinite hfinite
  have hself : (x == x) = true := Number.beq_iff.mpr ⟨hnumber, rfl⟩
  rw [normal]
  split
  next n hn =>
    split
    next =>
      refine .number hx rfl ?_
      rw [Number.ofInt_of_toInt? hn, Number.beq_iff, Number.unsignZero_unsignZero]
      exact ⟨hnumber, rfl⟩
    next => exact .number hx rfl hself
  next => exact .number hx rfl hself

/-- Data is like its normal form. -/
theorem alike_normal {json : Json} (hexact : json.Exact) : json.Alike json.normal := by
  induction json using parts_induction with
  | null => exact .null
  | boolean b => exact .boolean b
  | string s => exact .string s
  | integer n =>
    rw [normal_integer (natAbs_lt_of_exact hexact)]
    exact alike_normal_float rfl (isFinite_ofInt hexact)
  | float x => exact alike_normal_float rfl (isFinite_of_exact hexact)
  | array items ih =>
    rw [exact_array_iff] at hexact
    rw [normal, normalItems_eq_map]
    refine .array (List.forall₂_map_right_iff.mpr (List.forall₂_same.mpr fun item hitem => ?_))
    exact ih item hitem (hexact item hitem)
  | object members ih =>
    rw [exact_object_iff] at hexact
    rw [normal, normalMembers_eq_map]
    refine .object (by simp only [List.map_map, Function.comp_def]) ?_
    rw [List.map_map, List.forall₂_map_left_iff, List.forall₂_map_right_iff, List.forall₂_same]
    exact fun member hmember => ih member hmember (hexact member hmember)

theorem Exact.canonical {json : Json} (h : json.Exact) : json.canonical.Exact := by
  induction json using parts_induction with
  | array items ih =>
    rw [exact_array_iff] at h
    rw [Json.canonical, canonicalItems_eq_map, exact_array_iff, List.forall_mem_map]
    exact fun item hitem => ih item hitem (h item hitem)
  | object members ih =>
    rw [exact_object_iff] at h
    rw [Json.canonical, canonicalMembers_eq_map, Fields.ofList_map, exact_object_iff,
      List.forall_mem_map]
    intro member hmember
    exact ih member (Fields.mem_ofList hmember) (h member (Fields.mem_ofList hmember))
  | _ => exact h

end Json

namespace Value

/-! ## 3. What goes out -/

section

variable {α : Type} {parts : List α} {value : α → Value} {json : α → Json}

theorem toJsonItems_map (h : ∀ part ∈ parts, (value part).toJson = .ok (json part)) :
    toJsonItems (parts.map value) = .ok (parts.map json) := by
  induction parts with
  | nil => rfl
  | cons part rest ih =>
    obtain ⟨hpart, hrest⟩ := List.forall_mem_cons.mp h
    rw [List.map_cons, toJsonItems, hpart, ih hrest]
    rfl

theorem toJsonFields_map (name : α → String)
    (h : ∀ part ∈ parts, (value part).toJson = .ok (json part)) :
    toJsonFields (parts.map fun part => (name part, value part)) =
      .ok (parts.map fun part => (name part, json part)) := by
  induction parts with
  | nil => rfl
  | cons part rest ih =>
    obtain ⟨hpart, hrest⟩ := List.forall_mem_cons.mp h
    rw [List.map_cons, toJsonFields, hpart, ih hrest]
    rfl

end

theorem numberToJson_of_isFinite {x : Float} (h : x.isFinite = true) :
    numberToJson x = .ok (Json.float x).normal := by
  rw [numberToJson, Json.normal]
  cases Number.toInt? x with
  | some n => exact (apply_ite Except.ok (n.natAbs ≤ maxSafeInteger) _ _).symm
  | none => exact if_pos h

/-- What goes out is the normal form of what came in. -/
theorem toJson_ofJson {json : Json} (hexact : json.Exact) :
    (ofJson json).toJson = .ok json.canonical.normal := by
  induction json using Json.parts_induction with
  | null | boolean | string => rfl
  | integer n =>
    have hcanonical : (Json.integer n).canonical = .integer n := rfl
    rw [hcanonical, Json.normal_integer (Json.natAbs_lt_of_exact hexact)]
    exact numberToJson_of_isFinite (Json.isFinite_ofInt hexact)
  | float x => exact numberToJson_of_isFinite (Json.isFinite_of_exact hexact)
  | array items ih =>
    rw [Json.exact_array_iff] at hexact
    rw [ofJson, ofJsonItems_eq_map, toJson,
      toJsonItems_map fun item hitem => ih item hitem (hexact item hitem), Json.canonical,
      Json.canonicalItems_eq_map, Json.normal, Json.normalItems_eq_map, List.map_map]
    rfl
  | object members ih =>
    rw [Json.exact_object_iff] at hexact
    have hmembers : ∀ member ∈ Fields.ofList members,
        (ofJson member.2).toJson = .ok member.2.canonical.normal := by
      intro member hmember
      exact ih member (Fields.mem_ofList hmember) (hexact member (Fields.mem_ofList hmember))
    rw [ofJson, record, ofJsonMembers_eq_map, Fields.ofList_map, toJson, toJsonFields_map _ hmembers,
      Json.canonical, Json.canonicalMembers_eq_map, Fields.ofList_map, Json.normal,
      Json.normalMembers_eq_map, List.map_map]
    rfl

/-! ## 4. What went out -/

theorem sorted_ofJson (json : Json) : (ofJson json).Sorted := by
  induction json using Json.parts_induction with
  | null | boolean | integer | float | string => exact sorted_of_leaf trivial
  | array items ih =>
    rw [ofJson, ofJsonItems_eq_map]
    exact sorted_array (List.forall_mem_map.mpr ih)
  | object members ih =>
    rw [ofJson, record, ofJsonMembers_eq_map]
    refine sorted_object (Fields.sorted_ofList _) fun field hfield => ?_
    obtain ⟨member, hmember, rfl⟩ := List.mem_map.mp (Fields.mem_ofList hfield)
    exact ih member hmember

/-- What went out comes in equal to the value that it was, so that it goes out as it is. -/
theorem toJson_ofJson_of_toJson {value : Value} (hsorted : value.Sorted) {json : Json}
    (h : value.toJson = .ok json) : (ofJson json).toJson = .ok json := by
  have hatoms := (failsAs_toJson value).exists_ok_iff.mp ⟨json, h⟩
  have hequal : (ofJson json).equals value = true := by
    rw [ofJson_of_toJson value json hsorted h]
    exact equals_unsigned value hatoms
  -- There are no functions in data, so it does not matter how they are named.
  have hvalue : value.Named fun _ => "" := named_of_isData (convertible_iff.mpr hatoms).1
  rw [toJson_eq_of_equals (named_of_isData (isData_ofJson json)) hvalue hequal, h]

/-! ## 5. The normal form -/

/-- JSON data comes in and goes out in normal form. This is like the data, with numbers that compare
equal, it comes in and goes out as it is, and it is the data itself iff the integers of the data are
of a magnitude up to `2 ^ 53 - 1` and its doubles are not whole or beyond this magnitude. -/
theorem toJson_normalForm {json : Json} (hexact : json.Exact) :
    ∃ value, fromJson json = .ok value ∧ value.toJson = .ok json.canonical.normal ∧
      json.canonical.Alike json.canonical.normal ∧
      (∃ again, fromJson json.canonical.normal = .ok again ∧
        again.toJson = .ok json.canonical.normal) ∧
      (json.canonical.normal = json.canonical ↔
        ∀ number ∈ json.canonical.numbers, number.IsKept) := by
  have hjson := toJson_ofJson hexact
  refine ⟨ofJson json, fromJson_eq json, hjson, ?alike, ?again, ?kept⟩
  case alike => exact Json.alike_normal hexact.canonical
  case again => exact ⟨_, fromJson_eq _, toJson_ofJson_of_toJson (sorted_ofJson json) hjson⟩
  case kept => exact Json.normal_eq_iff json.canonical

/-- The largest integer that is kept, the one after it, and two doubles that are whole. -/
theorem toJson_normalForm_boundary :
    let json := Json.object [("whole", .float (Number.ofInt 3)),
      ("list", .array [.integer (2 ^ 53 - 1), .integer (2 ^ 53), .float (Number.ofWord true 0)])]
    let normal := Json.object
      [("list", .array [.integer (2 ^ 53 - 1), .float (Number.ofInt (2 ^ 53)), .integer 0]),
        ("whole", .integer 3)]
    json.Exact ∧ json.canonical.Alike normal ∧
      ∃ value, fromJson json = .ok value ∧ value.toJson = .ok normal := by
  intro json normal
  have hthree : Number.toInt? (Number.ofInt 3) = some 3 := by decide +kernel
  have hcanonical : json.canonical = .object
      [("list", .array [.integer (2 ^ 53 - 1), .integer (2 ^ 53), .float (Number.ofWord true 0)]),
        ("whole", .float (Number.ofInt 3))] := rfl
  have hnormal : json.canonical.normal = normal := by
    simp [hcanonical, normal, Json.normal, Json.normalMembers, Json.normalItems, maxSafeInteger,
      hthree, Number.toInt?_minusZero]
  have hfloat : ∀ x : Float, x.isFinite = true → (Json.float x).Exact := fun _ hx => .float hx
  have hexact : json.Exact := by
    simp only [json, Json.exact_object_iff, Json.exact_array_iff, List.forall_mem_cons]
    refine ⟨hfloat _ (by decide +kernel), ⟨.integer ?_ ?_, .integer ?_ ?_,
      hfloat _ (by decide +kernel), List.forall_mem_nil _⟩, List.forall_mem_nil _⟩
    all_goals decide
  obtain ⟨value, hvalue, hjson, halike, -⟩ := toJson_normalForm hexact
  rw [hnormal] at hjson halike
  exact ⟨hexact, halike, value, hvalue, hjson⟩

end Value

end Templating
