import Templating.Proofs.Value.Functions
import Templating.Proofs.Value.Integers

/-!
# Keys that have no text

Host data has a value unless a key of one of its maps has no text. Such maps may be anywhere in the
data, also inside of other keys. What is wrong with the first such key is what the conversion fails
with.

* `Datum.Contains` are the parts of host data at any depth.
* `Datum.Ordinary` is data whose parts all belong to the data model: no integer is wider than 64
  bits, no value of a map comes before its key and nothing fails to describe itself.
* `Datum.keys` are the keys of all maps in the data, in the order in which they are handed over.
* `Datum.Unfit` are the keys without a text, and `Datum.KeyFault` says what is wrong with one.

Results:
1. `mem_keys_iff`: the keys in data are those of the maps that it contains.
2. `unfit_iff`: a key has a text iff it is a scalar or a variant without a payload.
3. `failsFirst_toValue`: the conversion of data fails with the fault of its first unfit key.
4. `toValue_refusals`: when a conversion fails, and what it gives otherwise.
-/

namespace Templating

namespace Datum

/-! ## Definitions -/

/-- The data right below data. The key of an entry comes before its value. -/
def parts : Datum → List Datum
  | present value | wrapper value | variant _ value | keylessMap value => [value]
  | sequence items | sequenceVariant _ items => items
  | map entries => entries.flatMap fun entry => [entry.1, entry.2]
  | record fields | recordVariant _ fields => fields.map Prod.snd
  | _ => []

/-- The second data is the first one, or it is inside a part of it. -/
inductive Contains : Datum → Datum → Prop
  | self (datum : Datum) : Contains datum datum
  | part {datum part inner : Datum} :
      part ∈ datum.parts → Contains part inner → Contains datum inner

/-- The data has a form that belongs to the data model. -/
def Regular : Datum → Prop
  | wideInteger _ | keylessMap _ | failure _ => False
  | _ => True

/-- All parts of the data belong to the data model. -/
def Ordinary (datum : Datum) : Prop := ∀ part, datum.Contains part → part.Regular

mutual

/-- The keys of all maps in the data, in the order in which they are handed over. -/
def keys : Datum → List Datum
  | present value | wrapper value | variant _ value | keylessMap value => value.keys
  | sequence items | sequenceVariant _ items => keysOfItems items
  | map entries => keysOfEntries entries
  | record fields | recordVariant _ fields => keysOfFields fields
  | _ => []

def keysOfItems : List Datum → List Datum
  | [] => []
  | item :: rest => item.keys ++ keysOfItems rest

def keysOfEntries : List (Datum × Datum) → List Datum
  | [] => []
  | (key, value) :: rest => key :: (key.keys ++ (value.keys ++ keysOfEntries rest))

def keysOfFields : List (String × Datum) → List Datum
  | [] => []
  | (_, value) :: rest => value.keys ++ keysOfFields rest

end

/-- The kinds of values without a text that data can have. -/
def unfitKinds : List ValueKind := [.null, .array, .object]

/-- As a key of a map, the data has no text: it has no value, or one of a kind without a text. -/
def Unfit (key : Datum) : Prop :=
  (∃ error, key.toValue = .error error) ∨ ∃ value, key.toValue = .ok value ∧ value.kind ∈ unfitKinds

/-- What is wrong with a key. -/
inductive KeyFault : Datum → ConversionError → Prop
  /-- The key is no data itself. -/
  | conversion {key : Datum} {cause : ConversionError} :
      key.toValue = .error (.conversion cause) → KeyFault key cause
  /-- The value of the key has no text. -/
  | kind {key : Datum} {value : Value} :
      key.toValue = .ok value → value.kind ∈ unfitKinds → KeyFault key (.keyKind value.kind)

/-- What is wrong with a key, if anything is. -/
def keyFault? (key : Datum) : Option ConversionError :=
  match key.toValue with
  | .error (.conversion cause) => some cause
  | .error _ => none
  | .ok value => if value.kind ∈ unfitKinds then some (.keyKind value.kind) else none

/-- The data is a scalar, a variant without a payload, or one of these inside of options and
wrappers. -/
def Scalar : Datum → Prop
  | boolean _ | integer _ | float _ | character _ | string _ | unitVariant _ => True
  | present value | wrapper value => value.Scalar
  | _ => False

/-! ## 1. Parts and keys -/

theorem sizeOf_lt_of_mem_parts {datum part : Datum} (h : part ∈ datum.parts) :
    sizeOf part < sizeOf datum := by
  cases datum with
  | present value | wrapper value | variant _ value | keylessMap value =>
    rw [parts, List.mem_singleton] at h
    subst h
    simp
  | sequence items | sequenceVariant _ items =>
    have hsmaller := List.sizeOf_lt_of_mem h
    simp only [parts] at hsmaller
    simp
    omega
  | map entries =>
    obtain ⟨⟨key, value⟩, hentry, hpart⟩ := List.mem_flatMap.mp h
    have hsmaller := List.sizeOf_lt_of_mem hentry
    simp at hpart hsmaller ⊢
    rcases hpart with rfl | rfl <;> omega
  | record fields | recordVariant _ fields =>
    obtain ⟨⟨name, value⟩, hfield, rfl⟩ := List.mem_map.mp h
    have hsmaller := List.sizeOf_lt_of_mem hfield
    simp at hsmaller ⊢
    omega
  | _ => cases h

/-- What holds of data as soon as it holds of its parts holds of all data. -/
@[elab_as_elim]
theorem parts_induction {motive : Datum → Prop}
    (step : ∀ datum, (∀ part ∈ datum.parts, motive part) → motive datum) (datum : Datum) :
    motive datum := by
  refine step datum fun part hpart => ?_
  have hsmaller := sizeOf_lt_of_mem_parts hpart
  exact parts_induction step part
termination_by datum

variable {datum other inner : Datum}

theorem Contains.trans (h : datum.Contains other) (hinner : other.Contains inner) :
    datum.Contains inner := by
  induction h with
  | self => exact hinner
  | part hpart _ ih => exact .part hpart (ih hinner)

theorem Ordinary.contained (h : datum.Ordinary) (hother : datum.Contains other) : other.Ordinary :=
  fun _ hinner => h _ (hother.trans hinner)

theorem Ordinary.of_mem_parts (h : datum.Ordinary) (hother : other ∈ datum.parts) :
    other.Ordinary :=
  h.contained (.part hother (.self other))

theorem ordinary_of_parts (hdatum : datum.Regular) (hparts : ∀ part ∈ datum.parts, part.Ordinary) :
    datum.Ordinary := by
  intro inner hinner
  cases hinner with
  | self => exact hdatum
  | part hpart hinner => exact hparts _ hpart inner hinner

theorem forall_mem_parts_map {entries : List (Datum × Datum)} {holds : Datum → Prop} :
    (∀ part ∈ (map entries).parts, holds part) ↔
      ∀ entry ∈ entries, holds entry.1 ∧ holds entry.2 := by
  rw [parts, List.forall_mem_flatMap]
  simp only [List.forall_mem_cons, List.not_mem_nil, false_imp_iff, implies_true, and_true]

theorem ordinary_leaf (hdatum : datum.Regular) (hparts : datum.parts = []) : datum.Ordinary := by
  refine ordinary_of_parts hdatum ?_
  rw [hparts]
  exact List.forall_mem_nil _

theorem keysOfItems_eq_flatMap (items : List Datum) : keysOfItems items = items.flatMap keys := by
  induction items with
  | nil => rfl
  | cons item rest ih => rw [keysOfItems, ih, List.flatMap_cons]

theorem keysOfEntries_eq_flatMap (entries : List (Datum × Datum)) :
    keysOfEntries entries =
      entries.flatMap fun entry => entry.1 :: (entry.1.keys ++ entry.2.keys) := by
  induction entries with
  | nil => rfl
  | cons entry rest ih =>
    rw [keysOfEntries, ih, List.flatMap_cons, List.cons_append, List.append_assoc]

theorem keysOfFields_eq_flatMap (fields : List (String × Datum)) :
    keysOfFields fields = fields.flatMap fun field => field.2.keys := by
  induction fields with
  | nil => rfl
  | cons field rest ih => rw [keysOfFields, ih, List.flatMap_cons]

variable {key : Datum}

/-- The keys in data are its own keys, if it is a map, and those in its parts. -/
theorem mem_keys_cases :
    key ∈ datum.keys ↔
      (∃ entries value, datum = map entries ∧ (key, value) ∈ entries) ∨
        ∃ part ∈ datum.parts, key ∈ part.keys := by
  cases datum with
  | map entries =>
    simp only [keys, parts, keysOfEntries_eq_flatMap, List.mem_flatMap, List.mem_cons,
      List.mem_append, List.not_mem_nil, or_false]
    constructor
    · rintro ⟨entry, hentry, rfl | hkey | hkey⟩
      · exact Or.inl ⟨entries, entry.2, rfl, hentry⟩
      · exact Or.inr ⟨entry.1, ⟨entry, hentry, Or.inl rfl⟩, hkey⟩
      · exact Or.inr ⟨entry.2, ⟨entry, hentry, Or.inr rfl⟩, hkey⟩
    · rintro (⟨_, value, ⟨⟩, hentry⟩ | ⟨part, ⟨entry, hentry, rfl | rfl⟩, hkey⟩)
      · exact ⟨(key, value), hentry, Or.inl rfl⟩
      · exact ⟨entry, hentry, Or.inr (Or.inl hkey)⟩
      · exact ⟨entry, hentry, Or.inr (Or.inr hkey)⟩
  | sequence items | sequenceVariant _ items => simp [keys, parts, keysOfItems_eq_flatMap]
  | record fields | recordVariant _ fields =>
    simp [keys, parts, keysOfFields_eq_flatMap, -Prod.exists]
  | _ => simp [keys, parts]

/-- The keys in data are those of the maps that it contains. -/
theorem mem_keys_iff :
    key ∈ datum.keys ↔
      ∃ entries value, datum.Contains (map entries) ∧ (key, value) ∈ entries := by
  induction datum using parts_induction with
  | step datum ih =>
    rw [mem_keys_cases]
    constructor
    · rintro (⟨entries, value, rfl, hentry⟩ | ⟨part, hpart, hkey⟩)
      · exact ⟨entries, value, .self _, hentry⟩
      · obtain ⟨entries, value, hmap, hentry⟩ := (ih part hpart).mp hkey
        exact ⟨entries, value, .part hpart hmap, hentry⟩
    · rintro ⟨entries, value, hmap, hentry⟩
      cases hmap with
      | self => exact Or.inl ⟨entries, value, rfl, hentry⟩
      | part hpart hmap => exact Or.inr ⟨_, hpart, (ih _ hpart).mpr ⟨entries, value, hmap, hentry⟩⟩

theorem Ordinary.of_mem_keys (h : datum.Ordinary) (hkey : key ∈ datum.keys) : key.Ordinary := by
  obtain ⟨entries, value, hmap, hentry⟩ := mem_keys_iff.mp hkey
  refine (h.contained hmap).of_mem_parts ?_
  exact List.mem_flatMap.mpr ⟨(key, value), hentry, List.mem_cons_self⟩

/-! ## 2. Unfit keys -/

/-- A container has a value of its kind, or none. -/
theorem unfit_of_bind {α : Type} {result : Except RuntimeError α} {build : α → Value}
    (hvalue : key.toValue = result >>= fun a => .ok (build a))
    (hkind : ∀ a, (build a).kind ∈ unfitKinds) : key.Unfit := by
  rw [Unfit, hvalue]
  cases result with
  | error error => exact Or.inl ⟨error, rfl⟩
  | ok a => exact Or.inr ⟨build a, rfl, hkind a⟩

theorem not_unfit_of_kind {value : Value} (hvalue : key.toValue = .ok value)
    (hkind : value.kind ∉ unfitKinds) : ¬ key.Unfit := by
  rintro (⟨error, herror⟩ | ⟨other, hother, hunfit⟩)
  · rw [hvalue] at herror
    cases herror
  · rw [hvalue] at hother
    cases hother
    exact hkind hunfit

/-- Only scalars and variants without a payload serve as keys. -/
theorem unfit_iff : key.Unfit ↔ ¬ key.Scalar := by
  induction key using parts_induction with
  | step key ih =>
    cases key with
    | boolean _ | integer _ | float _ | character _ | string _ | unitVariant _ =>
      refine iff_of_false (not_unfit_of_kind rfl ?_) (not_not_intro trivial)
      simp [unfitKinds, Value.kind]
    | present value | wrapper value =>
      have hvalue := ih value (List.mem_singleton_self value)
      simpa only [Unfit, toValue, Scalar] using hvalue
    | wideInteger _ | keylessMap _ | failure _ => exact iff_of_true (Or.inl ⟨_, rfl⟩) id
    | absent | unit | unitRecord | bytes _ =>
      exact iff_of_true (Or.inr ⟨_, rfl, by simp [unfitKinds, Value.kind]⟩) id
    | variant _ _ | sequence _ | sequenceVariant _ _ | map _ | record _ | recordVariant _ _ =>
      refine iff_of_true (unfit_of_bind (by rw [toValue]) fun _ => ?_) id
      simp [unfitKinds, Value.kind, Value.record, tagged]

theorem KeyFault.unfit {cause : ConversionError} (h : key.KeyFault cause) : key.Unfit := by
  cases h with
  | conversion hvalue => exact Or.inl ⟨_, hvalue⟩
  | kind hvalue hkind => exact Or.inr ⟨_, hvalue, hkind⟩

theorem keyFault?_eq_some_iff {cause : ConversionError} :
    key.keyFault? = some cause ↔ key.KeyFault cause := by
  constructor
  · intro h
    unfold keyFault? at h
    split at h
    next hvalue =>
      cases h
      exact .conversion hvalue
    next => cases h
    next hvalue =>
      obtain ⟨hkind, hcause⟩ := Option.ite_none_right_eq_some.mp h
      cases hcause
      exact .kind hvalue hkind
  · intro h
    cases h with
    | conversion hvalue => rw [keyFault?, hvalue]
    | kind hvalue hkind => simp [keyFault?, hvalue, hkind]

/-! ## 3. Failures -/

theorem keyText_eq_error_iff {value : Value} (hvalue : value.kind ≠ .function)
    {error : RuntimeError} :
    value.keyText = .error error ↔
      value.kind ∈ unfitKinds ∧ error = .conversion (.keyKind value.kind) := by
  cases value with
  | native _ _ | bound _ _ => exact absurd rfl hvalue
  | boolean b => cases b <;> simp [Value.keyText, Value.kind, unfitKinds]
  | _ => simp [Value.keyText, Value.kind, unfitKinds, eq_comm]

/-- Data has no functions in its value. -/
theorem isData_toValue {value : Value} (h : datum.toValue = .ok value) : value.IsData := by
  rw [toValue_eq] at h
  cases hjson : datum.json with
  | error error =>
    rw [hjson] at h
    cases h
  | ok json =>
    rw [hjson] at h
    cases h
    exact Value.isData_ofJson json

/-- A key fails by its own conversion, or because its value has no text. -/
theorem failsFirst_keyText (h : FailsFirst keyFault? key.toValue key.keys) :
    FailsFirst keyFault? (key.toValue >>= Value.keyText) [key] := by
  intro error
  rw [List.findSome?_singleton, bind_eq_error, keyFault?]
  cases hvalue : key.toValue with
  | error first =>
    obtain ⟨cause, -, rfl⟩ := (h first).mp hvalue
    simp [eq_comm]
  | ok value =>
    simp [keyText_eq_error_iff (isData_toValue hvalue value (.self value))]

theorem failsFirst_itemValues {items : List Datum}
    (h : ∀ item ∈ items, FailsFirst keyFault? item.toValue item.keys) :
    FailsFirst keyFault? (itemValues items) (keysOfItems items) := by
  induction items with
  | nil => exact .ok []
  | cons item rest ih =>
    obtain ⟨hitem, hrest⟩ := List.forall_mem_cons.mp h
    rw [itemValues, keysOfItems]
    exact hitem.bind fun _ _ => (ih hrest).map

theorem failsFirst_fieldValues {fields : List (String × Datum)}
    (h : ∀ field ∈ fields, FailsFirst keyFault? field.2.toValue field.2.keys) :
    FailsFirst keyFault? (fieldValues fields) (keysOfFields fields) := by
  induction fields with
  | nil => exact .ok []
  | cons field rest ih =>
    obtain ⟨hfield, hrest⟩ := List.forall_mem_cons.mp h
    rw [fieldValues, keysOfFields]
    exact hfield.bind fun _ _ => (ih hrest).map

/-- A key that has a text has no unfit keys inside of it. -/
theorem failsFirst_entryValues {entries : List (Datum × Datum)}
    (h : ∀ entry ∈ entries, FailsFirst keyFault? entry.1.toValue entry.1.keys ∧
      FailsFirst keyFault? entry.2.toValue entry.2.keys) :
    FailsFirst keyFault? (entryValues entries) (keysOfEntries entries) := by
  induction entries with
  | nil => exact .ok []
  | cons entry rest ih =>
    obtain ⟨⟨hkey, hvalue⟩, hrest⟩ := List.forall_mem_cons.mp h
    rw [entryValues, keysOfEntries, ← bind_assoc]
    refine (failsFirst_keyText hkey).bind fun name hname => ?_
    obtain ⟨value, hfirst, -⟩ := bind_eq_ok.mp hname
    have hinside := hkey.exists_ok_iff.mp ⟨value, hfirst⟩
    exact (hvalue.bind fun _ _ => (ih hrest).map).append_left hinside

/-- The conversion of data fails with the fault of its first unfit key. -/
theorem failsFirst_toValue (h : datum.Ordinary) :
    FailsFirst keyFault? datum.toValue datum.keys := by
  induction datum using parts_induction with
  | step datum ih =>
    have hparts : ∀ part ∈ datum.parts, FailsFirst keyFault? part.toValue part.keys :=
      fun part hpart => ih part hpart (h.of_mem_parts hpart)
    cases datum with
    | wideInteger _ | keylessMap _ | failure _ => exact (h _ (.self _)).elim
    | boolean _ | integer _ | float _ | character _ | string _ | bytes _ => exact .ok _
    | absent | unit | unitRecord | unitVariant _ => exact .ok _
    | present value | wrapper value => exact hparts value (List.mem_singleton_self value)
    | variant _ value => exact (hparts value (List.mem_singleton_self value)).map
    | sequence items | sequenceVariant _ items => exact (failsFirst_itemValues hparts).map
    | map entries => exact (failsFirst_entryValues (forall_mem_parts_map.mp hparts)).map
    | record fields | recordVariant _ fields =>
      exact (failsFirst_fieldValues (List.forall_mem_map.mp hparts)).map

/-- A key without a fault has a text. -/
theorem keyFault?_eq_none_iff (h : key.Ordinary) : key.keyFault? = none ↔ ¬ key.Unfit := by
  unfold keyFault? Unfit
  split
  next cause hvalue => simp [hvalue]
  next error hnot hvalue =>
    obtain ⟨cause, -, hcause⟩ := (failsFirst_toValue h error).mp hvalue
    exact absurd hcause (hnot cause)
  next value hvalue => simp [hvalue]

/-! ## 4. Refused data -/

/-- Data of the data model has no value iff a map in it has a key that has no value itself or none
with a text. The first such key, in the order in which keys are handed over, says what the
conversion fails with. Any other data has a value without functions. -/
theorem toValue_refusals (h : datum.Ordinary) :
    ((∃ error, datum.toValue = .error error) ↔
      ∃ entries, datum.Contains (map entries) ∧ ∃ entry ∈ entries, entry.1.Unfit) ∧
    (∀ error, datum.toValue = .error error →
      ∃ before key after cause, datum.keys = before ++ key :: after ∧
        (∀ other ∈ before, ¬ other.Unfit) ∧ key.KeyFault cause ∧ error = .conversion cause) ∧
    ∀ value, datum.toValue = .ok value → value.IsData := by
  have hfails := failsFirst_toValue h
  have hnone : ∀ key ∈ datum.keys, key.keyFault? = none ↔ ¬ key.Unfit :=
    fun key hkey => keyFault?_eq_none_iff (h.of_mem_keys hkey)
  refine ⟨?fails, fun error herror => ?first, fun value => isData_toValue⟩
  case fails =>
    constructor
    · rintro ⟨error, herror⟩
      obtain ⟨cause, hfirst, -⟩ := (hfails error).mp herror
      obtain ⟨key, hkey, hcause⟩ := List.exists_of_findSome?_eq_some hfirst
      obtain ⟨entries, value, hmap, hentry⟩ := mem_keys_iff.mp hkey
      exact ⟨entries, hmap, (key, value), hentry, (keyFault?_eq_some_iff.mp hcause).unfit⟩
    · rintro ⟨entries, hmap, ⟨key, value⟩, hentry, hunfit⟩
      have hkey := mem_keys_iff.mpr ⟨entries, value, hmap, hentry⟩
      cases hresult : datum.toValue with
      | error error => exact ⟨error, rfl⟩
      | ok converted =>
        have hkeys := hfails.exists_ok_iff.mp ⟨converted, hresult⟩
        exact absurd hunfit ((hnone key hkey).mp (hkeys key hkey))
  case first =>
    obtain ⟨cause, hfirst, rfl⟩ := (hfails error).mp herror
    obtain ⟨before, key, after, hkeys, hcause, hbefore⟩ := List.findSome?_eq_some_iff.mp hfirst
    refine ⟨before, key, after, cause, hkeys, fun other hother => ?_,
      keyFault?_eq_some_iff.mp hcause, rfl⟩
    have hmem : other ∈ datum.keys := by
      rw [hkeys]
      exact List.mem_append_left _ hother
    exact (hnone other hmem).mp (hbefore other hother)

/-- A variant with a payload is no key either, but before it comes a key with a map in it that has
an absent key. -/
theorem toValue_refusals_nested :
    let inner := sequence [map [(absent, boolean true)]]
    let entries := [(string "a", present (integer 1)), (inner, unit), (variant "c" unit, unit)]
    (map entries).Ordinary ∧ (variant "c" unit).Unfit ∧
      (∃ error, (map entries).toValue = .error error) ∧
      (map entries).toValue = .error (.conversion (.keyKind .null)) := by
  intro inner entries
  have hunit : unit.Ordinary := ordinary_leaf trivial rfl
  have hinner : inner.Ordinary := by
    refine ordinary_of_parts trivial (List.forall_mem_singleton.mpr ?_)
    refine ordinary_of_parts trivial (forall_mem_parts_map.mpr (List.forall_mem_singleton.mpr ?_))
    exact ⟨ordinary_leaf trivial rfl, ordinary_leaf trivial rfl⟩
  have hordinary : (map entries).Ordinary := by
    refine ordinary_of_parts trivial (forall_mem_parts_map.mpr ?_)
    refine List.forall_mem_cons.mpr ⟨⟨ordinary_leaf trivial rfl, ?_⟩, ?_⟩
    · exact ordinary_of_parts trivial (List.forall_mem_singleton.mpr (ordinary_leaf trivial rfl))
    · refine List.forall_mem_cons.mpr ⟨⟨hinner, hunit⟩, List.forall_mem_singleton.mpr ⟨?_, hunit⟩⟩
      exact ordinary_of_parts trivial (List.forall_mem_singleton.mpr hunit)
  have hunfit : (variant "c" unit).Unfit := unfit_iff.mpr id
  have hfailed := (toValue_refusals hordinary).1.mpr
    ⟨entries, .self _, (variant "c" unit, unit), by simp [entries], hunfit⟩
  exact ⟨hordinary, hunfit, hfailed, rfl⟩

end Datum

end Templating
