import Templating.Proofs.Number.Printing
import Templating.Proofs.Value.Integers

/-!
# Integer keys of maps

A map of host data becomes an object. A key that is an integer becomes a double first, and the
field has the text of this double for its name. Entries are lost where two keys become the same
double, and nowhere else.

* `Datum.integerMap` is a map whose keys are integers.
* `Datum.EntriesKept` says that each entry of such a map has a field of its own.

Results:
1. `toValue_integerMap`: the object that the map becomes.
2. `nodup_names_iff`: the names of its fields are distinct iff the doubles of the keys are;
   `nodup_ofInt`: those of keys that are equal to their doubles are distinct.
3. `integerKeys_kept_iff`: when no entry is lost.
-/

namespace Templating

open Number

namespace Datum

variable {entries : List (Int × Datum)} {value : Datum → Value}

/-! ## Definitions -/

/-- The map with the given entries. -/
def integerMap (entries : List (Int × Datum)) : Datum :=
  map (entries.map fun entry => (integer entry.1, entry.2))

/-- The name of the field that the entry of a key becomes. -/
def keyName (key : Int) : String := format (ofInt key)

/-- The fields that entries become, where values are converted by the given function. -/
def fieldsOf (value : Datum → Value) (entries : List (Int × Datum)) : List (String × Value) :=
  entries.map fun entry => (keyName entry.1, value entry.2)

/-- There are as many fields as entries, and under the key of each entry stands its value. -/
structure EntriesKept (value : Datum → Value) (entries : List (Int × Datum))
    (fields : List (String × Value)) : Prop where
  length_eq : fields.length = entries.length
  find : ∀ entry ∈ entries, Fields.find? fields (keyName entry.1) = some (value entry.2)

/-! ## 1. Objects of maps -/

theorem entryValues_integers (h : ∀ entry ∈ entries, entry.2.toValue = .ok (value entry.2)) :
    entryValues (entries.map fun entry => (integer entry.1, entry.2)) =
      .ok (fieldsOf value entries) := by
  induction entries with
  | nil => rfl
  | cons entry rest ih =>
    obtain ⟨hentry, hrest⟩ := List.forall_mem_cons.mp h
    rw [List.map_cons, entryValues, hentry, ih hrest]
    rfl

/-- Of several entries whose fields have the same name, the last counts. -/
theorem toValue_integerMap (h : ∀ entry ∈ entries, entry.2.toValue = .ok (value entry.2)) :
    (integerMap entries).toValue = .ok (.object (Fields.ofList (fieldsOf value entries))) := by
  rw [integerMap, toValue, entryValues_integers h]
  rfl

/-! ## 2. Names of fields -/

theorem names_fieldsOf (value : Datum → Value) (entries : List (Int × Datum)) :
    (fieldsOf value entries).map Prod.fst = entries.map fun entry => keyName entry.1 := by
  rw [fieldsOf, List.map_map]
  rfl

/-- Two keys have the same name only if they become the same double. -/
theorem nodup_names_iff (hrange : ∀ entry ∈ entries, entry.1.natAbs < 2 ^ 64) :
    ((fieldsOf value entries).map Prod.fst).Nodup ↔
      (entries.map fun entry => ofInt entry.1).Nodup := by
  rw [names_fieldsOf, List.Nodup, List.Nodup, List.pairwise_map, List.pairwise_map]
  exact List.Pairwise.iff_of_mem fun ha hb =>
    not_congr (format_ofInt_inj (hrange _ ha) (hrange _ hb))

/-- Keys that are equal to their doubles stay distinct. -/
theorem nodup_ofInt (hkeys : (entries.map Prod.fst).Nodup)
    (hexact : ∀ entry ∈ entries, IsExact entry.1) :
    (entries.map fun entry => ofInt entry.1).Nodup := by
  rw [List.Nodup, List.pairwise_map] at hkeys ⊢
  refine hkeys.imp_of_mem fun ha hb hne heq => hne ?_
  have hsame := congrArg toInt? heq
  rw [hexact _ ha, hexact _ hb] at hsame
  exact Option.some.inj hsame

/-! ## 3. Lost entries -/

/-- An entry is lost iff there is another one whose field has the same name. -/
theorem entriesKept_iff :
    EntriesKept value entries (Fields.ofList (fieldsOf value entries)) ↔
      ((fieldsOf value entries).map Prod.fst).Nodup := by
  have hlength : (fieldsOf value entries).length = entries.length := List.length_map _
  constructor
  · intro hkept
    rw [← Fields.length_ofList_eq_iff, hkept.length_eq, hlength]
  · intro hnodup
    refine ⟨?_, fun entry hentry => ?_⟩
    · rw [Fields.length_ofList_eq_iff.mpr hnodup, hlength]
    · rw [Fields.find?_ofList hnodup, Fields.find?_eq_some_iff hnodup]
      exact List.mem_map_of_mem hentry

/-- A map whose keys are integers of 64 bits becomes an object, as long as its values can be
converted. Its fields are those of entries, and every entry has one of its own iff the keys become
distinct doubles. So it is for distinct keys of at most 53 binary digits but for zeros at their
end. -/
theorem integerKeys_kept_iff
    (hrange : ∀ entry ∈ entries, Json.minSigned ≤ entry.1 ∧ entry.1 ≤ Json.maxUnsigned)
    (hvalues : ∀ entry ∈ entries, entry.2.toValue = .ok (value entry.2)) :
    ∃ fields, (integerMap entries).toValue = .ok (.object fields) ∧
      (∀ field ∈ fields, ∃ entry ∈ entries, field = (keyName entry.1, value entry.2)) ∧
      (EntriesKept value entries fields ↔ (entries.map fun entry => ofInt entry.1).Nodup) ∧
      ((entries.map Prod.fst).Nodup → (∀ entry ∈ entries, FitsSignificand entry.1) →
        EntriesKept value entries fields) := by
  have hsmall : ∀ entry ∈ entries, entry.1.natAbs < 2 ^ 64 :=
    fun entry hentry => Json.natAbs_lt_of_range (hrange entry hentry)
  have hkept : EntriesKept value entries (Fields.ofList (fieldsOf value entries)) ↔
      (entries.map fun entry => ofInt entry.1).Nodup :=
    entriesKept_iff.trans (nodup_names_iff hsmall)
  refine ⟨_, toValue_integerMap hvalues, ?_, hkept, fun hkeys hfits => ?_⟩
  · intro field hfield
    obtain ⟨entry, hentry, rfl⟩ := List.mem_map.mp (Fields.mem_ofList hfield)
    exact ⟨entry, hentry, rfl⟩
  · exact hkept.mpr (nodup_ofInt hkeys fun entry hentry =>
      isExact_of_fitsSignificand (hsmall entry hentry) (hfits entry hentry))

/-- Two even integers from `2 ^ 53` on and a negative one keep their entries. -/
theorem integerKeys_kept_even :
    let entries := [(2 ^ 53, string "a"), (-1, unit), (2 ^ 53 + 2, sequence [boolean true])]
    let value := fun datum => (toValue datum).toOption.getD .null
    (∀ entry ∈ entries, Json.minSigned ≤ entry.1 ∧ entry.1 ≤ Json.maxUnsigned) ∧
      (∀ entry ∈ entries, entry.2.toValue = .ok (value entry.2)) ∧
      ∃ fields, (integerMap entries).toValue = .ok (.object fields) ∧
        EntriesKept value entries fields := by
  intro entries value
  have hrange : ∀ entry ∈ entries, Json.minSigned ≤ entry.1 ∧ entry.1 ≤ Json.maxUnsigned := by
    simp only [entries, List.forall_mem_cons]
    decide
  have hvalues : ∀ entry ∈ entries, entry.2.toValue = .ok (value entry.2) := by
    simp only [entries, List.forall_mem_cons]
    exact ⟨rfl, rfl, rfl, List.forall_mem_nil _⟩
  have hfits : ∀ entry ∈ entries, FitsSignificand entry.1 := by
    simp only [entries, List.forall_mem_cons]
    exact ⟨fitsSignificand_of_le (by decide), fitsSignificand_of_le (by decide),
      ⟨2 ^ 52 + 1, 1, by decide, rfl⟩, List.forall_mem_nil _⟩
  obtain ⟨fields, hfields, -, -, hkept⟩ := integerKeys_kept_iff hrange hvalues
  exact ⟨hrange, hvalues, fields, hfields, hkept (by decide) hfits⟩

/-- The first integer after `2 ^ 53` takes the place of the one before it. -/
theorem integerKeys_merged :
    let entries := [(2 ^ 53, string "a"), (2 ^ 53 + 1, string "b")]
    (entries.map Prod.fst).Nodup ∧
      (∀ entry ∈ entries, Json.minSigned ≤ entry.1 ∧ entry.1 ≤ Json.maxUnsigned) ∧
      (integerMap entries).toValue = .ok (.object [("9007199254740992", .string "b")]) := by
  intro entries
  have hname : format (ofInt (2 ^ 53)) = "9007199254740992" := by decide +kernel
  refine ⟨by decide, ?_, ?_⟩
  · simp only [entries, List.forall_mem_cons]
    decide
  · have hfields : (integerMap entries).toValue = .ok (.record
        [(format (ofInt (2 ^ 53)), .string "a"), (format (ofInt (2 ^ 53 + 1)), .string "b")]) := rfl
    rw [hfields, ofInt_collapses, hname]
    rfl

end Datum

end Templating
