import Templating.Config
import Templating.Proofs.Number.Comparison
import Templating.Proofs.Toml.Reading

/-!
# Printed configurations

A configuration is printed as a document with two tables, and reading this document gives it back.
There are two exceptions. The text of the globals may nest more deeply than is read, and a table in
them may be printed with the reserved name of date-times first.

* `Toml.nanFree`: whether a value has no float in it that is not a number.
* `Config.rereadable`: whether neither exception holds.

Results:
1. `equals_self`: a value without such floats is equal to itself.
2. `document_toToml`: what is printed is read as its two tables if it is within the limits of the
   reader, and refused otherwise.
3. `wellFormed_globals`: the globals that a text gives are well-formed. `globalsOf_printed`,
   `unreserved_of_globalsOf`: the globals that are read from what is printed.
4. `parse_of_lookup`: everything else in a document is passed over. `rereadable_of_nesting`: most
   configurations are rereadable. `reread_iff`: those and no others come back equal.
-/

namespace Templating

/-! ## Definitions -/

namespace Toml

mutual

/-- Whether all floats in a value are numbers. -/
def nanFree : Toml → Bool
  | float x => !x.isNaN
  | array items => nanFreeItems items
  | table fields => nanFreeFields fields
  | _ => true

def nanFreeItems : List Toml → Bool
  | [] => true
  | item :: rest => item.nanFree && nanFreeItems rest

def nanFreeFields : List (String × Toml) → Bool
  | [] => true
  | (_, value) :: rest => value.nanFree && nanFreeFields rest

end

end Toml

namespace Config

open Toml Reader

/-- The table that says how the rendered text is written. -/
def outputItem (config : Config) : Item :=
  .table .header [("trailing_newline", .scalar (.boolean config.trailingNewline))]

/-- The document that is printed of a configuration. -/
def printedEntries (config : Config) : Entries :=
  [("globals", (table config.globals).sectionItem), ("output", config.outputItem)]

/-- The sections of a configuration. -/
def printedSections (config : Config) : List PrintedSection :=
  sections ["globals"] false (table config.globals) ++
    [⟨headerText false ["output"],
      fieldTexts [("trailing_newline", .boolean config.trailingNewline)]⟩]

/-- Whether the text of a configuration is within the limits of the reader and no table in it begins
with the reserved name. The table of globals itself may, since it is never taken for a date-time. -/
def rereadable (config : Config) : Bool :=
  (table config.globals).fits 1 && unreservedFields true config.globals

end Config

/-! ## 1. Equality -/

namespace Toml

mutual

theorem equals_self : ∀ {value : Toml}, value.nanFree = true → value.equals value = true
  | string s, _ => beq_self_eq_true s
  | integer n, _ => beq_self_eq_true n
  | float x, h => by
    rw [nanFree, Bool.not_eq_true'] at h
    exact Number.beq_iff.mpr ⟨h, rfl⟩
  | boolean b, _ => beq_self_eq_true b
  | dateTime d, _ => beq_self_eq_true d
  | array items, h => equalItems_self h
  | table fields, h => equalFields_self h

theorem equalItems_self : ∀ {items : List Toml}, nanFreeItems items = true →
    equalItems items items = true
  | [], _ => rfl
  | item :: rest, h => by
    rw [nanFreeItems, Bool.and_eq_true] at h
    rw [equalItems, equals_self h.1, equalItems_self h.2, Bool.and_self]

theorem equalFields_self : ∀ {fields : List (String × Toml)}, nanFreeFields fields = true →
    equalFields fields fields = true
  | [], _ => rfl
  | (name, value) :: rest, h => by
    rw [nanFreeFields, Bool.and_eq_true] at h
    rw [equalFields, beq_self_eq_true, equals_self h.1, equalFields_self h.2, Bool.and_self,
      Bool.and_self]

end

end Toml

namespace Config

open Toml Reader

/-! ## 2. The printed document -/

theorem toList_toToml (config : Config) :
    config.toToml.toList = sectionsText config.printedSections :=
  String.toList_ofList

theorem gives_printedSections {config : Config} (h : (table config.globals).WellFormed) :
    Gives Draft.empty (bodyText config.printedSections)
      ((table config.globals).fits 1 = true) config.printedEntries := by
  have hread : SectionsRead (table config.globals) := (gives_sections h).1 rfl
  have hglobals := @hread Draft.empty [] [] [] id "globals" rfl (leads_root []) List.not_mem_nil
  rw [printedSections, bodyText, List.flatMap_append, List.flatMap_singleton]
  refine (hglobals.append fun next hnext => ?_).congr (and_iff_left trivial)
  have hnew : "output" ∉ [("globals", (table config.globals).sectionItem)].map Prod.fst := by
    simp
  have hsection := @gives_section next _ [] "output" false
    [("trailing_newline", Toml.boolean config.trailingNewline)] _
    (Draft.openTable_new hnext (leads_root _) hnew) rfl (Draft.close_table (leads_root _) _)
    (List.forall_mem_singleton.mpr (.scalar trivial)) (List.nodup_singleton _)
  have hfits : ([] : List String).length + 1 < limit ∧
      ∀ field ∈ [("trailing_newline", boolean config.trailingNewline)], field.2.nesting < limit :=
    ⟨by decide, List.forall_mem_singleton.mpr (Nat.zero_lt_succ _)⟩
  exact hsection.congr (iff_of_true hfits trivial)

/-- What is printed of a configuration is read as its two tables, if it is within the limits. -/
theorem document_toToml {config : Config} (h : (table config.globals).WellFormed) :
    ((table config.globals).fits 1 = true →
      document config.toToml.toList = .ok config.printedEntries) ∧
    (¬ (table config.globals).fits 1 = true →
      ∃ error, document config.toToml.toList = .error error) := by
  have hgives := gives_printedSections h
  have hparts : ∀ part ∈ config.printedSections, ∃ cs, part.header = '[' :: cs := by
    intro part hpart
    rcases List.mem_append.mp hpart with hpart | hpart
    · exact header_sections h part hpart
    · rw [List.mem_singleton.mp hpart]
      exact exists_headerText false ["output"]
  obtain ⟨part, parts, hcons⟩ : ∃ part parts, config.printedSections = part :: parts :=
    List.exists_cons_of_ne_nil (List.append_ne_nil_of_right_ne_nil _ (List.cons_ne_nil _ _))
  obtain ⟨cs, hheader⟩ := hparts part (hcons ▸ List.mem_cons_self)
  obtain ⟨more, htext⟩ : ∃ more, sectionsText config.printedSections = '[' :: more := by
    rw [hcons, sectionsText_cons, sectionText, hheader]
    exact ⟨_, rfl⟩
  have hbody : bodyText config.printedSections = '\n' :: '[' :: more := by
    rw [← htext, hcons, sectionsText_cons]
    rfl
  rw [toList_toToml, htext]
  exact document_of_gives (by decide) (hbody ▸ hgives)

/-! ## 3. Globals -/

theorem wellFormed_globals {text : String} {config : Config} (h : parse text = .ok config) :
    (table config.globals).WellFormed := by
  obtain ⟨entries, hentries, h⟩ := bind_eq_ok.mp h
  obtain ⟨globals, hglobals, h⟩ := bind_eq_ok.mp h
  obtain ⟨trailingNewline, -, h⟩ := bind_eq_ok.mp h
  obtain rfl := Except.ok.inj h
  dsimp only
  unfold globalsOf at hglobals
  split at hglobals
  · obtain rfl := Except.ok.inj hglobals
    exact .table .nil fun _ h => absurd h List.not_mem_nil
  · next origin inner hlookup =>
    obtain ⟨values, hvalues, hglobals⟩ := bind_eq_ok.mp hglobals
    obtain rfl := Except.ok.inj hglobals
    have hsound := ((sound_of_document hentries).lookup hlookup).entries
    exact wellFormed_ofList
      (fun entry hentry _ hvalue => wellFormed_of_toToml (hsound entry hentry) hvalue) hvalues
  · obtain rfl := Except.ok.inj hglobals
    exact .table (List.pairwise_singleton _ _) (List.forall_mem_singleton.mpr (.scalar trivial))
  · cases hglobals

section

variable {fields : List (String × Toml)}

theorem globalsOf_sectionItem (fields : List (String × Toml)) :
    globalsOf (some (table fields).sectionItem) =
      Item.entryValues ((printedFields true fields).map fun field =>
        (field.1, field.2.printedItem field.2.isSection)) >>= fun values =>
          .ok (Fields.ofList values) := by
  obtain ⟨origin, hitem⟩ := printedItem_table true fields
  have hsection : (table fields).sectionItem = (table fields).printedItem true := rfl
  rw [hsection, hitem]
  rfl

theorem finishesIf_field (h : (table fields).WellFormed) {field : String × Toml}
    (hfield : field ∈ fields) :
    FinishesIf (field.2.printedItem field.2.isSection) field.2
      (field.2.unreserved field.2.isSection = true) :=
  finishesIf_printed (h.field hfield) id

/-- The globals come back from their sections. -/
theorem globalsOf_printed (h : (table fields).WellFormed)
    (hunreserved : unreservedFields true fields = true) :
    globalsOf (some (table fields).sectionItem) = .ok fields := by
  have hperm := printedFields_perm true fields
  have hfields := unreservedFields_iff.mp hunreserved
  have hvalues := @entryValues_map (printedFields true fields)
    (fun value => value.printedItem value.isSection) fun field hfield =>
      (finishesIf_field h (hperm.mem_iff.mp hfield)).same (hfields field (hperm.mem_iff.mp hfield))
  rw [globalsOf_sectionItem, hvalues]
  exact congrArg Except.ok (h.sorted.ofList_perm hperm)

/-- If something equal comes back, no table was taken for a date-time. -/
theorem unreserved_of_globalsOf (h : (table fields).WellFormed) {others : List (String × Toml)}
    (hread : globalsOf (some (table fields).sectionItem) = .ok others)
    (hequal : equalFields others fields = true) : unreservedFields true fields = true := by
  rw [globalsOf_sectionItem] at hread
  obtain ⟨values, hvalues, hread⟩ := bind_eq_ok.mp hread
  obtain rfl := Except.ok.inj hread
  exact unreservedFields_iff.mpr (@equals_of_entryValues fields
    (fun value => value.printedItem value.isSection)
    (fun value => value.unreserved value.isSection = true) _ (printedFields_perm true fields)
    h.sorted.nodup (fun field hfield => finishesIf_field h hfield) _ hvalues hequal)

end

/-! ## 4. Configurations -/

/-- Nothing in a document counts but its two tables. -/
theorem parse_of_lookup {text other : String} {entries others : Entries} {config : Config}
    (h : parse text = .ok config) (hentries : document text.toList = .ok entries)
    (hothers : document other.toList = .ok others)
    (hlookup : ∀ name ∈ ["globals", "output"], others.lookup name = entries.lookup name) :
    parse other = .ok config := by
  rw [parse, hentries] at h
  obtain ⟨hglobals, houtput⟩ := List.forall_mem_cons.mp hlookup
  rw [parse, hothers, ← h]
  simp only [bind, Except.bind, hglobals, List.forall_mem_singleton.mp houtput]

/-- What is printed of a rereadable configuration is read as this configuration. -/
theorem parse_toToml {config : Config} (h : (table config.globals).WellFormed)
    (hreread : config.rereadable = true) : parse config.toToml = .ok config := by
  rw [rereadable, Bool.and_eq_true] at hreread
  have hglobals := globalsOf_printed h hreread.2
  rw [parse, (document_toToml h).1 hreread.1]
  simp only [bind, Except.bind, printedEntries, List.lookup, beq_self_eq_true, hglobals]
  rfl

/-- If what is printed of a configuration is read as an equal one, it is rereadable. -/
theorem rereadable_of_parse {config other : Config} (h : (table config.globals).WellFormed)
    (hparse : parse config.toToml = .ok other) (hequal : other.equals config = true) :
    config.rereadable = true := by
  by_cases hfits : (table config.globals).fits 1 = true
  · obtain ⟨entries, hentries, hparse⟩ := bind_eq_ok.mp hparse
    obtain rfl := Except.ok.inj (hentries.symm.trans ((document_toToml h).1 hfits))
    obtain ⟨globals, hglobals, hparse⟩ := bind_eq_ok.mp hparse
    obtain ⟨trailingNewline, -, hparse⟩ := bind_eq_ok.mp hparse
    obtain rfl := Except.ok.inj hparse
    rw [Config.equals, Bool.and_eq_true] at hequal
    rw [rereadable, hfits, Bool.true_and]
    exact unreserved_of_globalsOf h hglobals hequal.1
  · obtain ⟨error, herror⟩ := (document_toToml h).2 hfits
    rw [parse, herror] at hparse
    cases hparse

/-- Globals without the reserved name are rereadable if they are nested less deeply than `limit`. -/
theorem rereadable_of_nesting {config : Config}
    (hnesting : (table config.globals).nesting < limit)
    (hname : hasNameFields dateTimeName config.globals = false) : config.rereadable = true := by
  have hfits : (table config.globals).fits 1 = true := fits_of_nesting (by omega)
  rw [rereadable, hfits, unreservedFields_of_hasName hname, Bool.and_self]

end Config

end Templating
