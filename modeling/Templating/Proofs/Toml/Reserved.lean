import Templating.Proofs.Contract
import Templating.Proofs.Toml.Sections

/-!
# The reserved name of date-times

A table whose first entry has the reserved name of date-times is finished as a date-time, not as a
table. Entries are printed in the order of their names, lines before sections, so a table can come
to begin with this name although it did not where it was read from.

* `Toml.unreserved`: whether no table in a value is printed so.
* `Toml.hasName`: whether a name occurs in a value at all.
* `Toml.printedItem`: what a value is read as, from sections or from the right of an equals sign.

Results:
1. `entryValues_map`, `equals_of_entryValues`: the entries of a table are finished one by one.
2. `finishesIf_table`: a table is finished as itself if it does not begin with the reserved name and
   its fields are. Otherwise it is not finished as an equal one.
3. `unreserved_of_hasName`: a value in which the name does not occur is unreserved.
   `finishesIf_printed`: a printed value is finished as itself if and only if it is unreserved.
-/

namespace Templating.Toml

/-! ## Definitions -/

/-- The fields of a table in the order in which they are printed. -/
def printedFields (asSections : Bool) (fields : List (String × Toml)) : List (String × Toml) :=
  if asSections then lineFields fields ++ sectionFields fields else fields

mutual

/-- Whether no table in a value is printed with the reserved name of date-times first. -/
def unreserved : Bool → Toml → Bool
  | asSections, table fields =>
    (printedFields asSections fields).head?.map Prod.fst != some dateTimeName &&
      unreservedFields asSections fields
  | asSections, array items => unreservedItems asSections items
  | _, _ => true

def unreservedFields : Bool → List (String × Toml) → Bool
  | _, [] => true
  | asSections, (_, value) :: rest =>
    value.unreserved (asSections && value.isSection) && unreservedFields asSections rest

def unreservedItems : Bool → List Toml → Bool
  | _, [] => true
  | asSections, item :: rest => item.unreserved asSections && unreservedItems asSections rest

end

mutual

/-- Whether a table in a value has a field of this name. -/
def hasName (name : String) : Toml → Bool
  | table fields => hasNameFields name fields
  | array items => hasNameItems name items
  | _ => false

def hasNameFields (name : String) : List (String × Toml) → Bool
  | [] => false
  | (other, value) :: rest => other == name || value.hasName name || hasNameFields name rest

def hasNameItems (name : String) : List Toml → Bool
  | [] => false
  | item :: rest => item.hasName name || hasNameItems name rest

end

/-- What a value is read as, from sections or from the right of an equals sign. -/
def printedItem (asSections : Bool) (value : Toml) : Item :=
  if asSections then value.sectionItem else value.item

/-- A value is finished as itself under a condition, and otherwise not as an equal one. -/
structure FinishesIf (item : Item) (value : Toml) (p : Prop) : Prop where
  same (h : p) : item.toToml = .ok value
  other {result : Toml} (h : item.toToml = .ok result) (hequal : result.equals value = true) : p

/-! ## 1. Entries -/

section

variable {fields : List (String × Toml)} {shown : Toml → Item} {good : Toml → Prop}

theorem entryValues_map (h : ∀ field ∈ fields, (shown field.2).toToml = .ok field.2) :
    Item.entryValues (fields.map fun field => (field.1, shown field.2)) = .ok fields := by
  induction fields with
  | nil => rfl
  | cons field fields ih =>
    rw [List.map_cons, Item.entryValues, h field List.mem_cons_self,
      ih fun other hother => h other (List.mem_cons_of_mem _ hother)]
    rfl

/-- What has been finished comes from an entry of its name. -/
theorem exists_of_entryValues {entries : Entries} {values : List (String × Toml)}
    (h : Item.entryValues entries = .ok values) {value : String × Toml} (hvalue : value ∈ values) :
    ∃ entry ∈ entries, entry.1 = value.1 ∧ entry.2.toToml = .ok value.2 := by
  induction entries generalizing values with
  | nil =>
    obtain rfl := Except.ok.inj h
    exact absurd hvalue List.not_mem_nil
  | cons entry entries ih =>
    obtain ⟨name, item⟩ := entry
    rw [Item.entryValues] at h
    obtain ⟨first, hfirst, h⟩ := bind_eq_ok.mp h
    obtain ⟨rest, hrest, h⟩ := bind_eq_ok.mp h
    obtain rfl := Except.ok.inj h
    rcases List.mem_cons.mp hvalue with rfl | hvalue
    · exact ⟨(name, item), List.mem_cons_self, rfl, hfirst⟩
    · obtain ⟨entry, hentry, heq⟩ := ih hrest hvalue
      exact ⟨entry, List.mem_cons_of_mem _ hentry, heq⟩

theorem exists_of_equalFields {others : List (String × Toml)} (h : equalFields others fields = true)
    {field : String × Toml} (hfield : field ∈ fields) :
    ∃ other ∈ others, other.1 = field.1 ∧ other.2.equals field.2 = true := by
  induction fields generalizing others with
  | nil => exact absurd hfield List.not_mem_nil
  | cons first fields ih =>
    cases others with
    | nil => cases h
    | cons other others =>
      rw [equalFields, Bool.and_eq_true, Bool.and_eq_true, beq_iff_eq] at h
      rcases List.mem_cons.mp hfield with rfl | hfield
      · exact ⟨other, List.mem_cons_self, h.1⟩
      · obtain ⟨found, hfound, heq⟩ := ih h.2 hfield
        exact ⟨found, List.mem_cons_of_mem _ hfound, heq⟩

/-- If the entries of a table are finished as equal fields, each of them is. -/
theorem equals_of_entryValues {entries : List (String × Toml)} (hperm : entries.Perm fields)
    (hnodup : (fields.map Prod.fst).Nodup)
    (h : ∀ field ∈ fields, FinishesIf (shown field.2) field.2 (good field.2))
    {values : List (String × Toml)}
    (hvalues : Item.entryValues (entries.map fun field => (field.1, shown field.2)) = .ok values)
    (hequal : equalFields (Fields.ofList values) fields = true) :
    ∀ field ∈ fields, good field.2 := by
  intro field hfield
  obtain ⟨other, hother, hname, hother'⟩ := exists_of_equalFields hequal hfield
  obtain ⟨entry, hentry, hentryName, hitem⟩ :=
    exists_of_entryValues hvalues (Fields.mem_ofList hother)
  obtain ⟨source, hsource, rfl⟩ := List.mem_map.mp hentry
  have hsame : source = field :=
    List.inj_on_of_nodup_map hnodup (hperm.mem_iff.mp hsource) hfield (hentryName.trans hname)
  subst hsame
  exact (h source hfield).other hitem hother'

end

/-! ## 2. Tables -/

theorem tableValue_eq {entries : Entries} (h : entries.head?.map Prod.fst ≠ some dateTimeName) :
    Item.tableValue entries =
      (Item.entryValues entries).map fun values => table (Fields.ofList values) := by
  cases entries with
  | nil => rfl
  | cons entry entries =>
    obtain ⟨name, item⟩ := entry
    have hname : name ≠ dateTimeName := fun heq => h (congrArg some heq)
    rw [Item.tableValue, if_neg hname, Item.entryValues]
    cases item.toToml with
    | error error => rfl
    | ok value => cases Item.entryValues entries <;> rfl

/-- What begins with the reserved name is not finished as a table. -/
theorem not_equals_of_reserved {entries : Entries}
    (h : entries.head?.map Prod.fst = some dateTimeName) {result : Toml}
    (hresult : Item.tableValue entries = .ok result) (fields : List (String × Toml)) :
    result.equals (table fields) = false := by
  cases entries with
  | nil => cases h
  | cons entry entries =>
    obtain ⟨name, item⟩ := entry
    obtain rfl : name = dateTimeName := Option.some.inj h
    rw [Item.tableValue, if_pos rfl] at hresult
    unfold Item.toDateTime at hresult
    split at hresult
    · split at hresult
      · obtain rfl := Except.ok.inj hresult
        rfl
      · cases hresult
    · cases hresult

section

variable {fields entries : List (String × Toml)} {shown : Toml → Item} {good : Toml → Prop}

theorem finishesIf_table {origin : Origin} (hsorted : Fields.Sorted fields)
    (hperm : entries.Perm fields)
    (h : ∀ field ∈ fields, FinishesIf (shown field.2) field.2 (good field.2)) :
    FinishesIf (.table origin (entries.map fun field => (field.1, shown field.2))) (table fields)
      (entries.head?.map Prod.fst ≠ some dateTimeName ∧ ∀ field ∈ fields, good field.2) := by
  have hhead : (entries.map fun field => (field.1, shown field.2)).head?.map Prod.fst =
      entries.head?.map Prod.fst := by
    cases entries <;> rfl
  refine ⟨fun hgood => ?_, fun {result} hresult hequal => ?_⟩
  · rw [Item.toToml, tableValue_eq (hhead ▸ hgood.1), entryValues_map fun field hfield =>
      (h field (hperm.mem_iff.mp hfield)).same (hgood.2 field (hperm.mem_iff.mp hfield))]
    exact congrArg (fun fields => Except.ok (table fields)) (hsorted.ofList_perm hperm)
  · rw [Item.toToml] at hresult
    by_cases hreserved : entries.head?.map Prod.fst = some dateTimeName
    · rw [not_equals_of_reserved (hhead.trans hreserved) hresult] at hequal
      cases hequal
    · rw [tableValue_eq (hhead ▸ hreserved)] at hresult
      refine ⟨hreserved, ?_⟩
      cases hvalues : Item.entryValues (entries.map fun field => (field.1, shown field.2)) with
      | error error =>
        rw [hvalues] at hresult
        cases hresult
      | ok values =>
        rw [hvalues] at hresult
        obtain rfl := Except.ok.inj hresult
        exact equals_of_entryValues hperm hsorted.nodup h hvalues hequal

end

/-! ## 3. Values -/

section

variable {items : List Toml} {shown : Toml → Item} {good : Toml → Prop}

theorem itemValues_map (h : ∀ item ∈ items, (shown item).toToml = .ok item) :
    Item.itemValues (items.map shown) = .ok items := by
  induction items with
  | nil => rfl
  | cons item items ih =>
    rw [List.map_cons, Item.itemValues, h item List.mem_cons_self,
      ih fun other hother => h other (List.mem_cons_of_mem _ hother)]
    rfl

theorem equals_of_itemValues (h : ∀ item ∈ items, FinishesIf (shown item) item (good item))
    {values : List Toml} (hvalues : Item.itemValues (items.map shown) = .ok values)
    (hequal : equalItems values items = true) : ∀ item ∈ items, good item := by
  induction items generalizing values with
  | nil => exact fun _ hitem => absurd hitem List.not_mem_nil
  | cons item items ih =>
    rw [List.map_cons, Item.itemValues] at hvalues
    obtain ⟨first, hfirst, hvalues⟩ := bind_eq_ok.mp hvalues
    obtain ⟨rest, hrest, hvalues⟩ := bind_eq_ok.mp hvalues
    obtain rfl := Except.ok.inj hvalues
    rw [equalItems, Bool.and_eq_true] at hequal
    exact List.forall_mem_cons.mpr ⟨(h item List.mem_cons_self).other hfirst hequal.1,
      ih (fun other hother => h other (List.mem_cons_of_mem _ hother)) hrest hequal.2⟩

theorem finishesIf_array (h : ∀ item ∈ items, FinishesIf (shown item) item (good item)) :
    FinishesIf (.array (items.map shown)) (array items) (∀ item ∈ items, good item) := by
  refine ⟨fun hgood => ?_, fun {result} hresult hequal => ?_⟩
  · rw [Item.toToml, itemValues_map fun item hitem => (h item hitem).same (hgood item hitem)]
    rfl
  · rw [Item.toToml] at hresult
    obtain ⟨values, hvalues, hresult⟩ := bind_eq_ok.mp hresult
    obtain rfl := Except.ok.inj hresult
    exact equals_of_itemValues h hvalues hequal

end

/-- An array of tables is finished like any other array. -/
theorem toToml_tables {items : List Toml} (h : ∀ item ∈ items, item.isTable = true) :
    (Item.tables (elementEntries items)).toToml = (Item.array (items.map sectionItem)).toToml := by
  have hvalues : Item.elementValues (elementEntries items) =
      Item.itemValues (items.map sectionItem) := by
    induction items with
    | nil => rfl
    | cons item items ih =>
      rw [elementEntries, Item.elementValues, List.map_cons, Item.itemValues,
        ih fun other hother => h other (List.mem_cons_of_mem _ hother)]
      cases item with
      | table fields => rfl
      | string | integer | float | boolean | dateTime | array =>
        exact absurd (h _ List.mem_cons_self) Bool.false_ne_true
  rw [Item.toToml, Item.toToml, hvalues]

theorem inlineEntries_eq_map (fields : List (String × Toml)) :
    inlineEntries fields = fields.map fun field => (field.1, field.2.item) := by
  induction fields with
  | nil => rfl
  | cons field fields ih => rw [inlineEntries, ih, List.map_cons]

theorem arrayItems_eq_map (items : List Toml) : arrayItems items = items.map item := by
  induction items with
  | nil => rfl
  | cons item items ih => rw [arrayItems, ih, List.map_cons]

theorem sectionEntries_eq_map (fields : List (String × Toml)) :
    sectionEntries fields =
      (sectionFields fields).map fun field => (field.1, field.2.sectionItem) := by
  induction fields with
  | nil => rfl
  | cons field fields ih =>
    rw [sectionEntries, sectionFields, List.filter_cons, ih]
    cases field.2.isSection <;> rfl

/-- The entries of a printed table are those of its fields. -/
theorem printedItem_table (asSections : Bool) (fields : List (String × Toml)) :
    ∃ origin, (table fields).printedItem asSections =
      .table origin ((printedFields asSections fields).map fun field =>
        (field.1, field.2.printedItem (asSections && field.2.isSection))) := by
  cases asSections with
  | false =>
    refine ⟨.braces, ?_⟩
    rw [printedItem, if_neg Bool.false_ne_true, item, inlineEntries_eq_map]
    rfl
  | true =>
    refine ⟨if hasSection fields then .header else .headerPath, ?_⟩
    rw [printedItem, if_pos rfl, sectionItem, inlineEntries_eq_map, sectionEntries_eq_map,
      printedFields, if_pos rfl, List.map_append]
    refine congrArg _ (congrArg₂ _ ?_ ?_)
    · refine List.map_congr_left fun field hfield => ?_
      have hline := (List.mem_filter.mp hfield).2
      rw [Bool.not_eq_true'] at hline
      rw [hline]
      rfl
    · refine List.map_congr_left fun field hfield => ?_
      have hsection := (List.mem_filter.mp hfield).2
      rw [hsection]
      rfl

theorem printedFields_perm (asSections : Bool) (fields : List (String × Toml)) :
    (printedFields asSections fields).Perm fields := by
  cases asSections with
  | false => exact List.Perm.refl fields
  | true => exact lines_sections_perm fields

theorem ne_of_hasNameFields {name : String} {fields : List (String × Toml)}
    (h : hasNameFields name fields = false) : ∀ field ∈ fields, field.1 ≠ name := by
  induction fields with
  | nil => exact fun _ h => absurd h List.not_mem_nil
  | cons field fields ih =>
    rw [hasNameFields, Bool.or_eq_false_iff, Bool.or_eq_false_iff, beq_eq_false_iff_ne] at h
    exact List.forall_mem_cons.mpr ⟨h.1.1, ih h.2⟩

mutual

/-- Where the reserved name does not occur, it does not come first. -/
theorem unreserved_of_hasName : ∀ {value : Toml} {asSections : Bool},
    value.hasName dateTimeName = false → value.unreserved asSections = true
  | string _, _, _ | integer _, _, _ | float _, _, _ | boolean _, _, _ | dateTime _, _, _ => rfl
  | array items, _, h => unreservedItems_of_hasName h
  | table fields, asSections, h => by
    rw [unreserved, unreservedFields_of_hasName h, Bool.and_true, bne_iff_ne]
    intro hhead
    obtain ⟨field, hfirst, hname⟩ := Option.map_eq_some_iff.mp hhead
    have hfield := (printedFields_perm asSections fields).mem_iff.mp (List.mem_of_head? hfirst)
    exact ne_of_hasNameFields h field hfield hname

theorem unreservedFields_of_hasName : ∀ {fields : List (String × Toml)} {asSections : Bool},
    hasNameFields dateTimeName fields = false → unreservedFields asSections fields = true
  | [], _, _ => rfl
  | (name, value) :: rest, asSections, h => by
    rw [hasNameFields, Bool.or_eq_false_iff, Bool.or_eq_false_iff] at h
    rw [unreservedFields, unreserved_of_hasName h.1.2, unreservedFields_of_hasName h.2,
      Bool.and_self]

theorem unreservedItems_of_hasName : ∀ {items : List Toml} {asSections : Bool},
    hasNameItems dateTimeName items = false → unreservedItems asSections items = true
  | [], _, _ => rfl
  | item :: rest, asSections, h => by
    rw [hasNameItems, Bool.or_eq_false_iff] at h
    rw [unreservedItems, unreserved_of_hasName h.1, unreservedItems_of_hasName h.2, Bool.and_self]

end

theorem unreservedFields_iff {asSections : Bool} {fields : List (String × Toml)} :
    unreservedFields asSections fields = true ↔
      ∀ field ∈ fields, field.2.unreserved (asSections && field.2.isSection) = true := by
  induction fields with
  | nil => exact iff_of_true rfl fun _ h => absurd h List.not_mem_nil
  | cons field fields ih =>
    rw [unreservedFields, Bool.and_eq_true, ih, List.forall_mem_cons]

theorem unreservedItems_iff {asSections : Bool} {items : List Toml} :
    unreservedItems asSections items = true ↔
      ∀ item ∈ items, item.unreserved asSections = true := by
  induction items with
  | nil => exact iff_of_true rfl fun _ h => absurd h List.not_mem_nil
  | cons item items ih => rw [unreservedItems, Bool.and_eq_true, ih, List.forall_mem_cons]

/-- What a printed value is read as is finished as this value if it is unreserved. -/
theorem finishesIf_printed {value : Toml} (h : value.WellFormed) {asSections : Bool}
    (hsections : asSections = true → value.isSection = true) :
    FinishesIf (value.printedItem asSections) value (value.unreserved asSections = true) := by
  induction h generalizing asSections with
  | @scalar value h =>
    cases value with
    | array | table => exact h.elim
    | string | integer | float | boolean | dateTime =>
      cases asSections with
      | true => exact absurd (hsections rfl) Bool.false_ne_true
      | false => exact ⟨fun _ => rfl, fun _ _ => rfl⟩
  | @array items h ih =>
    rw [unreserved, unreservedItems_iff]
    cases asSections with
    | false =>
      rw [printedItem, if_neg Bool.false_ne_true, item, arrayItems_eq_map]
      exact finishesIf_array fun item hitem => @ih item hitem false nofun
    | true =>
      have htables : (!items.isEmpty && items.all isTable) = true := hsections rfl
      rw [Bool.and_eq_true, List.all_eq_true] at htables
      have hitems := @finishesIf_array items sectionItem _ fun item hitem =>
        @ih item hitem true fun _ => by rw [isSection, htables.2 item hitem, Bool.true_or]
      rw [printedItem, if_pos rfl, sectionItem]
      exact ⟨fun hgood => (toToml_tables htables.2).trans (hitems.same hgood),
        fun hresult => hitems.other ((toToml_tables htables.2).symm.trans hresult)⟩
  | @table fields hsorted h ih =>
    obtain ⟨origin, hitem⟩ := printedItem_table asSections fields
    rw [hitem, unreserved, Bool.and_eq_true, bne_iff_ne, unreservedFields_iff]
    refine @finishesIf_table fields _
      (fun value => value.printedItem (asSections && value.isSection))
      (fun value => value.unreserved (asSections && value.isSection) = true) origin hsorted
      (printedFields_perm asSections fields) fun field hfield => ?_
    exact ih field hfield fun hboth => (Bool.and_eq_true_iff.mp hboth).2

end Templating.Toml
