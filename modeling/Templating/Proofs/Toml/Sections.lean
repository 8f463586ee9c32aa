import Templating.Proofs.Toml.Statements

/-!
# Printed sections

A table is printed as sections. They are read back one after another: the section of the table
itself, if it has one, puts it into the document, and those of the tables inside it fill it up. A
table without a section of its own comes into being on the way to the first table inside it.

* `Toml.isSection`: whether a field is written as sections.
* `Toml.fits`: whether every header has less than `limit` names and no line is nested too deeply.
* `Toml.sectionItem`: what the sections of a value are read as.
* `Gives`: a text leads to a draft of which only the closed form counts, or is refused.

Results:
1. `Gives.append`: texts follow one another.
2. `gives_section`: one section.
3. `fits_of_nesting`: what is not nested too deeply fits. `gives_fields`, `gives_elements`: the
   sections inside a table, and those of an array of tables.
4. `gives_sections`: the sections of a table or of an array of tables.
5. `header_sections`: how sections begin. `document_of_gives`: a document of them is read back.
-/

namespace Templating.Toml

open Reader

/-! ## Definitions -/

/-- Whether a field is written as sections and not as a line. -/
def isSection (value : Toml) : Bool := value.isTable || isSectionArray value

mutual

/-- Whether every header has less than `limit` names and no line is nested `limit` deep, if `names`
names lead to a value. -/
def fits (names : Nat) : Toml → Bool
  | table fields => decide (names < limit) && fitsFields names fields
  | array items => fitsItems names items
  | _ => true

def fitsFields (names : Nat) : List (String × Toml) → Bool
  | [] => true
  | (_, value) :: rest =>
    (if value.isSection then value.fits (names + 1) else decide (value.nesting < limit)) &&
      fitsFields names rest

def fitsItems (names : Nat) : List Toml → Bool
  | [] => true
  | item :: rest => item.fits names && fitsItems names rest

end

/-- The fields of a table that are written as its lines. -/
def lineFields (fields : List (String × Toml)) : List (String × Toml) :=
  fields.filter fun field => !field.2.isSection

/-- The fields of a table that are written as sections after it. -/
def sectionFields (fields : List (String × Toml)) : List (String × Toml) :=
  fields.filter fun field => field.2.isSection

/-- Whether a table has a section of its own. -/
def hasSection (fields : List (String × Toml)) : Bool :=
  !(lineFields fields).isEmpty || fields.isEmpty

/-- The entries of a table. -/
def Item.entries : Item → Entries
  | .table _ entries => entries
  | _ => []

mutual

/-- What the sections of a value are read as. -/
def sectionItem : Toml → Item
  | table fields =>
    .table (if hasSection fields then .header else .headerPath)
      (inlineEntries (lineFields fields) ++ sectionEntries fields)
  | array items => .tables (elementEntries items)
  | value => .scalar value

/-- What the sections inside a table are read as. -/
def sectionEntries : List (String × Toml) → Entries
  | [] => []
  | (name, value) :: rest =>
    if value.isSection then (name, value.sectionItem) :: sectionEntries rest
    else sectionEntries rest

def elementEntries : List Toml → List Entries
  | [] => []
  | item :: rest => item.sectionItem.entries :: elementEntries rest

end

/-- Sections with a blank line before each. -/
def bodyText (parts : List PrintedSection) : List Char :=
  parts.flatMap fun part => '\n' :: sectionText part

/-- Under a condition, a text leads to a draft that is closed as `root`; otherwise it is refused. -/
structure Gives (draft : Draft) (text : List Char) (p : Prop) (root : Entries) : Prop where
  reads (h : p) :
    ∃ next : Draft, next.close = .ok root ∧ ∀ rest, Steps draft (text ++ rest) next rest
  refuses (h : ¬ p) (rest : List Char) : Refuses draft (text ++ rest)

/-! ## 1. One text after another -/

section

variable {draft : Draft} {text more : List Char} {p q : Prop} {root last : Entries}

theorem gives_nil (h : draft.close = .ok root) : Gives draft [] True root :=
  ⟨fun _ => ⟨draft, h, Steps.refl draft⟩, fun h => absurd trivial h⟩

theorem Gives.congr (h : Gives draft text p root) (hpq : p ↔ q) : Gives draft text q root :=
  ⟨fun hq => h.reads (hpq.mpr hq), fun hq => h.refuses fun hp => hq (hpq.mp hp)⟩

/-- What comes after a text depends on nothing but the closed form of the draft. -/
theorem Gives.append (h : Gives draft text p root)
    (hmore : ∀ next : Draft, next.close = .ok root → Gives next more q last) :
    Gives draft (text ++ more) (p ∧ q) last := by
  refine ⟨fun hpq => ?_, fun hpq rest => ?_⟩
  · obtain ⟨next, hclose, hsteps⟩ := h.reads hpq.1
    obtain ⟨end', hend, hrest⟩ := (hmore next hclose).reads hpq.2
    refine ⟨end', hend, fun rest => ?_⟩
    rw [List.append_assoc]
    exact (hsteps (more ++ rest)).trans (hrest rest)
  · rw [List.append_assoc]
    by_cases hp : p
    · obtain ⟨next, hclose, hsteps⟩ := h.reads hp
      exact (hsteps (more ++ rest)).refuses
        ((hmore next hclose).refuses (fun hq => hpq ⟨hp, hq⟩) rest)
    · exact h.refuses hp (more ++ rest)

end

/-! ## 2. One section -/

section

variable {draft opened : Draft} {path : List String} {name : String} {isElement : Bool}
  {lines : List (String × Toml)} {root : Entries}

/-- A section: its header opens it, and its lines are its values. -/
theorem gives_section (hopen : draft.openSection isElement path name = .ok opened)
    (hentries : opened.entries = [])
    (hclose : ({ opened with entries := inlineEntries lines } : Draft).close = .ok root)
    (hlines : ∀ field ∈ lines, field.2.WellFormed) (hnodup : (lines.map Prod.fst).Nodup) :
    Gives draft ('\n' :: sectionText ⟨headerText isElement (path ++ [name]), fieldTexts lines⟩)
      (path.length + 1 < limit ∧ ∀ field ∈ lines, field.2.nesting < limit) root := by
  have htext : ∀ rest,
      '\n' :: sectionText ⟨headerText isElement (path ++ [name]), fieldTexts lines⟩ ++ rest =
        '\n' :: (headerText isElement (path ++ [name]) ++
          '\n' :: (linesText lines ++ rest)) := by
    intro rest
    simp [sectionText, linesText]
  have hnames : (opened.entries.map Prod.fst ++ lines.map Prod.fst).Nodup := by
    rw [hentries]
    exact hnodup
  refine ⟨fun h => ⟨_, hclose, fun rest => ?_⟩, fun h rest => ?_⟩
  · have hsteps := steps_lines hlines h.2 hnames rest
    rw [hentries, List.nil_append] at hsteps
    rw [htext]
    exact (steps_newline _ _).trans ((steps_header h.1 hopen _).trans hsteps)
  · rw [htext]
    refine (steps_newline _ _).refuses ?_
    by_cases hlimit : path.length + 1 < limit
    · exact (steps_header hlimit hopen _).refuses
        (refuses_lines hlines (fun hdepth => h ⟨hlimit, hdepth⟩) hnames rest)
    · exact refuses_header hlimit _

end

/-! ## 3. Sections inside others -/

theorem lineFields_cons (field : String × Toml) (fields : List (String × Toml)) :
    lineFields (field :: fields) =
      if field.2.isSection then lineFields fields else field :: lineFields fields := by
  rw [lineFields, List.filter_cons]
  cases field.2.isSection <;> rfl

theorem fitsFields_iff {names : Nat} {fields : List (String × Toml)} :
    fitsFields names fields = true ↔ (∀ field ∈ lineFields fields, field.2.nesting < limit) ∧
      ∀ field ∈ fields, field.2.isSection = true → field.2.fits (names + 1) = true := by
  induction fields with
  | nil =>
    exact iff_of_true rfl
      ⟨fun _ h => absurd h List.not_mem_nil, fun _ h => absurd h List.not_mem_nil⟩
  | cons field fields ih =>
    obtain ⟨name, value⟩ := field
    rw [fitsFields, Bool.and_eq_true, ih, List.forall_mem_cons, lineFields_cons]
    cases hsection : value.isSection with
    | true => simp [and_left_comm]
    | false => simp [and_assoc]

theorem fitsItems_iff {names : Nat} {items : List Toml} :
    fitsItems names items = true ↔ ∀ item ∈ items, item.fits names = true := by
  induction items with
  | nil => exact iff_of_true rfl fun _ h => absurd h List.not_mem_nil
  | cons item items ih => rw [fitsItems, Bool.and_eq_true, ih, List.forall_mem_cons]

mutual

/-- What is not nested too deeply fits. -/
theorem fits_of_nesting : ∀ {value : Toml} {names : Nat}, names + value.nesting ≤ limit →
    value.fits names = true
  | string _, _, _ | integer _, _, _ | float _, _, _ | boolean _, _, _ | dateTime _, _, _ => rfl
  | array items, _, h => by
    rw [nesting] at h
    exact fitsItems_of_nesting (Nat.le_of_succ_le h)
  | table fields, names, h => by
    rw [nesting] at h
    rw [fits, Bool.and_eq_true, decide_eq_true_eq]
    exact ⟨by omega, fitsFields_of_nesting h⟩

theorem fitsItems_of_nesting : ∀ {items : List Toml} {names : Nat},
    names + nestingItems items ≤ limit → fitsItems names items = true
  | [], _, _ => rfl
  | item :: rest, names, h => by
    rw [nestingItems] at h
    rw [fitsItems, fits_of_nesting (by omega), fitsItems_of_nesting (by omega), Bool.and_self]

theorem fitsFields_of_nesting : ∀ {fields : List (String × Toml)} {names : Nat},
    names + (nestingFields fields + 1) ≤ limit → fitsFields names fields = true
  | [], _, _ => rfl
  | (name, value) :: rest, names, h => by
    rw [nestingFields] at h
    rw [fitsFields, fitsFields_of_nesting (by omega), Bool.and_true]
    split
    · exact fits_of_nesting (by omega)
    · exact decide_eq_true (by omega)

end

/-- Whatever has sections has headers. -/
theorem lt_of_fits {names : Nat} {value : Toml} (hsection : value.isSection = true)
    (h : value.fits names = true) : names < limit := by
  cases value with
  | table fields =>
    rw [fits, Bool.and_eq_true, decide_eq_true_eq] at h
    exact h.1
  | array items =>
    cases items with
    | nil => cases hsection
    | cons item items =>
      rw [fits, fitsItems_iff] at h
      have hfirst := h item List.mem_cons_self
      cases item with
      | table fields =>
        rw [fits, Bool.and_eq_true, decide_eq_true_eq] at hfirst
        exact hfirst.1
      | string | integer | float | boolean | dateTime | array => cases hsection
  | string | integer | float | boolean | dateTime => cases hsection

theorem names_inlineEntries (fields : List (String × Toml)) :
    (inlineEntries fields).map Prod.fst = fields.map Prod.fst := by
  induction fields with
  | nil => rfl
  | cons field fields ih => rw [inlineEntries, List.map_cons, List.map_cons, ih]

theorem filterMap_fieldForms (path : List String) (fields : List (String × Toml)) :
    (fieldForms path fields).filterMap FieldForm.line? = fieldTexts (lineFields fields) := by
  induction fields with
  | nil => rfl
  | cons field fields ih =>
    obtain ⟨name, value⟩ := field
    rw [fieldForms, lineFields_cons]
    cases hsection : value.isSection with
    | true =>
      have hform : (value.isTable || isSectionArray value) = true := hsection
      simp only [hform, ↓reduceIte]
      exact ih
    | false =>
      have hform : (value.isTable || isSectionArray value) = false := hsection
      simp only [hform, ↓reduceIte, Bool.false_eq_true]
      exact congrArg _ ih

/-- The sections of a field are read back, whatever table they belong to. -/
def SectionsRead (value : Toml) : Prop :=
  ∀ ⦃draft : Draft⦄ ⦃path : List String⦄ ⦃root parent : Entries⦄ ⦃fill : Entries → Entries⦄
    ⦃name : String⦄, draft.close = .ok root → Leads path root parent fill →
    name ∉ parent.map Prod.fst →
    Gives draft (bodyText (sections (path ++ [name]) false value))
      (value.fits (path.length + 1) = true) (fill (parent ++ [(name, value.sectionItem)]))

/-- The sections of an element of an array of tables are read back. -/
def ElementRead (value : Toml) : Prop :=
  ∀ ⦃draft : Draft⦄ ⦃path : List String⦄ ⦃pre : Entries⦄ ⦃fill : Entries → Entries⦄
    ⦃name : String⦄ ⦃elements : List Entries⦄, name ∉ pre.map Prod.fst →
    draft.openElement path name =
      .ok ⟨fill (pre ++ [(name, .tables elements)]), .element path name, []⟩ →
    Leads path (fill (pre ++ [(name, .tables elements)])) (pre ++ [(name, .tables elements)]) fill →
    Gives draft (bodyText (sections (path ++ [name]) true value))
      (value.fits (path.length + 1) = true)
      (fill (pre ++ [(name, .tables (elements ++ [value.sectionItem.entries]))]))

section

variable {fields : List (String × Toml)}

/-- The sections inside a table are read back. The table exists by then, or they make it. -/
theorem gives_fields
    (hfields : ∀ field ∈ fields, field.2.isSection = true → SectionsRead field.2)
    {draft : Draft} {path : List String} {root inner : Entries} {fill : Entries → Entries}
    (hclose : draft.close = .ok root) (hlead : Leads path root inner fill)
    (hroot : root = fill inner ∨ sectionEntries fields ≠ [])
    (hnodup : (inner.map Prod.fst ++ (sectionFields fields).map Prod.fst).Nodup) :
    Gives draft (bodyText ((fieldForms path fields).flatMap FieldForm.subsections))
      (∀ field ∈ fields, field.2.isSection = true → field.2.fits (path.length + 1) = true)
      (fill (inner ++ sectionEntries fields)) := by
  induction fields generalizing draft root inner with
  | nil =>
    rw [sectionEntries, List.append_nil, ← hroot.resolve_right fun h => h rfl]
    exact (gives_nil hclose).congr (iff_of_true trivial fun _ h => absurd h List.not_mem_nil)
  | cons field fields ih =>
    obtain ⟨name, value⟩ := field
    have hrest := fun other (h : other ∈ fields) => hfields other (List.mem_cons_of_mem _ h)
    rw [sectionEntries] at hroot ⊢
    rw [fieldForms, List.flatMap_cons]
    simp only [List.forall_mem_cons]
    rw [sectionFields, List.filter_cons] at hnodup
    cases hsection : value.isSection with
    | false =>
      have hform : (value.isTable || isSectionArray value) = false := hsection
      simp only [hsection, hform, Bool.false_eq_true, ↓reduceIte] at hroot hnodup ⊢
      exact (ih hrest hclose hlead hroot hnodup).congr (by simp)
    | true =>
      have hform : (value.isTable || isSectionArray value) = true := hsection
      rw [if_pos hsection] at hnodup
      have hnew : name ∉ inner.map Prod.fst := fun hmem =>
        (List.nodup_append.mp hnodup).2.2 name hmem name List.mem_cons_self rfl
      have hfirst := hfields (name, value) List.mem_cons_self hsection hclose hlead hnew
      simp only [hform, ↓reduceIte, forall_const]
      rw [bodyText, List.flatMap_append]
      refine hfirst.append fun next hnext => ?_
      have hmore := ih hrest hnext (hlead.refill _) (.inl rfl)
        (by simpa [sectionFields] using hnodup)
      rw [List.append_assoc] at hmore
      exact hmore

theorem isEmpty_fieldTexts (fields : List (String × Toml)) :
    (fieldTexts fields).isEmpty = fields.isEmpty := by
  cases fields <;> rfl

theorem isEmpty_fieldForms (path : List String) (fields : List (String × Toml)) :
    (fieldForms path fields).isEmpty = fields.isEmpty := by
  cases fields <;> rfl

/-- The sections of a table are its own, if it has one, and those inside it. -/
theorem bodyText_table (isElement : Bool) (path : List String) (fields : List (String × Toml)) :
    bodyText (sections path isElement (table fields)) =
      (if isElement || hasSection fields then
        '\n' :: sectionText ⟨headerText isElement path, fieldTexts (lineFields fields)⟩ else []) ++
      bodyText ((fieldForms path fields).flatMap FieldForm.subsections) := by
  rw [sections, tableSections]
  simp only [filterMap_fieldForms, isEmpty_fieldTexts, isEmpty_fieldForms, Bool.or_assoc]
  have hown : (isElement || (!(lineFields fields).isEmpty || fields.isEmpty)) =
      (isElement || hasSection fields) := rfl
  rw [bodyText, List.flatMap_append, hown]
  refine congrArg (· ++ _) ?_
  cases isElement || hasSection fields with
  | true => exact List.append_nil _
  | false => rfl

theorem fits_table {names : Nat} : (table fields).fits names = true ↔
    (names < limit ∧ ∀ field ∈ lineFields fields, field.2.nesting < limit) ∧
      ∀ field ∈ fields, field.2.isSection = true → field.2.fits (names + 1) = true := by
  rw [fits, Bool.and_eq_true, decide_eq_true_eq, fitsFields_iff, and_assoc]

theorem lines_sections_perm (fields : List (String × Toml)) :
    (lineFields fields ++ sectionFields fields).Perm fields :=
  List.perm_append_comm.trans
    (List.filter_append_perm (fun field : String × Toml => field.2.isSection) fields)

theorem nodup_lines_sections (hsorted : Fields.Sorted fields) :
    ((inlineEntries (lineFields fields)).map Prod.fst ++
      (sectionFields fields).map Prod.fst).Nodup := by
  rw [names_inlineEntries, ← List.map_append]
  exact ((lines_sections_perm fields).map _).nodup_iff.mpr hsorted.nodup

variable (hfields : ∀ field ∈ fields, field.2.isSection = true → SectionsRead field.2)
  (hwell : ∀ field ∈ fields, field.2.WellFormed) (hsorted : Fields.Sorted fields)

include hfields hwell hsorted

/-- A table with a section of its own, as it stands in `wrap` once this section is closed. -/
theorem gives_own (isElement : Bool) {draft opened : Draft} {path : List String} {name : String}
    {wrap : Entries → Entries} (hown : (isElement || hasSection fields) = true)
    (hopen : draft.openSection isElement path name = .ok opened) (hentries : opened.entries = [])
    (hclose : ∀ entries, ({ opened with entries := entries } : Draft).close = .ok (wrap entries))
    (hlead : ∀ entries, Leads (path ++ [name]) (wrap entries) entries wrap) :
    Gives draft (bodyText (sections (path ++ [name]) isElement (table fields)))
      ((table fields).fits (path.length + 1) = true)
      (wrap (inlineEntries (lineFields fields) ++ sectionEntries fields)) := by
  have hlines : ∀ field ∈ lineFields fields, field.2.WellFormed := fun field h =>
    hwell field (List.mem_of_mem_filter h)
  have hnames : ((lineFields fields).map Prod.fst).Nodup :=
    hsorted.nodup.sublist ((List.filter_sublist).map _)
  rw [bodyText_table, if_pos hown]
  refine ((gives_section hopen hentries (hclose _) hlines hnames).append fun next hnext => ?_).congr
    fits_table.symm
  have hinside := gives_fields hfields hnext (hlead _) (.inl rfl) (nodup_lines_sections hsorted)
  rw [List.length_append, List.length_singleton] at hinside
  exact hinside

/-- The sections of a table that is not an element of an array. -/
theorem sectionsRead_table : SectionsRead (table fields) := by
  intro draft path root parent fill name hclose hlead hnew
  rw [sectionItem]
  cases hown : hasSection fields with
  | true =>
    exact gives_own hfields hwell hsorted false hown
      (Draft.openTable_new hclose hlead hnew) rfl (fun entries => Draft.close_table hlead entries)
      fun entries => (hlead.refill _).trans (leads_table hnew rfl entries)
  | false =>
    have hempty : lineFields fields = [] ∧ fields ≠ [] := by
      simpa [hasSection] using hown
    obtain ⟨field, more, hcons⟩ := List.exists_cons_of_ne_nil hempty.2
    have hsection : field.2.isSection = true := by
      by_contra h
      have hlines := hempty.1
      rw [hcons, lineFields_cons, if_neg h] at hlines
      cases hlines
    have hinside := gives_fields hfields hclose (hlead.trans (leads_new hnew)) (.inr (by
      rw [hcons, sectionEntries, if_pos hsection]
      exact List.cons_ne_nil _ _)) (by
        have hnodup := nodup_lines_sections hsorted
        rwa [hempty.1] at hnodup)
    rw [bodyText_table, hown]
    rw [List.length_append, List.length_singleton, List.nil_append] at hinside
    simp only [Bool.or_self, Bool.false_eq_true, ↓reduceIte, List.nil_append, hempty.1,
      inlineEntries]
    refine hinside.congr ?_
    rw [fits_table]
    refine (and_iff_right_of_imp fun h => ⟨?_, ?_⟩).symm
    · have hfits := h field (hcons ▸ List.mem_cons_self) hsection
      exact Nat.lt_of_succ_lt (lt_of_fits hsection hfits)
    · rw [hempty.1]
      exact fun _ h => absurd h List.not_mem_nil

theorem elementRead_table : ElementRead (table fields) := by
  intro draft path pre fill name elements hnew hopen hlead
  exact gives_own hfields hwell hsorted true rfl hopen rfl
    (fun entries => Draft.close_element hnew hlead entries)
    fun entries => (hlead.refill _).trans (leads_element hnew elements entries)

end

/-- The elements of an array of tables after those that have been read. -/
theorem gives_elements {items : List Toml} (hitems : ∀ item ∈ items, ElementRead item)
    {draft : Draft} {path : List String} {pre : Entries} {fill : Entries → Entries} {name : String}
    {elements : List Entries} (hnew : name ∉ pre.map Prod.fst)
    (hclose : draft.close = .ok (fill (pre ++ [(name, .tables elements)])))
    (hlead : Leads path (fill (pre ++ [(name, .tables elements)]))
      (pre ++ [(name, .tables elements)]) fill) :
    Gives draft (bodyText (elementSections (path ++ [name]) items))
      (∀ item ∈ items, item.fits (path.length + 1) = true)
      (fill (pre ++ [(name, .tables (elements ++ elementEntries items))])) := by
  induction items generalizing draft elements with
  | nil =>
    rw [elementEntries, List.append_nil]
    exact (gives_nil hclose).congr (iff_of_true trivial fun _ h => absurd h List.not_mem_nil)
  | cons item items ih =>
    have hfirst := hitems item List.mem_cons_self hnew (Draft.openElement_next hnew hclose hlead)
      hlead
    rw [elementSections, bodyText, List.flatMap_append]
    simp only [List.forall_mem_cons]
    refine hfirst.append fun next hnext => ?_
    have hmore := ih (fun other h => hitems other (List.mem_cons_of_mem _ h)) hnext (hlead.refill _)
    rw [List.append_assoc] at hmore
    exact hmore

theorem sectionsRead_array {items : List Toml} (hitems : ∀ item ∈ items, ElementRead item)
    (hnonempty : items ≠ []) : SectionsRead (array items) := by
  intro draft path root parent fill name hclose hlead hnew
  obtain ⟨item, more, rfl⟩ := List.exists_cons_of_ne_nil hnonempty
  have hfirst := hitems item List.mem_cons_self hnew (Draft.openElement_first hclose hlead hnew)
    (hlead.refill _)
  rw [sections, elementSections, bodyText, List.flatMap_append, sectionItem, elementEntries, fits,
    fitsItems_iff, List.forall_mem_cons]
  refine hfirst.append fun next hnext => ?_
  exact gives_elements (fun other h => hitems other (List.mem_cons_of_mem _ h)) hnew hnext
    (hlead.refill _)

/-! ## 4. All sections -/

/-- What is printed as sections is read back, if its headers and lines fit. -/
theorem gives_sections {value : Toml} (h : value.WellFormed) :
    (value.isSection = true → SectionsRead value) ∧
      (value.isTable = true → ElementRead value) := by
  induction h with
  | @scalar value h =>
    cases value with
    | array | table => exact h.elim
    | string | integer | float | boolean | dateTime => exact ⟨nofun, nofun⟩
  | @array items h ih =>
    refine ⟨fun hsection => ?_, nofun⟩
    have hsections : (!items.isEmpty && items.all isTable) = true := hsection
    simp only [Bool.and_eq_true, Bool.not_eq_true', List.isEmpty_eq_false_iff,
      List.all_eq_true] at hsections
    exact sectionsRead_array (fun item hitem => (ih item hitem).2 (hsections.2 item hitem))
      hsections.1
  | @table fields hsorted h ih =>
    have hfields := fun field (hfield : field ∈ fields) => (ih field hfield).1
    exact ⟨fun _ => sectionsRead_table hfields h hsorted,
      fun _ => elementRead_table hfields h hsorted⟩

/-! ## 5. Documents -/

theorem exists_headerText (isElement : Bool) (path : List String) :
    ∃ cs, headerText isElement path = '[' :: cs := by
  cases isElement <;> exact ⟨_, rfl⟩

theorem forall_mem_subsections {fields : List (String × Toml)} {p : PrintedSection → Prop}
    (h : ∀ field ∈ fields, ∀ path, ∀ part ∈ sections path false field.2, p part)
    {path : List String} :
    ∀ part ∈ (fieldForms path fields).flatMap FieldForm.subsections, p part := by
  induction fields with
  | nil => exact fun _ hpart => absurd hpart List.not_mem_nil
  | cons field fields ih =>
    obtain ⟨name, value⟩ := field
    intro part hpart
    rw [fieldForms, List.flatMap_cons, List.mem_append] at hpart
    rcases hpart with hpart | hpart
    · split at hpart
      · exact h (name, value) List.mem_cons_self _ part hpart
      · exact absurd hpart List.not_mem_nil
    · exact ih (fun other hother => h other (List.mem_cons_of_mem _ hother)) part hpart

theorem forall_mem_elementSections {items : List Toml} {p : PrintedSection → Prop}
    {path : List String} (h : ∀ item ∈ items, ∀ part ∈ sections path true item, p part) :
    ∀ part ∈ elementSections path items, p part := by
  induction items with
  | nil => exact fun _ hpart => absurd hpart List.not_mem_nil
  | cons item items ih =>
    intro part hpart
    rw [elementSections, List.mem_append] at hpart
    rcases hpart with hpart | hpart
    · exact h item List.mem_cons_self part hpart
    · exact ih (fun other hother => h other (List.mem_cons_of_mem _ hother)) part hpart

/-- Every section begins with an opening bracket. -/
theorem header_sections {value : Toml} (h : value.WellFormed) {path : List String}
    {isElement : Bool} :
    ∀ part ∈ sections path isElement value, ∃ cs, part.header = '[' :: cs := by
  induction h generalizing path isElement with
  | @scalar value h =>
    cases value with
    | array | table => exact h.elim
    | string | integer | float | boolean | dateTime =>
      exact fun _ hpart => absurd hpart List.not_mem_nil
  | @array items h ih => exact forall_mem_elementSections fun item hitem => ih item hitem
  | @table fields hsorted h ih =>
    intro part hpart
    rw [sections, tableSections, List.mem_append] at hpart
    rcases hpart with hpart | hpart
    · split at hpart
      · rw [List.mem_singleton.mp hpart]
        exact exists_headerText isElement path
      · exact absurd hpart List.not_mem_nil
    · exact forall_mem_subsections (fun field hfield path => ih field hfield) part hpart

theorem sectionsText_cons (part : PrintedSection) (parts : List PrintedSection) :
    sectionsText (part :: parts) = sectionText part ++ bodyText parts := by
  induction parts generalizing part with
  | nil => exact (List.intercalate_singleton).trans (List.append_nil _).symm
  | cons next parts ih =>
    have hmore : sectionsText (part :: next :: parts) =
        sectionText part ++ ['\n'] ++ sectionsText (next :: parts) :=
      List.intercalate_cons_cons
    rw [hmore, ih next, List.append_assoc]
    rfl

/-- Reading a document is reading its statements, if no byte order mark precedes them. -/
theorem document_of_gives {c : Char} {cs : List Char} {p : Prop} {root : Entries}
    (hmark : c ≠ '\uFEFF') (h : Gives Draft.empty ('\n' :: c :: cs) p root) :
    (p → document (c :: cs) = .ok root) ∧ (¬ p → ∃ error, document (c :: cs) = .error error) := by
  have hdocument : document (c :: cs) =
      statements ((c :: cs).length + 2) Draft.empty ('\n' :: c :: cs) >>= Draft.close := by
    unfold document
    split
    · next heq => exact absurd (List.cons.inj heq).1 hmark
    · rfl
  rw [hdocument]
  constructor
  · intro hp
    obtain ⟨next, hclose, hsteps⟩ := h.reads hp
    obtain ⟨left, hleft, hread⟩ := hsteps [] ((c :: cs).length + 2) (by simp)
    obtain ⟨left, rfl⟩ := Nat.exists_eq_add_one_of_ne_zero (Nat.ne_zero_of_lt hleft)
    rw [List.append_nil] at hread
    rw [hread]
    exact hclose
  · intro hp
    obtain ⟨error, hread⟩ := h.refuses hp [] ((c :: cs).length + 2) (by simp)
    rw [List.append_nil] at hread
    exact ⟨error, by rw [hread]; rfl⟩

end Templating.Toml
