import Mathlib.Data.List.Basic
import Templating.Proofs.Fields
import Templating.Toml.Document

/-!
# Drafts under construction

A header names a table by the path to it. What a document does to this table depends on nothing but
the entries that stand there: `Leads path root inner fill` says that the path leads from `root` to
`inner`, and that `fill` puts other entries in their place.

Only the closed form of a draft matters to the next header. Tables come into being at the end of
the one around them, so each lemma is about a name that is new there or stands last.

Results:
1. `lookup_last`, `replace_last`: the last of some entries.
2. `atPath_append`: a path in two parts. `Leads.trans`: so paths are followed one after another.
   `leads_new`, `leads_table`, `leads_element`: the three ways to go on by one name.
3. `openTable_new`, `openElement_first`, `openElement_next`, `close_table`, `close_element`: what
   headers do.
-/

namespace Templating.Toml

/-! ## 1. The last entry -/

section

variable {pre : Entries} {name : String}

theorem lookup_new (h : name ∉ pre.map Prod.fst) : pre.lookup name = none :=
  Fields.find?_eq_none_of_not_mem h

theorem lookup_last (h : name ∉ pre.map Prod.fst) (item : Item) :
    (pre ++ [(name, item)]).lookup name = some item := by
  rw [List.lookup_append, lookup_new h, Option.none_or, List.lookup_cons_self]

theorem replace_last (h : name ∉ pre.map Prod.fst) (old new : Item) :
    Entries.replace name new (pre ++ [(name, old)]) = pre ++ [(name, new)] := by
  induction pre with
  | nil => exact if_pos rfl
  | cons entry pre ih =>
    obtain ⟨other, item⟩ := entry
    rw [List.map_cons, List.mem_cons, not_or] at h
    rw [List.cons_append, Entries.replace, if_neg (Ne.symm h.1), ih h.2, List.cons_append]

end

/-! ## 2. Paths -/

section

variable {α : Type}

theorem atPath_append (change : Entries → Except Error (Entries × α)) (path more : List String)
    (root : Entries) :
    atPath change (path ++ more) root = atPath (atPath change more) path root := by
  induction path generalizing root with
  | nil => rfl
  | cons step path ih =>
    have hrest : atPath change (path ++ more) = atPath (atPath change more) path := funext ih
    rw [List.cons_append, atPath, atPath, hrest]

variable {change : Entries → Except Error (Entries × α)} {pre : Entries} {name : String}

theorem atPath_new (h : name ∉ pre.map Prod.fst) :
    atPath change [name] pre =
      (change []).map (Prod.map (fun inner => pre ++ [(name, .table .headerPath inner)]) id) := by
  rw [atPath, lookup_new h]
  simp only [atPath, bind, Except.bind]
  cases change [] <;> rfl

theorem atPath_table (h : name ∉ pre.map Prod.fst) {origin : Origin}
    (horigin : origin.isInline = false) (inner : Entries) :
    atPath change [name] (pre ++ [(name, .table origin inner)]) =
      (change inner).map (Prod.map (fun inner => pre ++ [(name, .table origin inner)]) id) := by
  rw [atPath, lookup_last h]
  simp only [horigin, Bool.false_eq_true, ↓reduceIte, atPath, bind, Except.bind]
  cases change inner with
  | error e => rfl
  | ok result =>
    simp only [replace_last h]
    rfl

theorem atPath_element (h : name ∉ pre.map Prod.fst) (elements : List Entries) (last : Entries) :
    atPath change [name] (pre ++ [(name, .tables (elements ++ [last]))]) =
      (change last).map
        (Prod.map (fun last => pre ++ [(name, .tables (elements ++ [last]))]) id) := by
  rw [atPath, lookup_last h]
  simp only [List.getLast?_concat, atPath, bind, Except.bind]
  cases change last with
  | error e => rfl
  | ok result =>
    simp only [List.dropLast_concat, replace_last h]
    rfl

end

/-- A change at a path is one of the entries `inner`, which `fill` puts back. -/
def Reaches (path : List String) (root inner : Entries) (fill : Entries → Entries) : Prop :=
  ∀ {α : Type} (change : Entries → Except Error (Entries × α)),
    atPath change path root = (change inner).map (Prod.map fill id)

/-- A path leads from `root` to `inner`, and to whatever `fill` puts there. -/
structure Leads (path : List String) (root inner : Entries) (fill : Entries → Entries) : Prop where
  now : Reaches path root inner fill
  again (entries : Entries) : Reaches path (fill entries) entries fill

theorem leads_root (root : Entries) : Leads [] root root id := by
  have hreaches : ∀ entries, Reaches [] entries entries id := by
    intro entries α change
    rw [atPath]
    cases change entries <;> rfl
  exact ⟨hreaches root, hreaches⟩

namespace Leads

variable {path more : List String} {root inner parent : Entries} {fill wrap : Entries → Entries}

/-- The path leads to what has been put at its end. -/
theorem refill (h : Leads path root inner fill) (entries : Entries) :
    Leads path (fill entries) entries fill := ⟨h.again entries, h.again⟩

theorem trans (h : Leads path root parent fill) (hmore : Leads more parent inner wrap) :
    Leads (path ++ more) root inner (fun entries => fill (wrap entries)) := by
  have hreaches : ∀ {root parent inner : Entries}, Reaches path root parent fill →
      Reaches more parent inner wrap →
      Reaches (path ++ more) root inner fun entries => fill (wrap entries) := by
    intro root parent inner hpath hstep α change
    rw [atPath_append, hpath, hstep]
    cases change inner <;> rfl
  exact ⟨hreaches h.now hmore.now,
    fun entries => hreaches (h.again (wrap entries)) (hmore.again entries)⟩

end Leads

section

variable {pre : Entries} {name : String}

/-- A table that is missing on the way comes into being. -/
theorem leads_new (h : name ∉ pre.map Prod.fst) :
    Leads [name] pre [] fun inner => pre ++ [(name, .table .headerPath inner)] :=
  ⟨fun _ => atPath_new h, fun inner _ _ => atPath_table h rfl inner⟩

theorem leads_table (h : name ∉ pre.map Prod.fst) {origin : Origin}
    (horigin : origin.isInline = false) (inner : Entries) :
    Leads [name] (pre ++ [(name, .table origin inner)]) inner
      fun inner => pre ++ [(name, .table origin inner)] :=
  ⟨fun _ => atPath_table h horigin inner, fun inner _ _ => atPath_table h horigin inner⟩

/-- An array of tables leads to its last one. -/
theorem leads_element (h : name ∉ pre.map Prod.fst) (elements : List Entries) (last : Entries) :
    Leads [name] (pre ++ [(name, .tables (elements ++ [last]))]) last
      fun last => pre ++ [(name, .tables (elements ++ [last]))] :=
  ⟨fun _ => atPath_element h elements last, fun last _ _ => atPath_element h elements last⟩

end

/-! ## 3. Headers -/

namespace Draft

variable {draft : Draft} {path : List String} {root parent : Entries} {fill : Entries → Entries}
  {name : String}

theorem openTable_new (hclose : draft.close = .ok root) (h : Leads path root parent fill)
    (hnew : name ∉ parent.map Prod.fst) :
    draft.openTable path name = .ok ⟨fill parent, .table path name, []⟩ := by
  rw [openTable, hclose]
  simp only [bind, Except.bind, h.now, lookup_new hnew]
  rfl

theorem close_table (h : Leads path root parent fill) (entries : Entries) :
    close ⟨fill parent, .table path name, entries⟩ =
      .ok (fill (parent ++ [(name, .table .header entries)])) := by
  rw [close]
  simp only [(h.again parent) _]
  rfl

theorem openElement_first (hclose : draft.close = .ok root) (h : Leads path root parent fill)
    (hnew : name ∉ parent.map Prod.fst) :
    draft.openElement path name =
      .ok ⟨fill (parent ++ [(name, .tables [])]), .element path name, []⟩ := by
  rw [openElement, hclose]
  simp only [bind, Except.bind, h.now, lookup_new hnew]
  rfl

variable {pre : Entries}

theorem openElement_next {elements : List Entries} (hnew : name ∉ pre.map Prod.fst)
    (hclose : draft.close = .ok root)
    (h : Leads path root (pre ++ [(name, .tables elements)]) fill) :
    draft.openElement path name =
      .ok ⟨fill (pre ++ [(name, .tables elements)]), .element path name, []⟩ := by
  rw [openElement, hclose]
  simp only [bind, Except.bind, h.now, lookup_last hnew]
  rfl

theorem close_element {elements : List Entries} (hnew : name ∉ pre.map Prod.fst)
    (h : Leads path root (pre ++ [(name, .tables elements)]) fill) (entries : Entries) :
    close ⟨fill (pre ++ [(name, .tables elements)]), .element path name, entries⟩ =
      .ok (fill (pre ++ [(name, .tables (elements ++ [entries]))])) := by
  rw [close]
  simp only [(h.again (pre ++ [(name, .tables elements)])) _, lookup_last hnew, replace_last hnew]
  rfl

theorem addValue_new {entries : Entries} (hnew : name ∉ draft.entries.map Prod.fst)
    (hentries : entries = draft.entries ++ [(name, item)]) :
    draft.addValue [] name item = .ok { draft with entries := entries } := by
  rw [addValue, insertKey, lookup_new hnew, hentries]
  rfl

end Draft

end Templating.Toml
