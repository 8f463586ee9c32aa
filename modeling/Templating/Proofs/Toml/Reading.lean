import Templating.Proofs.Toml.Reserved

/-!
# What a document gives

Every value of a document is well-formed: its integers have 64 bits, its date-times are valid and
its tables are sorted. The scalars are so from when they are read, and building the document only
moves them.

* `Item.Sound`: all scalars in an item can stand in a document.

Results:
1. `Sound.insertKey`, `Sound.atPath`, `Draft.Sound.openTable` and its siblings: each step of
   building a document keeps it sound.
2. `sound_of_value?`, `sound_of_keyValue?`: what is read is sound.
3. `sound_of_statements`, `sound_of_document`: so is a draft after any statements.
4. `wellFormed_of_toToml`: a sound item is finished as a well-formed value.
-/

namespace Templating.Toml

open Reader

/-! ## Definitions -/

/-- Every scalar in an item can stand in a document. -/
inductive Item.Sound : Item → Prop
  | scalar {value : Toml} (h : value.IsScalar) : Sound (.scalar value)
  | array {items : List Item} (h : ∀ item ∈ items, Sound item) : Sound (.array items)
  | tables {elements : List Entries} (h : ∀ entries ∈ elements, ∀ entry ∈ entries, Sound entry.2) :
    Sound (.tables elements)
  | table {origin : Origin} {entries : Entries} (h : ∀ entry ∈ entries, Sound entry.2) :
    Sound (.table origin entries)

def Entries.Sound (entries : Entries) : Prop := ∀ entry ∈ entries, entry.2.Sound

structure Draft.Sound (draft : Draft) : Prop where
  root : draft.root.Sound
  entries : draft.entries.Sound

/-! ## 1. Building -/

namespace Entries

variable {entries : Entries} {name : String} {item : Item}

theorem sound_nil : Sound [] := fun _ h => absurd h List.not_mem_nil

theorem Sound.append (h : entries.Sound) (hitem : item.Sound) :
    Entries.Sound (entries ++ [(name, item)]) := by
  intro entry hentry
  rcases List.mem_append.mp hentry with hentry | hentry
  · exact h entry hentry
  · rw [List.mem_singleton.mp hentry]
    exact hitem

theorem Sound.lookup (h : entries.Sound) (hlookup : entries.lookup name = some item) :
    item.Sound := by
  obtain ⟨before, after, rfl, -⟩ := List.lookup_eq_some_iff.mp hlookup
  exact h (name, item) (List.mem_append_right before List.mem_cons_self)

theorem Sound.replace (h : entries.Sound) (hitem : item.Sound) :
    Entries.Sound (Entries.replace name item entries) := by
  induction entries with
  | nil => exact sound_nil
  | cons entry entries ih =>
    obtain ⟨other, old⟩ := entry
    obtain ⟨hold, hrest⟩ := List.forall_mem_cons.mp h
    rw [Entries.replace]
    split
    · exact List.forall_mem_cons.mpr ⟨hitem, hrest⟩
    · exact List.forall_mem_cons.mpr ⟨hold, ih hrest⟩

theorem Sound.remove (h : entries.Sound) : Entries.Sound (Entries.remove name entries) := by
  induction entries with
  | nil => exact sound_nil
  | cons entry entries ih =>
    obtain ⟨other, old⟩ := entry
    obtain ⟨hold, hrest⟩ := List.forall_mem_cons.mp h
    rw [Entries.remove]
    split
    · exact hrest
    · exact List.forall_mem_cons.mpr ⟨hold, ih hrest⟩

end Entries

theorem Item.Sound.entries {origin : Origin} {entries : Entries}
    (h : (Item.table origin entries).Sound) : entries.Sound := by
  cases h with
  | table h => exact h

theorem Item.Sound.elements {elements : List Entries} (h : (Item.tables elements).Sound) :
    ∀ entries ∈ elements, entries.Sound := by
  cases h with
  | tables h => exact h

theorem Item.Sound.element {elements : List Entries} (h : (Item.tables elements).Sound)
    {last : Entries} (hlast : elements.getLast? = some last) : last.Sound :=
  h.elements last (List.mem_of_getLast? hlast)

/-- A table is added to an array. -/
theorem Item.sound_push {elements : List Entries} (h : ∀ entries ∈ elements, entries.Sound)
    {last : Entries} (hlast : last.Sound) : (Item.tables (elements ++ [last])).Sound := by
  refine .tables fun entries hentries => ?_
  rcases List.mem_append.mp hentries with hentries | hentries
  · exact h entries hentries
  · rw [List.mem_singleton.mp hentries]
    exact hlast

/-- The last table of an array is replaced. -/
theorem Item.Sound.replaceLast {elements : List Entries} (h : (Item.tables elements).Sound)
    {last : Entries} (hlast : last.Sound) : (Item.tables (elements.dropLast ++ [last])).Sound :=
  Item.sound_push (fun entries hentries => h.elements entries (List.mem_of_mem_dropLast hentries))
    hlast

section

variable {α : Type} {entries result : Entries} {path : List String} {name : String} {item : Item}

theorem Sound.insertKey {created : Origin} {here : Option Origin} (hitem : item.Sound)
    (h : entries.Sound)
    (hresult : insertKey created name item path here entries = .ok result) : result.Sound := by
  induction path generalizing here entries result with
  | nil =>
    rw [Toml.insertKey] at hresult
    split at hresult
    · exact Except.ok.inj hresult ▸ h.append hitem
    · cases hresult
  | cons step path ih =>
    rw [Toml.insertKey] at hresult
    split at hresult
    · obtain ⟨inner, hinner, hresult⟩ := bind_eq_ok.mp hresult
      exact Except.ok.inj hresult ▸ h.append (.table (ih Entries.sound_nil hinner))
    · next origin inner hlookup =>
      split at hresult
      · obtain ⟨inner', hinner, hresult⟩ := bind_eq_ok.mp hresult
        exact Except.ok.inj hresult ▸ h.replace (.table (ih (h.lookup hlookup).entries hinner))
      · cases hresult
    · next elements hlookup =>
      split at hresult
      · next last hlast =>
        obtain ⟨last', hinner, hresult⟩ := bind_eq_ok.mp hresult
        have hsound := ih ((h.lookup hlookup).element hlast) hinner
        exact Except.ok.inj hresult ▸ h.replace ((h.lookup hlookup).replaceLast hsound)
      · cases hresult
    · cases hresult

/-- A change of sound entries at a path gives sound entries if the change does so itself. -/
theorem Sound.atPath {change : Entries → Except Error (Entries × α)} (good : α → Prop)
    (hchange : ∀ {entries result a}, Entries.Sound entries → change entries = .ok (result, a) →
      Entries.Sound result ∧ good a) {a : α}
    (h : entries.Sound) (hresult : atPath change path entries = .ok (result, a)) :
    result.Sound ∧ good a := by
  induction path generalizing entries result with
  | nil => exact hchange h hresult
  | cons step path ih =>
    rw [Toml.atPath] at hresult
    split at hresult
    · obtain ⟨⟨inner, a'⟩, hinner, hresult⟩ := bind_eq_ok.mp hresult
      obtain ⟨rfl, rfl⟩ := Prod.mk.inj (Except.ok.inj hresult)
      obtain ⟨hsound, hgood⟩ := ih Entries.sound_nil hinner
      exact ⟨h.append (.table hsound), hgood⟩
    · next origin inner hlookup =>
      split at hresult
      · cases hresult
      · obtain ⟨⟨inner', a'⟩, hinner, hresult⟩ := bind_eq_ok.mp hresult
        obtain ⟨rfl, rfl⟩ := Prod.mk.inj (Except.ok.inj hresult)
        obtain ⟨hsound, hgood⟩ := ih (h.lookup hlookup).entries hinner
        exact ⟨h.replace (.table hsound), hgood⟩
    · next elements hlookup =>
      split at hresult
      · next last hlast =>
        obtain ⟨⟨last', a'⟩, hinner, hresult⟩ := bind_eq_ok.mp hresult
        obtain ⟨rfl, rfl⟩ := Prod.mk.inj (Except.ok.inj hresult)
        obtain ⟨hsound, hgood⟩ := ih ((h.lookup hlookup).element hlast) hinner
        exact ⟨h.replace ((h.lookup hlookup).replaceLast hsound), hgood⟩
      · cases hresult
    · cases hresult

end

namespace Draft.Sound

variable {draft next : Draft} {root : Entries} {path : List String} {name : String} {item : Item}

theorem close (h : draft.Sound) (hclose : draft.close = .ok root) : root.Sound := by
  unfold Draft.close at hclose
  split at hclose
  · exact Except.ok.inj hclose ▸ h.entries
  · obtain ⟨⟨root', result⟩, hroot, hclose⟩ := bind_eq_ok.mp hclose
    refine Except.ok.inj hclose ▸ (Sound.atPath (fun _ => True) ?_ h.root hroot).1
    intro entries result a hentries hresult
    obtain ⟨rfl, -⟩ := Prod.mk.inj (Except.ok.inj hresult)
    exact ⟨hentries.append (.table h.entries), trivial⟩
  · obtain ⟨⟨root', result⟩, hroot, hclose⟩ := bind_eq_ok.mp hclose
    refine Except.ok.inj hclose ▸ (Sound.atPath (fun _ => True) ?_ h.root hroot).1
    intro entries result a hentries hresult
    split at hresult
    · next elements hlookup =>
      obtain ⟨rfl, -⟩ := Prod.mk.inj (Except.ok.inj hresult)
      have hold := (hentries.lookup hlookup).elements
      exact ⟨hentries.replace (Item.sound_push hold h.entries), trivial⟩
    · cases hresult

theorem openTable (h : draft.Sound) (hopen : draft.openTable path name = .ok next) :
    next.Sound := by
  obtain ⟨root, hclose, hopen⟩ := bind_eq_ok.mp hopen
  obtain ⟨⟨root', entries⟩, hroot, hopen⟩ := bind_eq_ok.mp hopen
  have hsound : root'.Sound ∧ Entries.Sound entries := by
    refine Sound.atPath Entries.Sound ?_ (h.close hclose) hroot
    intro parent result inner hparent hresult
    split at hresult
    · obtain ⟨rfl, rfl⟩ := Prod.mk.inj (Except.ok.inj hresult)
      exact ⟨hparent, Entries.sound_nil⟩
    · next hlookup =>
      obtain ⟨rfl, rfl⟩ := Prod.mk.inj (Except.ok.inj hresult)
      exact ⟨hparent.remove, (hparent.lookup hlookup).entries⟩
    · cases hresult
  exact Except.ok.inj hopen ▸ ⟨hsound.1, hsound.2⟩

theorem openElement (h : draft.Sound) (hopen : draft.openElement path name = .ok next) :
    next.Sound := by
  obtain ⟨root, hclose, hopen⟩ := bind_eq_ok.mp hopen
  obtain ⟨⟨root', result⟩, hroot, hopen⟩ := bind_eq_ok.mp hopen
  have hsound : root'.Sound := by
    refine (Sound.atPath (fun _ => True) ?_ (h.close hclose) hroot).1
    intro parent result inner hparent hresult
    split at hresult
    · obtain ⟨rfl, -⟩ := Prod.mk.inj (Except.ok.inj hresult)
      exact ⟨hparent.append (.tables fun _ h => absurd h List.not_mem_nil), trivial⟩
    · obtain ⟨rfl, -⟩ := Prod.mk.inj (Except.ok.inj hresult)
      exact ⟨hparent, trivial⟩
    · cases hresult
  exact Except.ok.inj hopen ▸ ⟨hsound, Entries.sound_nil⟩

theorem addValue (h : draft.Sound) (hitem : item.Sound)
    (hadd : draft.addValue path name item = .ok next) : next.Sound := by
  obtain ⟨entries, hentries, hadd⟩ := bind_eq_ok.mp hadd
  exact Except.ok.inj hadd ▸ ⟨h.root, Sound.insertKey hitem h.entries hentries⟩

end Draft.Sound

/-! ## 2. Values -/

namespace Reader

theorem isScalar_of_fitting? {n m : Int} (h : fitting? n = some m) : (integer m).IsScalar := by
  unfold fitting? at h
  split at h
  · next hbounds => exact Option.some.inj h ▸ hbounds
  · cases h

theorem isScalar_of_integer? {value : Toml} {cs rest : List Char}
    (h : integer? cs = some (value, rest)) : value.IsScalar := by
  have hbased : ∀ {base : Nat} {cs : List Char}, basedInteger? base cs = some (value, rest) →
      value.IsScalar := by
    intro base cs h
    simp only [basedInteger?, bind, Option.bind_eq_some_iff] at h
    obtain ⟨read, -, n, hn, hvalue⟩ := h
    obtain ⟨rfl, -⟩ := Prod.mk.inj (Option.some.inj hvalue)
    exact isScalar_of_fitting? hn
  unfold integer? at h
  split at h
  · exact hbased h
  · exact hbased h
  · exact hbased h
  · simp only [bind, Option.bind_eq_some_iff] at h
    obtain ⟨read, -, n, hn, hvalue⟩ := h
    obtain ⟨rfl, -⟩ := Prod.mk.inj (Option.some.inj hvalue)
    exact isScalar_of_fitting? hn

theorem isScalar_of_finite? {negative : Bool} {d : Number.Decimal} {value : Toml}
    (h : finite? negative d = some value) : value.IsScalar := by
  unfold finite? at h
  dsimp only at h
  split at h
  · cases h
  · exact Option.some.inj h ▸ trivial

theorem isScalar_of_decimalFloat? {value : Toml} {cs rest : List Char}
    (h : decimalFloat? cs = some (value, rest)) : value.IsScalar := by
  simp only [decimalFloat?, bind, Option.bind_eq_some_iff] at h
  obtain ⟨read, -, h⟩ := h
  split at h
  · obtain ⟨x, hx, hvalue⟩ := Option.bind_eq_some_iff.mp h
    obtain ⟨rfl, -⟩ := Prod.mk.inj (Option.some.inj hvalue)
    exact isScalar_of_finite? hx
  · simp only [Option.bind_eq_some_iff] at h
    obtain ⟨read', -, x, hx, hvalue⟩ := h
    obtain ⟨rfl, -⟩ := Prod.mk.inj (Option.some.inj hvalue)
    exact isScalar_of_finite? hx

theorem isScalar_of_specialFloat? {value : Toml} {cs rest : List Char}
    (h : specialFloat? cs = some (value, rest)) : value.IsScalar := by
  unfold specialFloat? at h
  split at h
  · obtain ⟨rfl, -⟩ := Prod.mk.inj (Option.some.inj h)
    trivial
  · obtain ⟨rfl, -⟩ := Prod.mk.inj (Option.some.inj h)
    trivial
  · cases h

theorem isScalar_of_numeric? {value : Toml} {cs rest : List Char}
    (h : numeric? cs = some (value, rest)) : value.IsScalar := by
  unfold numeric? at h
  split at h
  · next hdate =>
    obtain ⟨rfl, -⟩ := Prod.mk.inj (Option.some.inj h)
    have hvalid := DateTime.valid_of_read? hdate
    exact hvalid
  · rw [Option.or_eq_some_iff, Option.or_eq_some_iff] at h
    rcases h with (h | ⟨-, h⟩) | ⟨-, h⟩
    · exact isScalar_of_decimalFloat? h
    · exact isScalar_of_specialFloat? h
    · exact isScalar_of_integer? h

theorem isScalar_of_boolean? {value : Toml} {cs rest : List Char}
    (h : boolean? cs = some (value, rest)) : value.IsScalar := by
  unfold boolean? at h
  split at h
  · obtain ⟨rfl, -⟩ := Prod.mk.inj (Option.some.inj h)
    trivial
  · obtain ⟨rfl, -⟩ := Prod.mk.inj (Option.some.inj h)
    trivial
  · cases h

/-- Whatever a reader gives is sound. -/
def ReadsSound (read : List Char → Option (Read Item)) : Prop :=
  ∀ ⦃cs item rest⦄, read cs = some (item, rest) → item.Sound

section

variable {read : List Char → Option (Read Item)} {cs rest : List Char}

theorem sound_of_arrayItems? (hread : ReadsSound read) {fuel : Nat} {items : List Item}
    (h : arrayItems? read fuel cs = some (items, rest)) : ∀ item ∈ items, item.Sound := by
  induction fuel generalizing cs items rest with
  | zero => cases h
  | succ fuel ih =>
    rw [arrayItems?] at h
    obtain ⟨cs', -, h⟩ := Option.bind_eq_some_iff.mp h
    split at h
    · obtain ⟨rfl, -⟩ := Prod.mk.inj (Option.some.inj h)
      exact fun _ h => absurd h List.not_mem_nil
    · obtain ⟨⟨first, after⟩, hfirst, h⟩ := Option.bind_eq_some_iff.mp h
      obtain ⟨gap, -, h⟩ := Option.bind_eq_some_iff.mp h
      split at h
      · obtain ⟨rfl, -⟩ := Prod.mk.inj (Option.some.inj h)
        exact List.forall_mem_singleton.mpr (hread hfirst)
      · obtain ⟨⟨items', rest'⟩, hitems, h⟩ := Option.bind_eq_some_iff.mp h
        obtain ⟨rfl, -⟩ := Prod.mk.inj (Option.some.inj h)
        exact List.forall_mem_cons.mpr ⟨hread hfirst, ih hitems⟩
      · cases h

theorem sound_of_keyValue? (hread : ReadsSound read) {key : List String × String} {item : Item}
    (h : keyValue? read cs = some ((key, item), rest)) : item.Sound := by
  obtain ⟨read, -, h⟩ := Option.bind_eq_some_iff.mp h
  dsimp only at h
  split at h
  · obtain ⟨⟨value, rest'⟩, hvalue, h⟩ := Option.bind_eq_some_iff.mp h
    obtain ⟨hpair, -⟩ := Prod.mk.inj (Option.some.inj h)
    obtain ⟨-, rfl⟩ := Prod.mk.inj hpair
    exact hread hvalue
  · cases h

theorem sound_of_inlineEntries? (hread : ReadsSound read) {fuel : Nat} {entries result : Entries}
    (hentries : entries.Sound) (h : inlineEntries? read fuel entries cs = some (result, rest)) :
    result.Sound := by
  induction fuel generalizing cs entries with
  | zero => cases h
  | succ fuel ih =>
    rw [inlineEntries?] at h
    obtain ⟨⟨⟨⟨path, name⟩, value⟩, cs'⟩, hpair, h⟩ := Option.bind_eq_some_iff.mp h
    obtain ⟨entries', hinsert, h⟩ := Option.bind_eq_some_iff.mp h
    have hok : insertKey .keyPathInBraces name value path none entries = .ok entries' := by
      cases hresult : insertKey .keyPathInBraces name value path none entries with
      | error error =>
        rw [hresult] at hinsert
        cases hinsert
      | ok result =>
        rw [hresult] at hinsert
        exact congrArg _ (Option.some.inj hinsert)
    have hsound := Sound.insertKey (sound_of_keyValue? hread hpair) hentries hok
    split at h
    · obtain ⟨rfl, -⟩ := Prod.mk.inj (Option.some.inj h)
      exact hsound
    · exact ih hsound h
    · cases h

theorem sound_of_inlineTable? (hread : ReadsSound read) {result : Entries}
    (h : inlineTable? read cs = some (result, rest)) : result.Sound := by
  unfold inlineTable? at h
  split at h
  · obtain ⟨rfl, -⟩ := Prod.mk.inj (Option.some.inj h)
    exact Entries.sound_nil
  · exact sound_of_inlineEntries? hread Entries.sound_nil h

theorem sound_of_valueFrom? {nested : Option (List Char → Option (Read Item))}
    (hnested : ∀ read ∈ nested, ReadsSound read) : ReadsSound (valueFrom? nested) := by
  intro cs item rest h
  unfold valueFrom? at h
  split at h
  · cases h
  · split at h
    · obtain ⟨read, -, heq⟩ := Option.map_eq_some_iff.mp h
      obtain ⟨rfl, -⟩ := Prod.mk.inj heq
      exact .scalar trivial
    · split at h
      · obtain ⟨read, hread, h⟩ := Option.bind_eq_some_iff.mp h
        obtain ⟨⟨items, rest'⟩, hitems, h⟩ := Option.bind_eq_some_iff.mp h
        obtain ⟨rfl, -⟩ := Prod.mk.inj (Option.some.inj h)
        exact .array (sound_of_arrayItems? (hnested read hread) hitems)
      · split at h
        · obtain ⟨read, hread, h⟩ := Option.bind_eq_some_iff.mp h
          obtain ⟨⟨entries, rest'⟩, hentries, h⟩ := Option.bind_eq_some_iff.mp h
          obtain ⟨rfl, -⟩ := Prod.mk.inj (Option.some.inj h)
          exact .table (sound_of_inlineTable? (hnested read hread) hentries)
        · obtain ⟨⟨value, rest'⟩, hvalue, heq⟩ := Option.map_eq_some_iff.mp h
          obtain ⟨rfl, -⟩ := Prod.mk.inj heq
          rcases Option.or_eq_some_iff.mp hvalue with hvalue | ⟨-, hvalue⟩
          · exact .scalar (isScalar_of_boolean? hvalue)
          · exact .scalar (isScalar_of_numeric? hvalue)

end

theorem sound_of_value? (depth : Nat) : ReadsSound (value? depth) := by
  induction depth with
  | zero => exact sound_of_valueFrom? fun read h => nomatch h
  | succ depth ih => exact sound_of_valueFrom? fun read hread => Option.some.inj hread ▸ ih

/-! ## 3. Documents -/

theorem orMalformed_eq_ok {α : Type} {read : Option α} {a : α} (h : orMalformed read = .ok a) :
    read = some a := by
  cases read with
  | none => cases h
  | some b => exact congrArg some (Except.ok.inj h)

/-- Each statement keeps the draft sound. -/
theorem sound_of_statements {fuel : Nat} {draft result : Draft} {cs : List Char}
    (hdraft : draft.Sound) (h : statements fuel draft cs = .ok result) : result.Sound := by
  induction fuel generalizing draft cs with
  | zero => cases h
  | succ fuel ih =>
    rw [statements] at h
    split at h
    · exact Except.ok.inj h ▸ hdraft
    · obtain ⟨⟨⟨path, name⟩, rest⟩, -, h⟩ := bind_eq_ok.mp h
      obtain ⟨next, hopen, h⟩ := bind_eq_ok.mp h
      exact ih (hdraft.openElement hopen) h
    · obtain ⟨⟨⟨path, name⟩, rest⟩, -, h⟩ := bind_eq_ok.mp h
      obtain ⟨next, hopen, h⟩ := bind_eq_ok.mp h
      exact ih (hdraft.openTable hopen) h
    · split at h
      · obtain ⟨rest, -, h⟩ := bind_eq_ok.mp h
        exact ih hdraft h
      · obtain ⟨⟨⟨⟨path, name⟩, value⟩, rest⟩, hpair, h⟩ := bind_eq_ok.mp h
        obtain ⟨rest', -, h⟩ := bind_eq_ok.mp h
        obtain ⟨next, hadd, h⟩ := bind_eq_ok.mp h
        have hvalue := sound_of_keyValue? (sound_of_value? (limit - 1)) (orMalformed_eq_ok hpair)
        exact ih (hdraft.addValue hvalue hadd) h

theorem sound_of_document {cs : List Char} {entries : Entries}
    (h : document cs = .ok entries) : entries.Sound := by
  obtain ⟨draft, hdraft, hclose⟩ := bind_eq_ok.mp h
  have hempty : Draft.empty.Sound := ⟨Entries.sound_nil, Entries.sound_nil⟩
  exact (sound_of_statements hempty hdraft).close hclose

end Reader

/-! ## 4. Finished values -/

theorem wellFormed_of_toDateTime {item : Item} {value : Toml} (h : item.toDateTime = .ok value) :
    value.WellFormed := by
  unfold Item.toDateTime at h
  split at h
  · split at h
    · next hdate =>
      have hvalid := DateTime.valid_of_parse? hdate
      exact Except.ok.inj h ▸ .scalar hvalid
    · cases h
  · cases h

/-- The record of finished entries is sorted, and its values are well-formed if theirs are. -/
theorem wellFormed_ofList {entries : Entries} {values : List (String × Toml)}
    (h : ∀ entry ∈ entries, ∀ {value}, entry.2.toToml = .ok value → value.WellFormed)
    (hvalues : Item.entryValues entries = .ok values) :
    (table (Fields.ofList values)).WellFormed := by
  refine .table (Fields.sorted_ofList values) fun field hfield => ?_
  obtain ⟨entry, hentry, -, hitem⟩ := exists_of_entryValues hvalues (Fields.mem_ofList hfield)
  exact h entry hentry hitem

theorem wellFormed_of_tableValue {entries : Entries}
    (h : ∀ entry ∈ entries, ∀ {value}, entry.2.toToml = .ok value → value.WellFormed)
    {value : Toml} (hvalue : Item.tableValue entries = .ok value) : value.WellFormed := by
  by_cases hreserved : entries.head?.map Prod.fst = some dateTimeName
  · cases entries with
    | nil => cases hreserved
    | cons entry entries =>
      obtain ⟨name, item⟩ := entry
      obtain rfl : name = dateTimeName := Option.some.inj hreserved
      rw [Item.tableValue, if_pos rfl] at hvalue
      exact wellFormed_of_toDateTime hvalue
  · rw [tableValue_eq hreserved] at hvalue
    cases hvalues : Item.entryValues entries with
    | error error =>
      rw [hvalues] at hvalue
      cases hvalue
    | ok values =>
      rw [hvalues] at hvalue
      exact Except.ok.inj hvalue ▸ wellFormed_ofList h hvalues

theorem forall_mem_itemValues {items : List Item} {values : List Toml} {p : Toml → Prop}
    (h : ∀ item ∈ items, ∀ {value}, item.toToml = .ok value → p value)
    (hvalues : Item.itemValues items = .ok values) : ∀ value ∈ values, p value := by
  induction items generalizing values with
  | nil =>
    obtain rfl := Except.ok.inj hvalues
    exact fun _ h => absurd h List.not_mem_nil
  | cons item items ih =>
    obtain ⟨hitem, hitems⟩ := List.forall_mem_cons.mp h
    obtain ⟨first, hfirst, hvalues⟩ := bind_eq_ok.mp hvalues
    obtain ⟨rest, hrest, hvalues⟩ := bind_eq_ok.mp hvalues
    exact Except.ok.inj hvalues ▸ List.forall_mem_cons.mpr ⟨hitem hfirst, ih hitems hrest⟩

theorem forall_mem_elementValues {elements : List Entries} {values : List Toml} {p : Toml → Prop}
    (h : ∀ entries ∈ elements, ∀ {value}, Item.tableValue entries = .ok value → p value)
    (hvalues : Item.elementValues elements = .ok values) : ∀ value ∈ values, p value := by
  induction elements generalizing values with
  | nil =>
    obtain rfl := Except.ok.inj hvalues
    exact fun _ h => absurd h List.not_mem_nil
  | cons entries elements ih =>
    obtain ⟨hentries, helements⟩ := List.forall_mem_cons.mp h
    obtain ⟨first, hfirst, hvalues⟩ := bind_eq_ok.mp hvalues
    obtain ⟨rest, hrest, hvalues⟩ := bind_eq_ok.mp hvalues
    exact Except.ok.inj hvalues ▸ List.forall_mem_cons.mpr ⟨hentries hfirst, ih helements hrest⟩

/-- A sound item is finished as a well-formed value. -/
theorem wellFormed_of_toToml {item : Item} (h : item.Sound) {value : Toml}
    (hvalue : item.toToml = .ok value) : value.WellFormed := by
  induction h generalizing value with
  | scalar h => exact Except.ok.inj hvalue ▸ .scalar h
  | @array items h ih =>
    obtain ⟨values, hvalues, heq⟩ := bind_eq_ok.mp hvalue
    exact Except.ok.inj heq ▸ .array (forall_mem_itemValues ih hvalues)
  | @tables elements h ih =>
    obtain ⟨values, hvalues, heq⟩ := bind_eq_ok.mp hvalue
    have hwell := forall_mem_elementValues (fun entries hentries _ hvalue =>
      wellFormed_of_tableValue (ih entries hentries) hvalue) hvalues
    exact Except.ok.inj heq ▸ .array hwell
  | @table origin entries h ih => exact wellFormed_of_tableValue ih hvalue

end Templating.Toml
