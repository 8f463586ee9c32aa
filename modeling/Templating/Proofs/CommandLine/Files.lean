import Mathlib.Data.List.DropRight
import Templating.CommandLine.FileSystem
import Templating.Proofs.Contract
import Templating.Proofs.Path

/-!
# Reading and writing files

What can be seen of the files of a directory, and what a text leaves behind that is written to a
path or to standard output.

Results:
1. `entry_put`: a file that is put into a directory changes no other entry, if the directories on
   the way to it are there.
2. `locate_encloses`: they are there if a path leads to the file. `Named.locate`: a name leads to the
   file of that name in the working directory.
3. `locate_replaced`: the path leads to the file also when its content has been replaced.
4. `fileSystem_shows`: a file can be read under the paths that lead to it.
5. `takes_iff`, `write_receives`: a write that succeeds changes what the path leads to and nothing
   else. `fileSystem_steady`: one that fails changes nothing.
-/

namespace Templating

/-! ## Definitions -/

/-- What can be seen of some files. -/
structure View where
  read : String → Except FileError String
  isFile : String → Bool
  workingDirectory : Option String

/-- What a state shows of its files. -/
def FileSystem.view {σ : Type} (files : FileSystem (StateM σ)) (state : σ) : View where
  read path := ((files.read path).run state).1
  isFile path := ((files.isFile path).run state).1
  workingDirectory := (files.workingDirectory.run state).1

/-- Looking at files does not change them, and a write that fails does not either. -/
structure FileSystem.Steady {σ : Type} (files : FileSystem (StateM σ)) : Prop where
  read : ∀ path state, ((files.read path).run state).2 = state
  isFile : ∀ path state, ((files.isFile path).run state).2 = state
  workingDirectory : ∀ state, (files.workingDirectory.run state).2 = state
  write : ∀ path text state error after,
    (files.write path text).run state = (.error error, after) → after = state
  print : ∀ text state error after,
    (files.print text).run state = (.error error, after) → after = state

namespace Directory

/-- What can be seen of a directory. The files in it can be read, if they are texts, and a device is
empty. -/
structure Shows (directory : Directory) (view : View) : Prop where
  read : ∀ path text, view.read path = .ok text ↔
    (∃ names, directory.locate path = .ok (.inside names) ∧
      directory.entry? names = some (.file text.toUTF8)) ∨
    (∃ device, directory.locate path = .ok (.device device)) ∧ text = ""
  isFile : ∀ path, view.isFile path = true ↔
    ∃ names content, directory.locate path = .ok (.inside names) ∧
      directory.entry? names = some (.file content)
  workingDirectory : view.workingDirectory = some directory.path

/-- A name that stands for itself in the working directory. -/
structure Named (directory : Directory) (name : String) : Prop where
  isName : Path.IsName name
  ne_parent : name ≠ ".."
  nonzero : name.contains '\x00' = false
  short : name.utf8ByteSize ≤ nameLimit
  ne_path : name ≠ directory.path
  inDirectory : directory.entry? [] = some .directory

/-- The directories on the way to some names are there. -/
def Encloses (directory : Directory) (names : List String) : Prop :=
  ∀ other, other <+: names → other ≠ names → directory.entry? other = some .directory

/-- A file has the given content, and that is all that has changed. -/
structure Replaced (before : Directory) (names : List String) (text : String)
    (after : Directory) : Prop where
  content : after.entry? names = some (.file text.toUTF8)
  others : ∀ other, other ≠ names → after.entry? other = before.entry? other
  path : after.path = before.path
  output : after.output = before.output
  errors : after.errors = before.errors
  console : after.console = before.console

/-- What a text that is written to a device leaves behind.

* `output`, `errors`: a device of the standard streams holds the text after what it has held.
* `null`, `full`: nothing is kept, and a device without space only takes an empty text. -/
inductive Takes (before : Directory) (text : String) : Device → Directory → Prop
  | output : Takes before text .output { before with output := before.output ++ text }
  | errors : Takes before text .errors { before with errors := before.errors ++ text }
  | null : Takes before text .null before
  | full : text = "" → Takes before text .full before

/-- What a text that is written to a path leaves behind.

* `file`: a file in the directory, old or new, holds the text, and can be read under the path.
* `device`: a device takes the text.
* `absent`: the path leads out of the directory, to where nothing is kept. -/
inductive Receives (before : Directory) (path text : String) : Directory → Prop
  | file {names : List String} {after : Directory} :
      before.locate path = .ok (.inside names) → before.entry? names ≠ some .directory →
      before.Replaced names text after → after.read path = .ok text →
      Receives before path text after
  | device {device : Device} {after : Directory} : before.locate path = .ok (.device device) →
      before.Takes text device after → Receives before path text after
  | absent : before.locate path = .ok .absent → Receives before path text before

/-! ## 1. Entries -/

variable {directory before after : Directory} {names : List String} {location next : Location}
  {path name text : String} {device : Device}

theorem lookup_filter_ne {other : List String} (h : other ≠ names)
    (entries : List (List String × Entry)) :
    (entries.filter (·.1 != names)).lookup other = entries.lookup other := by
  induction entries with
  | nil => rfl
  | cons entry rest ih =>
    obtain ⟨key, value⟩ := entry
    by_cases hkey : key = names
    · subst hkey
      rw [List.filter_cons_of_neg (by simp), ih, List.lookup_cons, beq_false_of_ne h]
    · rw [List.filter_cons_of_pos (by simpa using hkey), List.lookup_cons, List.lookup_cons, ih]

/-- A file that is put into a directory is below those directories only that are on the way to
it. -/
theorem any_put {other : List String} (h : ¬ other <+: names) {content : ByteArray} :
    (directory.put names content).entries.any (other.isPrefixOf ·.1) =
      directory.entries.any (other.isPrefixOf ·.1) := by
  have hne : ∀ entry : List String × Entry, other.isPrefixOf entry.1 = true → entry.1 ≠ names := by
    rintro entry hentry rfl
    exact h (List.isPrefixOf_iff_prefix.mp hentry)
  rw [Bool.eq_iff_iff, List.any_eq_true, List.any_eq_true]
  constructor
  · rintro ⟨entry, hmem, hentry⟩
    rcases List.mem_cons.mp hmem with rfl | hmem
    · exact absurd rfl (hne _ hentry)
    · exact ⟨entry, (List.mem_filter.mp hmem).1, hentry⟩
  · rintro ⟨entry, hmem, hentry⟩
    refine ⟨entry, List.mem_cons_of_mem _ (List.mem_filter.mpr ⟨hmem, ?_⟩), hentry⟩
    simpa using hne entry hentry

/-- A file that is put into a directory changes no other entry. -/
theorem entry_put (h : directory.Encloses names) (content : ByteArray) (other : List String) :
    entry? (directory.put names content) other =
      if other = names then some (.file content) else directory.entry? other := by
  by_cases hother : other = names
  · subst hother
    rw [if_pos rfl, Directory.entry?, put, List.lookup_cons_self]
  · have hlookup : (directory.put names content).entries.lookup other =
        directory.entries.lookup other := by
      rw [put, List.lookup_cons, beq_false_of_ne hother]
      exact lookup_filter_ne hother directory.entries
    rw [if_neg hother]
    by_cases hprefix : other <+: names
    -- A directory on the way to the file is there, with an entry of its own or without one.
    · have hbefore := h other hprefix hother
      rw [hbefore, Directory.entry?, hlookup]
      rw [Directory.entry?] at hbefore
      cases hentry : directory.entries.lookup other with
      | some entry => rwa [hentry] at hbefore
      | none =>
        refine if_pos (Or.inr ?_)
        rw [put, List.any_cons, List.isPrefixOf_iff_prefix.mpr hprefix, Bool.true_or]
    · rw [Directory.entry?, Directory.entry?, hlookup, any_put hprefix]

theorem replaced_put (h : directory.Encloses names) (text : String) :
    directory.Replaced names text (directory.put names text.toUTF8) where
  content := by rw [entry_put h, if_pos rfl]
  others other hother := by rw [entry_put h, if_neg hother]
  path := rfl
  output := rfl
  errors := rfl
  console := rfl

/-! ## 2. Paths -/

/-- Only a directory is left, and it is left to itself, to the directory that it lies in or to one
of its names. -/
theorem follow_eq_ok {part : String} (h : directory.follow location part = .ok next) :
    directory.requireDirectory location = .ok () ∧
      (next = location ∨ next = location.parent ∨ next = location.child part) := by
  obtain ⟨⟨⟩, hrequired, hrest⟩ := bind_eq_ok.mp h
  refine ⟨hrequired, ?_⟩
  split at hrest
  · cases hrest
    exact Or.inl rfl
  · split at hrest
    · cases hrest
      exact Or.inr (Or.inl rfl)
    · split at hrest
      · cases hrest
      · cases hrest
        exact Or.inr (Or.inr rfl)

theorem requireDirectory_inside :
    directory.requireDirectory (.inside names) = .ok () ↔
      directory.entry? names = some .directory := by
  rw [requireDirectory]
  cases directory.entry? names with
  | none => exact ⟨nofun, nofun⟩
  | some entry =>
    cases entry with
    | file content => exact ⟨nofun, nofun⟩
    | directory => exact ⟨fun _ => rfl, fun _ => rfl⟩

/-- The directories on the way to a location are there, if it is in the directory. -/
def EnclosesLocation (directory : Directory) (location : Location) : Prop :=
  ∀ names, location = .inside names → directory.Encloses names

theorem follow_encloses {part : String} (hlocation : directory.EnclosesLocation location)
    (h : directory.follow location part = .ok next) : directory.EnclosesLocation next := by
  obtain ⟨hrequired, rfl | rfl | rfl⟩ := follow_eq_ok h
  · exact hlocation
  · rintro names hnames other hother hne
    cases location with
    | inside inner =>
      cases inner with
      | nil => cases hnames
      | cons head rest =>
        obtain rfl := Location.inside.inj hnames
        have hshort := List.dropLast_prefix (head :: rest)
        refine hlocation _ rfl other (hother.trans hshort) ?_
        rintro rfl
        have hlength := hother.length_le
        rw [List.length_dropLast, List.length_cons] at hlength
        omega
    | _ => cases hnames
  · rintro names hnames other hother hne
    cases location with
    | inside inner =>
      obtain rfl := Location.inside.inj hnames
      rcases List.prefix_concat_iff.mp hother with heq | hinner
      · exact absurd heq hne
      · by_cases hsame : other = inner
        · rw [hsame]
          exact requireDirectory_inside.mp hrequired
        · exact hlocation inner rfl other hinner hsame
    | root =>
      rw [Location.child] at hnames
      split at hnames
      · cases hnames
      · split at hnames <;> cases hnames
    | devices =>
      rw [Location.child] at hnames
      split at hnames
      · cases hnames
      · split at hnames <;> cases hnames
    | _ => cases hnames

theorem followAll_encloses {parts : List String} (hlocation : directory.EnclosesLocation location)
    (h : parts.foldlM directory.follow location = .ok next) : directory.EnclosesLocation next := by
  induction parts generalizing location with
  | nil =>
    cases h
    exact hlocation
  | cons part rest ih =>
    rw [List.foldlM_cons] at h
    obtain ⟨middle, hmiddle, hrest⟩ := bind_eq_ok.mp h
    exact ih (follow_encloses hlocation hmiddle) hrest

theorem start_encloses {parts : List String} (h : directory.start path = .ok (location, parts)) :
    directory.EnclosesLocation location := by
  have hlocation : location = .inside [] ∨ location = .root := by
    dsimp only [start] at h
    split_ifs at h <;> cases h
    · exact Or.inl rfl
    · exact Or.inr rfl
    · exact Or.inl rfl
  rcases hlocation with rfl | rfl
  · rintro names hnames other hother hne
    obtain rfl := Location.inside.inj hnames
    exact absurd (List.prefix_nil.mp hother) hne
  · exact fun names hnames => nomatch hnames

/-- The directories on the way to where a path leads are there. -/
theorem locate_encloses (h : directory.locate path = .ok (.inside names)) :
    directory.Encloses names := by
  obtain ⟨⟨location, parts⟩, hstart, hfollow⟩ := bind_eq_ok.mp h
  exact followAll_encloses (start_encloses hstart) hfollow names rfl

/-- A name is followed from the working directory. -/
theorem Named.start (h : directory.Named name) : directory.start name = .ok (.inside [], [name]) := by
  have hparts : Path.parts name = [name] := Path.parts_single h.isName.single
  -- The path of the working directory itself has another part or more than one.
  have hown : (Path.parts directory.path).isPrefixOf [name] = false := by
    rw [Bool.eq_false_iff, Ne, List.isPrefixOf_iff_prefix, List.prefix_cons_iff]
    rintro (hnil | ⟨rest, hsame, hrest⟩)
    · exact Path.parts_ne_nil directory.path hnil
    · rw [List.prefix_nil.mp hrest] at hsame
      exact h.ne_path (Path.parts_injective (hparts.trans hsame.symm))
  have hrelative : name.startsWith "/" = false := by
    rw [Bool.eq_false_iff, Ne, Path.startsWith_slash_iff]
    rintro ⟨rest, rfl⟩
    exact h.isName.single (by simp)
  have hshort : ¬ pathLimit ≤ name.utf8ByteSize :=
    Nat.not_le.mpr (h.short.trans_lt (by decide))
  rw [Directory.start, if_neg (by simp [h.nonzero]), if_neg hshort, if_neg h.isName.ne_empty,
    if_neg (by simp [hparts, hown]), if_neg (by simp [hrelative]), hparts]

theorem Named.follow (h : directory.Named name) :
    directory.follow (.inside []) name = .ok (.inside [name]) := by
  have hnontrivial : ¬ (name = "" ∨ name = ".") := h.isName.nontrivial
  refine bind_eq_ok.mpr ⟨(), requireDirectory_inside.mpr h.inDirectory, ?_⟩
  rw [if_neg hnontrivial, if_neg h.ne_parent, if_neg (Nat.not_lt.mpr h.short)]
  rfl

/-- A name leads to what has this name in the working directory. -/
theorem Named.locate (h : directory.Named name) :
    directory.locate name = .ok (.inside [name]) :=
  bind_eq_ok.mpr ⟨_, h.start, bind_eq_ok.mpr ⟨_, h.follow, rfl⟩⟩

/-! ## 3. Paths after a write -/

theorem requireDirectory_replaced (hbefore : before.entry? names ≠ some .directory)
    (h : before.Replaced names text after)
    (hrequired : before.requireDirectory location = .ok ()) :
    after.requireDirectory location = .ok () := by
  cases location with
  | inside other =>
    rw [requireDirectory_inside] at hrequired ⊢
    rw [h.others other fun hsame => hbefore (hsame ▸ hrequired), hrequired]
  | _ => exact hrequired

theorem followAll_replaced {parts : List String} (hbefore : before.entry? names ≠ some .directory)
    (h : before.Replaced names text after)
    (hfollow : parts.foldlM before.follow location = .ok next) :
    parts.foldlM after.follow location = .ok next := by
  induction parts generalizing location with
  | nil => exact hfollow
  | cons part rest ih =>
    rw [List.foldlM_cons] at hfollow ⊢
    obtain ⟨middle, hmiddle, hrest⟩ := bind_eq_ok.mp hfollow
    obtain ⟨⟨⟩, hrequired, hpart⟩ := bind_eq_ok.mp hmiddle
    have hrequired' := requireDirectory_replaced hbefore h hrequired
    exact bind_eq_ok.mpr ⟨middle, bind_eq_ok.mpr ⟨(), hrequired', hpart⟩, ih hrest⟩

/-- A path leads to the same location before and after the content of a file has been replaced. -/
theorem locate_replaced (hbefore : before.entry? names ≠ some .directory)
    (h : before.Replaced names text after) (hlocate : before.locate path = .ok location) :
    after.locate path = .ok location := by
  have hstart : after.start path = before.start path := by
    rw [start, start, h.path]
  obtain ⟨first, hfirst, hfollow⟩ := bind_eq_ok.mp hlocate
  rw [locate, hstart]
  exact bind_eq_ok.mpr ⟨first, hfirst, followAll_replaced hbefore h hfollow⟩

/-! ## 4. Reading -/

theorem fromUTF8?_eq_some_iff {content : ByteArray} :
    String.fromUTF8? content = some text ↔ content = text.toUTF8 := by
  constructor
  · intro h
    obtain ⟨hvalid, htext⟩ := Option.dite_none_right_eq_some.mp h
    cases htext
    rfl
  · rintro rfl
    exact dif_pos text.isValidUTF8

theorem contentAt_inside {content : ByteArray} :
    directory.contentAt (.inside names) = .ok content ↔
      directory.entry? names = some (.file content) := by
  rw [contentAt]
  cases directory.entry? names with
  | none => exact ⟨nofun, nofun⟩
  | some entry =>
    cases entry with
    | file other => simp
    | directory => exact ⟨nofun, nofun⟩

/-- A location has a content if a file is there, or a device, which is empty. -/
theorem contentAt_eq_ok_iff {content : ByteArray} :
    directory.contentAt location = .ok content ↔
      (∃ names, location = .inside names ∧ directory.entry? names = some (.file content)) ∨
      (∃ device, location = .device device) ∧ content = ByteArray.empty := by
  cases location with
  | inside names => simp [contentAt_inside]
  | device device => simp [contentAt, eq_comm]
  | _ => simp [contentAt]

theorem read_eq_ok :
    directory.read path = .ok text ↔ ∃ location,
      directory.locate path = .ok location ∧ directory.contentAt location = .ok text.toUTF8 := by
  rw [read, bind_eq_ok]
  refine exists_congr fun location => and_congr_right fun _ => ?_
  rw [bind_eq_ok]
  constructor
  · rintro ⟨content, hcontent, htext⟩
    split at htext
    next read hread =>
      cases htext
      rw [hcontent, fromUTF8?_eq_some_iff.mp hread]
    next => cases htext
  · intro hcontent
    refine ⟨_, hcontent, ?_⟩
    rw [fromUTF8?_eq_some_iff.mpr rfl]

/-- A path can be read if it leads to a file with a text, or to a device. -/
theorem read_eq_ok_iff :
    directory.read path = .ok text ↔
      (∃ names, directory.locate path = .ok (.inside names) ∧
        directory.entry? names = some (.file text.toUTF8)) ∨
      (∃ device, directory.locate path = .ok (.device device)) ∧ text = "" := by
  rw [read_eq_ok]
  constructor
  · rintro ⟨location, hlocate, hcontent⟩
    rcases contentAt_eq_ok_iff.mp hcontent with ⟨names, rfl, hentry⟩ | ⟨⟨device, rfl⟩, hbytes⟩
    · exact Or.inl ⟨names, hlocate, hentry⟩
    · exact Or.inr ⟨⟨device, hlocate⟩, String.toByteArray_inj.mp hbytes⟩
  · rintro (⟨names, hlocate, hentry⟩ | ⟨⟨device, hlocate⟩, rfl⟩)
    · exact ⟨_, hlocate, contentAt_inside.mpr hentry⟩
    · exact ⟨_, hlocate, rfl⟩

theorem isFile_iff :
    directory.isFile path = true ↔ ∃ names content, directory.locate path = .ok (.inside names) ∧
      directory.entry? names = some (.file content) := by
  rw [isFile]
  split
  next names hlocate =>
    have hcontent : (directory.contentAt (.inside names)).toBool = true ↔
        ∃ content, directory.entry? names = some (.file content) := by
      simp_rw [← contentAt_inside]
      cases directory.contentAt (.inside names) with
      | ok content => exact ⟨fun _ => ⟨content, rfl⟩, fun _ => rfl⟩
      | error error => exact ⟨nofun, nofun⟩
    rw [hcontent]
    constructor
    · rintro ⟨content, hentry⟩
      exact ⟨names, content, hlocate, hentry⟩
    · rintro ⟨other, content, hother, hentry⟩
      rw [hlocate] at hother
      cases hother
      exact ⟨content, hentry⟩
  next hother =>
    refine ⟨nofun, ?_⟩
    rintro ⟨names, content, hlocate, -⟩
    exact absurd hlocate (hother names)

/-- What can be seen of a directory is what is in it. -/
theorem fileSystem_shows (directory : Directory) :
    directory.Shows (fileSystem.view directory) where
  read _ _ := read_eq_ok_iff
  isFile _ := isFile_iff
  workingDirectory := rfl

/-! ## 5. Writing -/

/-- A write that succeeds is one to where the path leads. -/
theorem write_eq_ok (h : before.write path text = .ok after) :
    ∃ location, before.locate path = .ok location ∧ before.writeAt location text = .ok after := by
  obtain ⟨⟨location, parts⟩, hstart, hrest⟩ := bind_eq_ok.mp h
  simp only at hrest
  obtain ⟨parent, hparent, hlast⟩ := bind_eq_ok.mp hrest
  split at hlast
  · obtain ⟨-, -, hfails⟩ := bind_eq_ok.mp hlast
    cases hfails
  next hlength =>
    obtain ⟨target, htarget, hwrite⟩ := bind_eq_ok.mp hlast
    refine ⟨target, ?_, hwrite⟩
    -- No slash has been dropped from the end.
    have hparts : (parts.reverse.dropWhile (· == "")).reverse = parts :=
      (List.rdropWhile_prefix (· == "") parts).eq_of_length_le (Nat.not_lt.mp hlength)
    rw [hparts] at hparent htarget
    have hsplit : parts = parts.dropLast ++ parts.getLast?.toList := by
      rcases parts.eq_nil_or_concat with rfl | ⟨initial, last, rfl⟩
      · rfl
      · simp
    refine bind_eq_ok.mpr ⟨(location, parts), hstart, ?_⟩
    show parts.foldlM before.follow location = .ok target
    rw [hsplit, List.foldlM_append]
    exact bind_eq_ok.mpr ⟨parent, hparent, htarget⟩

theorem takes_iff : before.writeTo device text = .ok after ↔ before.Takes text device after := by
  constructor
  · intro h
    cases device with
    | null =>
      cases h
      exact .null
    | full =>
      rw [writeTo] at h
      split at h
      next hempty =>
        cases h
        exact .full hempty
      next => cases h
    | output =>
      cases h
      exact .output
    | errors =>
      cases h
      exact .errors
  · intro h
    cases h with
    | full hempty => exact if_pos hempty
    | _ => rfl

/-- A write that succeeds changes what the path leads to and nothing else. -/
theorem write_receives (h : before.write path text = .ok after) :
    before.Receives path text after := by
  obtain ⟨location, hlocate, hwrite⟩ := write_eq_ok h
  cases location with
  | inside names =>
    have hput : before.entry? names ≠ some .directory ∧ after = before.put names text.toUTF8 := by
      rw [writeAt] at hwrite
      split at hwrite
      · cases hwrite
      next hentry => exact ⟨hentry, (Except.ok.inj hwrite).symm⟩
    obtain ⟨hentry, rfl⟩ := hput
    have hreplaced := replaced_put (locate_encloses hlocate) text
    exact .file hlocate hentry hreplaced
      (read_eq_ok_iff.mpr (Or.inl ⟨names, locate_replaced hentry hreplaced hlocate,
        hreplaced.content⟩))
  | device device => exact .device hlocate (takes_iff.mp hwrite)
  | absent =>
    cases hwrite
    exact .absent hlocate
  | _ => cases hwrite

/-- A text can be written under a name that no directory has. -/
theorem Named.write (h : directory.Named name) (hentry : directory.entry? [name] ≠ some .directory)
    (text : String) : directory.write name text = .ok (directory.put [name] text.toUTF8) := by
  have hwrite : directory.writeAt (.inside [name]) text =
      .ok (directory.put [name] text.toUTF8) := by
    rw [writeAt]
    split
    next hdirectory => exact absurd hdirectory hentry
    next => rfl
  have htrimmed : ([name].reverse.dropWhile (· == "")).reverse = [name] := by
    simp [h.isName.ne_empty]
  refine bind_eq_ok.mpr ⟨_, h.start, ?_⟩
  simp only [htrimmed]
  exact bind_eq_ok.mpr ⟨.inside [], rfl,
    bind_eq_ok.mpr ⟨.inside [name], bind_eq_ok.mpr ⟨_, h.follow, rfl⟩, hwrite⟩⟩

/-- A write is kept if it has succeeded. -/
theorem run_keep (written : Except FileError Directory) (directory : Directory) :
    (keep written).run directory =
      match written with
      | .ok after => (.ok (), after)
      | .error error => (.error error, directory) := by
  cases written with
  | ok after => rfl
  | error error => rfl

theorem run_keep_eq_ok {written : Except FileError Directory} :
    (keep written).run before = (.ok (), after) ↔ written = .ok after := by
  rw [run_keep]
  cases written with
  | ok other =>
    constructor <;> intro h <;> cases h <;> rfl
  | error error => exact ⟨nofun, nofun⟩

theorem run_keep_eq_error {written : Except FileError Directory} {error : FileError}
    (h : (keep written).run before = (.error error, after)) : after = before := by
  rw [run_keep] at h
  split at h <;> cases h
  rfl

theorem receives_of_run (h : (fileSystem.write path text).run before = (.ok (), after)) :
    before.Receives path text after :=
  write_receives (run_keep_eq_ok.mp h)

theorem run_print_iff :
    (fileSystem.print text).run before = (.ok (), after) ↔
      before.Takes text before.console after :=
  Iff.trans run_keep_eq_ok takes_iff

theorem fileSystem_steady : fileSystem.Steady where
  read _ _ := rfl
  isFile _ _ := rfl
  workingDirectory _ := rfl
  write _ _ _ _ _ h := run_keep_eq_error h
  print _ _ _ _ h := run_keep_eq_error h

end Directory

end Templating
