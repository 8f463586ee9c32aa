import Mathlib.Data.List.TakeWhile
import Templating.Path

/-!
# Directories and names of paths

`Path.parent?` and `Path.hasExtension` look at the parts of a path from its end. What they find is
said here by rules on the text of a path. Its last part is its name, except that empty parts and
single dots at the end lead nowhere; its directory is what stands before the name, without such
parts at its end.

* `Path.IsName` are the parts that lead somewhere.
* `Path.Parent` is the directory that a path lies in, `Path.Within` the path of a name in a
  directory.
* `Path.EndsIn` is the name that a path ends in, `Path.Extension` what follows its last dot.

Results:
1. `partsBack_append`, `path_induction`: a path is one part, or a path, a slash and one part.
2. `parent?_eq_some_iff`: the directory of a path.
3. `join_eq_iff`: a name in a directory.
4. `fileName?_eq_some_iff`, `hasExtension_iff`: the name of a path and its extension.
-/

namespace Templating.Path

/-! ## Definitions -/

/-- Parts that lead nowhere. -/
def Trivial (part : String) : Prop := part = "" ∨ part = "."

structure IsName (part : String) : Prop where
  nontrivial : ¬ Trivial part
  single : '/' ∉ part.toList

/-- The directory that a path lies in.

* `plain`: a path without slashes lies in the working directory.
* `root`, `first`: before the last name there is the root, or one part that may be a dot.
* `inside`: before the last name there is another one.
* `between`, `after`: parts that lead nowhere make no difference before the last name or after
  it. -/
inductive Parent : String → String → Prop
  | plain {part : String} : part ≠ "" → '/' ∉ part.toList → Parent part ""
  | root {name : String} : IsName name → Parent ("/" ++ name) "/"
  | first {directory name : String} : directory ≠ "" → '/' ∉ directory.toList → IsName name →
      Parent (directory ++ "/" ++ name) directory
  | inside {outer inner name : String} : IsName inner → IsName name →
      Parent (outer ++ "/" ++ inner ++ "/" ++ name) (outer ++ "/" ++ inner)
  | between {start part name directory : String} : Trivial part → IsName name →
      Parent (start ++ "/" ++ name) directory →
      Parent (start ++ "/" ++ part ++ "/" ++ name) directory
  | after {path part directory : String} : Trivial part → Parent path directory →
      Parent (path ++ "/" ++ part) directory

/-- The path of a name in a directory. A slash is put between the two, unless the directory ends in
one or is the working directory. -/
inductive Within (name : String) : String → String → Prop
  | here : Within name "" name
  | slash {start : String} : Within name (start ++ "/") (start ++ "/" ++ name)
  | other {directory : String} : directory ≠ "" → (∀ start, directory ≠ start ++ "/") →
      Within name directory (directory ++ "/" ++ name)

/-- The name that a path ends in. Parts that lead nowhere make no difference after it. -/
inductive EndsIn (name : String) : String → Prop
  | plain : IsName name → name ≠ ".." → EndsIn name name
  | inside {directory : String} : IsName name → name ≠ ".." → EndsIn name (directory ++ "/" ++ name)
  | after {path part : String} : Trivial part → EndsIn name path → EndsIn name (path ++ "/" ++ part)

/-- A path ends in a name with an extension. A dot that the name begins with is part of the name. -/
def Extension (extension path : String) : Prop :=
  '.' ∉ extension.toList ∧ ∃ stem, stem ≠ "" ∧ EndsIn (stem ++ "." ++ extension) path

/-! ## 1. Parts -/

theorem Trivial.single {part : String} (h : Trivial part) : '/' ∉ part.toList := by
  rcases h with rfl | rfl <;> decide

theorem IsName.ne_empty {part : String} (h : IsName part) : part ≠ "" :=
  fun hempty => h.nontrivial (Or.inl hempty)

theorem parts_single {part : String} (h : '/' ∉ part.toList) : parts part = [part] := by
  rw [parts, List.splitOn_eq_singleton h, List.map_singleton, String.ofList_toList]

theorem partsBack_single {part : String} (h : '/' ∉ part.toList) : partsBack part = [part] := by
  rw [partsBack, parts_single h, List.reverse_singleton]

theorem partsBack_append (path : String) {part : String} (h : '/' ∉ part.toList) :
    partsBack (path ++ "/" ++ part) = part :: partsBack path := by
  have htext : (path ++ "/" ++ part).toList = path.toList ++ '/' :: part.toList := by simp
  rw [partsBack, parts, htext, List.splitOn_append_cons_self, List.splitOn_eq_singleton h,
    List.map_append, List.map_singleton, String.ofList_toList, List.reverse_append]
  rfl

theorem parts_ne_nil (path : String) : parts path ≠ [] := by
  simp [parts, List.splitOn_ne_nil]

theorem partsBack_ne_nil (path : String) : partsBack path ≠ [] :=
  List.reverse_ne_nil_iff.mpr (parts_ne_nil path)

/-- A path is its parts with slashes between them. -/
theorem intercalate_parts (path : String) : "/".intercalate (parts path) = path := by
  have hsingle : "/".toList = ['/'] := rfl
  rw [← String.toList_inj, String.toList_intercalate, parts, List.map_map, hsingle]
  simp [List.intercalate_splitOn]

theorem intercalate_partsBack (path : String) :
    "/".intercalate (partsBack path).reverse = path := by
  rw [partsBack, List.reverse_reverse, intercalate_parts]

theorem parts_injective : Function.Injective parts :=
  Function.LeftInverse.injective intercalate_parts

/-- A path is one part, or a path, a slash and one part. -/
theorem path_induction {motive : String → Prop}
    (single : ∀ part : String, '/' ∉ part.toList → motive part)
    (append : ∀ path part : String, '/' ∉ part.toList → motive path →
      motive (path ++ "/" ++ part)) (path : String) : motive path := by
  induction hlength : path.length using Nat.strongRecOn generalizing path with
  | ind length ih =>
    by_cases hslash : '/' ∈ path.toList
    · obtain ⟨back, front, hback, hpart⟩ :=
        List.eq_append_cons_of_mem (List.mem_reverse.mpr hslash)
      have hpath : path = String.ofList front.reverse ++ "/" ++ String.ofList back.reverse := by
        rw [← String.toList_inj, ← List.reverse_reverse path.toList, hback]
        simp
      rw [hpath]
      refine append _ _ (by simpa using hpart) (ih _ ?_ _ rfl)
      have hslashLength : "/".length = 1 := rfl
      rw [← hlength, hpath, String.length_append, String.length_append, hslashLength]
      omega
    · exact single path hslash

/-! ## 2. Directories -/

theorem dropTrivial_trivial {part : String} (h : Trivial part) {rest : List String}
    (hrest : rest ≠ []) : dropTrivial (part :: rest) = dropTrivial rest := by
  rw [dropTrivial]
  · exact if_pos h
  · exact hrest

theorem dropTrivial_name {part : String} (h : ¬ Trivial part) (rest : List String) :
    dropTrivial (part :: rest) = part :: rest := by
  cases rest with
  | nil => rfl
  | cons next rest =>
    rw [dropTrivial]
    · exact if_neg h
    · exact List.cons_ne_nil next rest

theorem parent?_single {part : String} (h : '/' ∉ part.toList) :
    parent? part = if part = "" then none else some "" := by
  by_cases hempty : part = ""
  · subst hempty
    rfl
  · rw [parent?, partsBack_single h, if_neg hempty]
    simp [dropTrivial, hempty, ofPartsBack]

/-- Parts after the last name lead nowhere. -/
theorem parent?_trivial (path : String) {part : String} (h : Trivial part) :
    parent? (path ++ "/" ++ part) = parent? path := by
  rw [parent?, partsBack_append path h.single, dropTrivial_trivial h (partsBack_ne_nil path),
    ← parent?]

/-- The directory is what stands before the last name. -/
theorem parent?_name (path : String) {name : String} (h : IsName name) :
    parent? (path ++ "/" ++ name) = some (ofPartsBack (dropTrivial (partsBack path))) := by
  rw [parent?, partsBack_append path h.single, dropTrivial_name h.nontrivial]
  simp [h.ne_empty]

theorem ofPartsBack_name (path : String) {name : String} (h : IsName name) :
    ofPartsBack (dropTrivial (partsBack (path ++ "/" ++ name))) = path ++ "/" ++ name := by
  rw [partsBack_append path h.single, dropTrivial_name h.nontrivial,
    ← partsBack_append path h.single, ofPartsBack, if_neg, intercalate_partsBack]
  rw [partsBack_append path h.single]
  simp [partsBack_ne_nil]

theorem ofPartsBack_single {part : String} (h : '/' ∉ part.toList) :
    ofPartsBack (dropTrivial (partsBack part)) = if part = "" then "/" else part := by
  have hpart := intercalate_partsBack part
  rw [partsBack_single h] at hpart ⊢
  rw [dropTrivial, ofPartsBack, hpart]
  simp

/-- Before a name, the parts that lead nowhere are left out. -/
theorem parent_name (path : String) {name : String} (h : IsName name) :
    Parent (path ++ "/" ++ name) (ofPartsBack (dropTrivial (partsBack path))) := by
  induction path using path_induction with
  | single part hpart =>
    rw [ofPartsBack_single hpart]
    split
    next hempty =>
      subst hempty
      rw [String.empty_append]
      exact .root h
    next hnonempty => exact .first hnonempty hpart h
  | append path part hpart ih =>
    by_cases htrivial : Trivial part
    · rw [partsBack_append path hpart, dropTrivial_trivial htrivial (partsBack_ne_nil path)]
      exact .between htrivial h ih
    · rw [ofPartsBack_name path ⟨htrivial, hpart⟩]
      exact .inside ⟨htrivial, hpart⟩ h

/-- The directory of a path. -/
theorem parent?_eq_some_iff {path directory : String} :
    parent? path = some directory ↔ Parent path directory := by
  constructor
  · intro h
    induction path using path_induction with
    | single part hpart =>
      rw [parent?_single hpart] at h
      split at h
      next => cases h
      next hnonempty =>
        cases h
        exact .plain hnonempty hpart
    | append path part hpart ih =>
      by_cases htrivial : Trivial part
      · rw [parent?_trivial path htrivial] at h
        exact .after htrivial (ih h)
      · rw [parent?_name path ⟨htrivial, hpart⟩] at h
        cases h
        exact parent_name path ⟨htrivial, hpart⟩
  · intro h
    induction h with
    | plain hnonempty hpart => rw [parent?_single hpart, if_neg hnonempty]
    | @root name hname =>
      have htext : "/" ++ name = "" ++ "/" ++ name := by rw [String.empty_append]
      rw [htext, parent?_name "" hname, ofPartsBack_single (by decide), if_pos rfl]
    | first hnonempty hdirectory hname =>
      rw [parent?_name _ hname, ofPartsBack_single hdirectory, if_neg hnonempty]
    | inside hinner hname => rw [parent?_name _ hname, ofPartsBack_name _ hinner]
    | @between start part name directory hpart hname _ ih =>
      rw [parent?_name _ hname] at ih ⊢
      rw [partsBack_append start hpart.single, dropTrivial_trivial hpart (partsBack_ne_nil start), ih]
    | after hpart _ ih => rw [parent?_trivial _ hpart, ih]

/-! ## 3. Names in directories -/

theorem startsWith_slash_iff {text : String} :
    text.startsWith "/" = true ↔ ∃ rest, text = "/" ++ rest := by
  have hsingle : "/".toList = ['/'] := rfl
  rw [String.startsWith_eq_startsWith_toSlice, String.Slice.startsWith_string_iff,
    String.copy_toSlice, hsingle]
  constructor
  · rintro ⟨rest, hrest⟩
    refine ⟨String.ofList rest, ?_⟩
    rw [← String.toList_inj, ← hrest]
    simp
  · rintro ⟨rest, rfl⟩
    exact ⟨rest.toList, by simp⟩

theorem endsWith_slash_iff {text : String} :
    text.endsWith "/" = true ↔ ∃ start, text = start ++ "/" := by
  have hsingle : "/".toList = ['/'] := rfl
  rw [String.endsWith_eq_endsWith_toSlice, String.Slice.endsWith_string_iff, String.copy_toSlice,
    hsingle]
  constructor
  · rintro ⟨start, hstart⟩
    refine ⟨String.ofList start, ?_⟩
    rw [← String.toList_inj, ← hstart]
    simp
  · rintro ⟨start, rfl⟩
    exact ⟨start.toList, by simp⟩

/-- A name in a directory. -/
theorem join_eq_iff {name directory path : String} :
    join directory name = path ↔ Within name directory path := by
  rw [join]
  constructor
  · rintro rfl
    split
    next hempty =>
      subst hempty
      exact .here
    next hnonempty =>
      split
      next hslash =>
        obtain ⟨start, rfl⟩ := endsWith_slash_iff.mp hslash
        exact .slash
      next hslash =>
        exact .other hnonempty fun start hstart => hslash (endsWith_slash_iff.mpr ⟨start, hstart⟩)
  · intro h
    cases h with
    | here => exact if_pos rfl
    | @slash start =>
      rw [if_neg, if_pos (endsWith_slash_iff.mpr ⟨start, rfl⟩)]
      simp
    | other hnonempty hslash =>
      rw [if_neg hnonempty, if_neg]
      rintro hends
      obtain ⟨start, hstart⟩ := endsWith_slash_iff.mp hends
      exact hslash start hstart

/-! ## 4. Names -/

theorem fileName?_name {path part : String} {rest : List String}
    (hparts : partsBack path = part :: rest) (h : ¬ Trivial part) :
    fileName? path = if part = ".." then none else some part := by
  have hname : (part = "" ∨ part = "." ∨ part = "..") ↔ part = ".." :=
    or_assoc.symm.trans (or_iff_right h)
  rw [fileName?, hparts, dropTrivial_name h]
  exact if_congr hname rfl rfl

/-- The name of a path is its last part that leads somewhere. -/
theorem fileName?_eq_some_iff {path name : String} :
    fileName? path = some name ↔ EndsIn name path := by
  constructor
  · intro h
    induction path using path_induction with
    | single part hpart =>
      by_cases htrivial : Trivial part
      · rcases htrivial with rfl | rfl <;> cases h
      · rw [fileName?_name (partsBack_single hpart) htrivial] at h
        obtain ⟨hup, hname⟩ := Option.ite_none_left_eq_some.mp h
        cases hname
        exact .plain ⟨htrivial, hpart⟩ hup
    | append path part hpart ih =>
      by_cases htrivial : Trivial part
      · rw [fileName?, partsBack_append path hpart, dropTrivial_trivial htrivial
          (partsBack_ne_nil path)] at h
        exact .after htrivial (ih h)
      · rw [fileName?_name (partsBack_append path hpart) htrivial] at h
        obtain ⟨hup, hname⟩ := Option.ite_none_left_eq_some.mp h
        cases hname
        exact .inside ⟨htrivial, hpart⟩ hup
  · intro h
    induction h with
    | plain hname hup =>
      rw [fileName?_name (partsBack_single hname.single) hname.nontrivial, if_neg hup]
    | inside hname hup =>
      rw [fileName?_name (partsBack_append _ hname.single) hname.nontrivial, if_neg hup]
    | @after path part hpart _ ih =>
      rw [fileName?, partsBack_append path hpart.single, dropTrivial_trivial hpart
        (partsBack_ne_nil path)]
      exact ih

theorem all_ne_dot {cs : List Char} (h : '.' ∉ cs) : ∀ c ∈ cs, (c != '.') = true :=
  fun _ hc => bne_iff_ne.mpr fun hdot => h (hdot ▸ hc)

theorem takeWhile_dot {last : List Char} (h : '.' ∉ last) (first : List Char) :
    (last ++ '.' :: first).takeWhile (· != '.') = last := by
  rw [List.takeWhile_append_of_pos (all_ne_dot h), List.takeWhile_cons_of_neg (by simp),
    List.append_nil]

/-- What stands before the first dot, if there is one and something follows it. -/
theorem takeWhile_dot_iff {back last : List Char} :
    back.takeWhile (· != '.') = last ∧ last.length + 1 < back.length ↔
      '.' ∉ last ∧ ∃ first, first ≠ [] ∧ back = last ++ '.' :: first := by
  constructor
  · rintro ⟨rfl, hlength⟩
    by_cases hdot : '.' ∈ back
    · obtain ⟨last, first, rfl, hlast⟩ := List.eq_append_cons_of_mem hdot
      rw [takeWhile_dot hlast] at hlength ⊢
      refine ⟨hlast, first, ?_, rfl⟩
      rintro rfl
      simp at hlength
    · rw [List.takeWhile_eq_self_iff.mpr (all_ne_dot hdot)] at hlength
      omega
  · rintro ⟨hlast, first, hfirst, rfl⟩
    have hpos : 0 < first.length := List.length_pos_iff.mpr hfirst
    refine ⟨takeWhile_dot hlast first, ?_⟩
    rw [List.length_append, List.length_cons]
    omega

/-- What stands after the last dot of a name, if there is one and something stands before it. -/
theorem takeWhile_reverse_iff {name extension : String} :
    name.toList.reverse.takeWhile (· != '.') = extension.toList.reverse ∧
        extension.toList.reverse.length + 1 < name.toList.reverse.length ↔
      '.' ∉ extension.toList ∧ ∃ stem, stem ≠ "" ∧ name = stem ++ "." ++ extension := by
  rw [takeWhile_dot_iff, List.mem_reverse]
  refine and_congr_right fun _ => ?_
  constructor
  · rintro ⟨first, hfirst, hname⟩
    refine ⟨String.ofList first.reverse, ?_, ?_⟩
    · simpa using hfirst
    · rw [← String.toList_inj, List.reverse_eq_iff.mp hname]
      simp
  · rintro ⟨stem, hstem, rfl⟩
    exact ⟨stem.toList.reverse, by simpa using hstem, by simp⟩

/-- The extension of a path is that of its name. -/
theorem hasExtension_iff {path extension : String} :
    hasExtension path extension = true ↔ Extension extension path := by
  rw [hasExtension, Extension]
  cases hfile : fileName? path with
  | none =>
    refine ⟨nofun, ?_⟩
    rintro ⟨-, stem, -, hends⟩
    rw [fileName?_eq_some_iff.mpr hends] at hfile
    cases hfile
  | some name =>
    have hname : ∀ other, EndsIn other path ↔ name = other := fun other => by
      rw [← fileName?_eq_some_iff, hfile, Option.some_inj]
    have hstem : (∃ stem, stem ≠ "" ∧ EndsIn (stem ++ "." ++ extension) path) ↔
        ∃ stem, stem ≠ "" ∧ name = stem ++ "." ++ extension :=
      exists_congr fun stem => and_congr_right fun _ => hname _
    rw [hstem, ← takeWhile_reverse_iff, Bool.and_eq_true, beq_iff_eq, decide_eq_true_iff,
      List.reverse_eq_iff]
    exact and_congr_right fun hlast => by rw [hlast]

end Templating.Path
