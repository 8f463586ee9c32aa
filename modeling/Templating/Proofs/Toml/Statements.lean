import Templating.Proofs.Toml.Drafts
import Templating.Proofs.Toml.Values

/-!
# Printed statements

The statements of a document are read one after another, each with what the draft has become by
then. A statement that is printed is a header or a line, and it is refused if its key has too many
parts or its value is nested too deeply.

* `Steps`: reading goes on with another draft and the rest of the text.
* `Refuses`: reading ends in an error.

Results:
1. `Steps.trans`, `Steps.refuses`: statements follow one another.
2. `steps_header`, `refuses_header`: a header opens its section.
3. `steps_lines`, `refuses_lines`: the lines under it add their values to the section.
-/

namespace Templating.Toml

open Reader

/-! ## 1. Reading on -/

/-- Reading goes on with another draft and the rest of the text. -/
def Steps (draft : Draft) (cs : List Char) (next : Draft) (rest : List Char) : Prop :=
  ∀ fuel, cs.length < fuel →
    ∃ left, rest.length < left ∧ statements fuel draft cs = statements left next rest

/-- Reading ends in an error. -/
def Refuses (draft : Draft) (cs : List Char) : Prop :=
  ∀ fuel, cs.length < fuel → ∃ error, statements fuel draft cs = .error error

section

variable {draft next last : Draft} {cs rest after : List Char}

theorem Steps.refl (draft : Draft) (cs : List Char) : Steps draft cs draft cs :=
  fun fuel hfuel => ⟨fuel, hfuel, rfl⟩

theorem Steps.trans (h : Steps draft cs next rest) (hrest : Steps next rest last after) :
    Steps draft cs last after := by
  intro fuel hfuel
  obtain ⟨left, hleft, hfirst⟩ := h fuel hfuel
  obtain ⟨end', hend, hsecond⟩ := hrest left hleft
  exact ⟨end', hend, hfirst.trans hsecond⟩

theorem Steps.refuses (h : Steps draft cs next rest) (hrest : Refuses next rest) :
    Refuses draft cs := by
  intro fuel hfuel
  obtain ⟨left, hleft, hfirst⟩ := h fuel hfuel
  obtain ⟨error, hsecond⟩ := hrest left hleft
  exact ⟨error, hfirst.trans hsecond⟩

/-- One statement is read with one unit of fuel. -/
theorem steps_of_eq (hlength : rest.length < cs.length)
    (h : ∀ fuel, statements (fuel + 1) draft cs = statements fuel next rest) :
    Steps draft cs next rest := by
  intro fuel hfuel
  obtain ⟨fuel, rfl⟩ := Nat.exists_eq_add_one_of_ne_zero (Nat.ne_zero_of_lt hfuel)
  exact ⟨fuel, by omega, h fuel⟩

theorem refuses_of_eq (h : ∀ fuel, statements (fuel + 1) draft cs = .error .malformed) :
    Refuses draft cs := by
  intro fuel hfuel
  obtain ⟨fuel, rfl⟩ := Nat.exists_eq_add_one_of_ne_zero (Nat.ne_zero_of_lt hfuel)
  exact ⟨.malformed, h fuel⟩

theorem steps_newline (draft : Draft) (rest : List Char) : Steps draft ('\n' :: rest) draft rest :=
  steps_of_eq (Nat.lt_succ_self _) fun _ => rfl

end

/-! ## 2. Headers -/

/-- A header between as many brackets as its kind of section has. -/
def headerText (isElement : Bool) (path : List String) : List Char :=
  let brackets := if isElement then 2 else 1
  List.replicate brackets '[' ++ pathText path ++ List.replicate brackets ']'

/-- Opens the section of a header. -/
def Draft.openSection (draft : Draft) (isElement : Bool) (path : List String) (name : String) :
    Except Error Draft :=
  if isElement then draft.openElement path name else draft.openTable path name

theorem pathText_head (path : List String) (name : String) :
    ∃ c cs, pathText (path ++ [name]) = c :: cs ∧
      (isBareKeyChar c = true ∨ c = '"' ∨ c = '\'') := by
  obtain ⟨first, more, hcons⟩ :=
    List.exists_cons_of_ne_nil (List.append_ne_nil_of_right_ne_nil path (List.cons_ne_nil name []))
  obtain ⟨c, cs, hkey, hc⟩ := keyText_head first
  rw [hcons]
  cases more with
  | nil =>
    refine ⟨c, cs, ?_, hc⟩
    simp only [pathText, List.map_cons, List.map_nil, List.intercalate_singleton, hkey]
  | cons next more => exact ⟨c, _, by rw [pathText_cons, hkey, List.cons_append], hc⟩

theorem header?_pathText (isElement : Bool) (path : List String) (name : String)
    (rest : List Char) :
    header? (List.replicate (if isElement then 2 else 1) ']')
        (pathText (path ++ [name]) ++
          (List.replicate (if isElement then 2 else 1) ']' ++ '\n' :: rest)) =
      someIf (path.length + 1 < limit) ((path, name), rest) := by
  cases isElement with
  | true =>
    have hkey := key?_pathText path name [] (fun _ hc => absurd hc List.not_mem_nil)
      (.header (']' :: '\n' :: rest))
    rw [header?]
    refine Eq.trans (congrArg (Option.bind · _) hkey) (?_ : (someIf _ _).bind _ = _)
    refine (someIf_bind (q := True) ?_).trans (someIf_congr (and_iff_left trivial) _)
    rfl
  | false =>
    have hkey := key?_pathText path name [] (fun _ hc => absurd hc List.not_mem_nil)
      (.header ('\n' :: rest))
    rw [header?]
    refine Eq.trans (congrArg (Option.bind · _) hkey) (?_ : (someIf _ _).bind _ = _)
    refine (someIf_bind (q := True) ?_).trans (someIf_congr (and_iff_left trivial) _)
    rfl

/-- A header with brackets before and after its key is read, then its section is opened. -/
theorem statements_header (isElement : Bool) (draft : Draft) (path : List String) (name : String)
    (rest : List Char) (fuel : Nat) :
    statements (fuel + 1) draft (headerText isElement (path ++ [name]) ++ '\n' :: rest) =
      (orMalformed (someIf (path.length + 1 < limit) ((path, name), rest))).bind fun read =>
        (draft.openSection isElement read.1.1 read.1.2).bind fun draft =>
          statements fuel draft read.2 := by
  have hheader := header?_pathText isElement path name rest
  obtain ⟨c, cs, hpath, hc⟩ := pathText_head path name
  cases isElement with
  | true =>
    have htext : headerText true (path ++ [name]) ++ '\n' :: rest = '[' :: '[' ::
        (pathText (path ++ [name]) ++ ([']', ']'] ++ '\n' :: rest)) := by
      simp [headerText, List.replicate_succ]
    rw [htext, ← hheader]
    rfl
  | false =>
    have htext : headerText false (path ++ [name]) ++ '\n' :: rest = '[' ::
        (pathText (path ++ [name]) ++ ([']'] ++ '\n' :: rest)) := by
      simp [headerText, List.replicate_succ]
    have hskip : ∀ cs, skipBlank ('[' :: cs) = '[' :: cs := fun _ => rfl
    rw [htext, ← hheader, statements, hskip]
    split
    · next heq => cases heq
    · next heq =>
      rw [hpath] at heq
      obtain rfl := (List.cons.inj (List.cons.inj heq).2).1
      exact absurd hc (by decide)
    · next heq =>
      rw [← (List.cons.inj heq).2]
      rfl
    · next hbracket heq => exact absurd (List.cons.inj heq).1.symm hbracket

variable {draft opened : Draft} {path : List String} {name : String} {isElement : Bool}

theorem steps_header (hlimit : path.length + 1 < limit)
    (hopen : draft.openSection isElement path name = .ok opened) (rest : List Char) :
    Steps draft (headerText isElement (path ++ [name]) ++ '\n' :: rest) opened rest := by
  refine steps_of_eq (by simp only [List.length_append, List.length_cons]; omega) fun fuel => ?_
  rw [statements_header, someIf_pos hlimit]
  simp only [orMalformed, Except.bind, hopen]

theorem refuses_header (hlimit : ¬ path.length + 1 < limit) (rest : List Char) :
    Refuses draft (headerText isElement (path ++ [name]) ++ '\n' :: rest) := by
  refine refuses_of_eq fun fuel => ?_
  rw [statements_header, someIf_neg hlimit]
  rfl

/-! ## 3. Lines -/

/-- The lines of some fields. -/
def linesText (fields : List (String × Toml)) : List Char :=
  (fieldTexts fields).flatMap (· ++ ['\n'])

/-- A line is read as a key and a value, and the value is added to the open section. -/
theorem statements_line {value : Toml} (hvalue : value.WellFormed) (draft : Draft) (name : String)
    (rest : List Char) (fuel : Nat) :
    statements (fuel + 1) draft (assignment name (valueText value) ++ '\n' :: rest) =
      (orMalformed (someIf (value.nesting < limit) value.item)).bind fun item =>
        (draft.addValue [] name item).bind fun draft => statements fuel draft rest := by
  have hread : keyValue? (value? (limit - 1)) (assignment name (valueText value) ++ '\n' :: rest) =
      someIf (value.nesting ≤ limit - 1) ((([], name), value.item), '\n' :: rest) :=
    keyValue?_assignment name [] hvalue (value?_text hvalue (limit - 1))
      (fun _ hc => absurd hc List.not_mem_nil) (.line rest)
  have hskip : skipBlank (assignment name (valueText value) ++ '\n' :: rest) =
      assignment name (valueText value) ++ '\n' :: rest := by
    rw [assignment, List.append_assoc, List.append_assoc]
    exact skipBlank_keyText name _
  obtain ⟨c, cs, hcons, hc⟩ : ∃ c cs, assignment name (valueText value) ++ '\n' :: rest = c :: cs ∧
      (isBareKeyChar c = true ∨ c = '"' ∨ c = '\'') := by
    obtain ⟨c, cs, hkey, hc⟩ := keyText_head name
    exact ⟨c, _, by rw [assignment, hkey]; rfl, hc⟩
  have hother : ¬ (c = '#' ∨ c = '\n' ∨ c = '\r') := by
    rintro (rfl | rfl | rfl) <;> exact absurd hc (by decide)
  rw [statements, hskip, hcons]
  rw [hcons] at hread
  split
  · next heq => cases heq
  · next heq =>
    obtain rfl := (List.cons.inj heq).1
    exact absurd hc (by decide)
  · next heq =>
    obtain rfl := (List.cons.inj heq).1
    exact absurd hc (by decide)
  · next heq =>
    obtain ⟨rfl, rfl⟩ := List.cons.inj heq
    have hlimit : value.nesting ≤ limit - 1 ↔ value.nesting < limit :=
      Nat.le_sub_one_iff_lt (by decide)
    rw [if_neg hother, hread, someIf_congr hlimit]
    by_cases hdepth : value.nesting < limit
    · rw [someIf_pos hdepth, someIf_pos hdepth]
      rfl
    · rw [someIf_neg hdepth, someIf_neg hdepth]
      rfl

theorem linesText_cons (name : String) (value : Toml) (fields : List (String × Toml))
    (rest : List Char) :
    linesText ((name, value) :: fields) ++ rest =
      assignment name (valueText value) ++ '\n' :: (linesText fields ++ rest) := by
  simp [linesText, fieldTexts]

/-- The lines under a header add their values to its section. -/
theorem steps_lines {fields : List (String × Toml)} (hfields : ∀ field ∈ fields, field.2.WellFormed)
    (hdepth : ∀ field ∈ fields, field.2.nesting < limit)
    (hnodup : (draft.entries.map Prod.fst ++ fields.map Prod.fst).Nodup) (rest : List Char) :
    Steps draft (linesText fields ++ rest)
      { draft with entries := draft.entries ++ inlineEntries fields } rest := by
  induction fields generalizing draft with
  | nil =>
    rw [inlineEntries, List.append_nil]
    exact Steps.refl draft rest
  | cons field fields ih =>
    obtain ⟨name, value⟩ := field
    have hnew : name ∉ draft.entries.map Prod.fst := fun hmem =>
      (List.nodup_append.mp hnodup).2.2 name hmem name List.mem_cons_self rfl
    have hadd : draft.addValue [] name value.item =
        .ok { draft with entries := draft.entries ++ [(name, value.item)] } :=
      Draft.addValue_new hnew rfl
    have hrest := @ih { draft with entries := draft.entries ++ [(name, value.item)] }
      (fun other h => hfields other (List.mem_cons_of_mem _ h))
      (fun other h => hdepth other (List.mem_cons_of_mem _ h)) (by simpa using hnodup)
    rw [linesText_cons]
    refine Steps.trans (steps_of_eq ?_ fun fuel => ?_) (by simpa [inlineEntries] using hrest)
    · simp only [List.length_append, List.length_cons]
      omega
    · rw [statements_line (hfields _ List.mem_cons_self), someIf_pos (hdepth _ List.mem_cons_self)]
      simp only [orMalformed, Except.bind, hadd]

/-- A value that is nested too deeply is refused, wherever it stands. -/
theorem refuses_lines {fields : List (String × Toml)}
    (hfields : ∀ field ∈ fields, field.2.WellFormed)
    (hdepth : ¬ ∀ field ∈ fields, field.2.nesting < limit)
    (hnodup : (draft.entries.map Prod.fst ++ fields.map Prod.fst).Nodup) (rest : List Char) :
    Refuses draft (linesText fields ++ rest) := by
  induction fields generalizing draft with
  | nil => exact absurd (fun _ h => absurd h List.not_mem_nil) hdepth
  | cons field fields ih =>
    obtain ⟨name, value⟩ := field
    by_cases hfirst : value.nesting < limit
    · have hdeep : ¬ ∀ field ∈ fields, field.2.nesting < limit := by
        intro h
        exact hdepth (List.forall_mem_cons.mpr ⟨hfirst, h⟩)
      have hsteps := @steps_lines draft [(name, value)]
        (fun other h => hfields other (List.mem_cons.mpr (.inl (List.mem_singleton.mp h))))
        (fun other h => (List.mem_singleton.mp h) ▸ hfirst)
        (hnodup.sublist (List.Sublist.append_left (by simp) _)) (linesText fields ++ rest)
      have hnames : ((draft.entries ++ inlineEntries [(name, value)]).map Prod.fst ++
          fields.map Prod.fst).Nodup := by
        simpa [inlineEntries] using hnodup
      have hrest := @ih { draft with entries := draft.entries ++ inlineEntries [(name, value)] }
        (fun other h => hfields other (List.mem_cons_of_mem _ h)) hdeep hnames
      rw [linesText_cons] at hsteps ⊢
      exact hsteps.refuses hrest
    · rw [linesText_cons]
      refine refuses_of_eq fun fuel => ?_
      rw [statements_line (hfields _ List.mem_cons_self), someIf_neg hfirst]
      rfl

end Templating.Toml
