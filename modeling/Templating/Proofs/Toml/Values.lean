import Templating.Proofs.Fields
import Templating.Proofs.Toml.Numbers
import Templating.Proofs.Toml.Strings

/-!
# Printed TOML values

The text on the right of an equals sign is read back, as long as arrays and inline tables are not
nested too deeply in it. Otherwise it is refused.

* `Toml.WellFormed`: the values that a document can give.
* `Toml.nesting`: how deeply arrays and inline tables are nested.
* `Toml.item`: what the text of a value is read as.

Results:
1. `startsValue_text`: how the text of a value begins.
2. `arrayItems?_single`, `arrayItems?_lines`: the items of an array are read back.
3. `keyValue?_assignment`, `inlineEntries?_text`: so are the fields of an inline table.
4. `value?_text`: a printed value is read back, or refused if it is nested too deeply.
-/

namespace Templating.Toml

open Reader

/-! ## Definitions -/

/-- A scalar that can stand in a document. -/
def IsScalar : Toml → Prop
  | string _ | float _ | boolean _ => True
  | integer n => Json.minSigned ≤ n ∧ n < -Json.minSigned
  | dateTime d => d.Valid
  | array _ | table _ => False

/-- What a document can give: integers of 64 bits, valid date-times and sorted tables. -/
inductive WellFormed : Toml → Prop
  | scalar {value : Toml} (h : value.IsScalar) : WellFormed value
  | array {items : List Toml} (h : ∀ item ∈ items, WellFormed item) : WellFormed (array items)
  | table {fields : List (String × Toml)} (hsorted : Fields.Sorted fields)
    (h : ∀ field ∈ fields, WellFormed field.2) : WellFormed (table fields)

mutual

/-- How deeply arrays and inline tables are nested in the text of a value. -/
def nesting : Toml → Nat
  | array items => nestingItems items + 1
  | table fields => nestingFields fields + 1
  | _ => 0

def nestingItems : List Toml → Nat
  | [] => 0
  | item :: rest => max item.nesting (nestingItems rest)

def nestingFields : List (String × Toml) → Nat
  | [] => 0
  | (_, value) :: rest => max value.nesting (nestingFields rest)

end

mutual

/-- What the text of a value is read as. -/
def item : Toml → Item
  | array items => .array (arrayItems items)
  | table fields => .table .braces (inlineEntries fields)
  | value => .scalar value

def arrayItems : List Toml → List Item
  | [] => []
  | value :: rest => value.item :: arrayItems rest

def inlineEntries : List (String × Toml) → Entries
  | [] => []
  | (name, value) :: rest => (name, value.item) :: inlineEntries rest

end

/-- What is read under a condition. -/
def someIf {α : Type} (condition : Prop) [Decidable condition] (value : α) : Option α :=
  if condition then some value else none

/-- The text of a value is read back if it is not nested more deeply than a bound. -/
def ReadsBack (depth : Nat) (value : Toml) : Prop :=
  ∀ rest, EndsValue rest →
    value? depth (valueText value ++ rest) = someIf (value.nesting ≤ depth) (value.item, rest)

/-- How the text of a value can begin. -/
def StartsValue (cs : List Char) : Prop :=
  ∃ c rest, cs = c :: rest ∧ isBlank c = false ∧ c ≠ '#' ∧ c ≠ '\n' ∧ c ≠ '\r' ∧ c ≠ ']'

section

variable {fields : List (String × Toml)}

theorem WellFormed.sorted (h : (Toml.table fields).WellFormed) : Fields.Sorted fields := by
  cases h with
  | scalar h => exact h.elim
  | table hsorted h => exact hsorted

theorem WellFormed.field (h : (Toml.table fields).WellFormed) {field : String × Toml}
    (hfield : field ∈ fields) : field.2.WellFormed := by
  cases h with
  | scalar h => exact h.elim
  | table hsorted h => exact h field hfield

end

/-! ## 1. How a value begins -/

section

variable {α β : Type} {p q : Prop} [Decidable p] [Decidable q]

theorem someIf_pos (h : p) (a : α) : someIf p a = some a := if_pos h

theorem someIf_neg (h : ¬ p) (a : α) : someIf p a = none := if_neg h

/-- What is read after another part is read under both conditions. -/
theorem someIf_bind {f : α → Option β} {a : α} {b : β} (h : f a = someIf q b) :
    (someIf p a).bind f = someIf (p ∧ q) b := by
  by_cases hp : p
  · by_cases hq : q
    · rw [someIf_pos hp, Option.bind_some, h, someIf_pos hq, someIf_pos ⟨hp, hq⟩]
    · rw [someIf_pos hp, Option.bind_some, h, someIf_neg hq, someIf_neg fun hpq => hq hpq.2]
  · rw [someIf_neg hp, Option.bind_none, someIf_neg fun hpq => hp hpq.1]

theorem someIf_congr (h : p ↔ q) (a : α) : someIf p a = someIf q a := by
  by_cases hp : p
  · rw [someIf_pos hp, someIf_pos (h.mp hp)]
  · rw [someIf_neg hp, someIf_neg fun hq => hp (h.mpr hq)]

theorem someIf_map (f : α → β) (a : α) : (someIf p a).map f = someIf p (f a) := by
  by_cases hp : p
  · rw [someIf_pos hp, someIf_pos hp, Option.map_some]
  · rw [someIf_neg hp, someIf_neg hp, Option.map_none]

end

theorem stringText_head (s : String) :
    ∃ c cs, stringText s = c :: cs ∧ (c = '"' ∨ c = '\'') := by
  unfold stringText
  dsimp only
  split_ifs
  · exact ⟨_, _, rfl, .inl rfl⟩
  · exact ⟨_, _, rfl, .inr rfl⟩
  · exact ⟨_, _, rfl, .inl rfl⟩
  · exact ⟨_, _, rfl, .inr rfl⟩
  · exact ⟨_, _, rfl, .inl rfl⟩
  · exact ⟨_, _, rfl, .inl rfl⟩

theorem StartsNumeric.startsValue {cs : List Char} (h : StartsNumeric cs) : StartsValue cs := by
  obtain ⟨c, rest, rfl, hother⟩ := h.head_ne
  have hblank : isBlank c = false := by
    rw [isBlank, Bool.or_eq_false_iff, beq_eq_false_iff_ne, beq_eq_false_iff_ne]
    exact ⟨hother ' ' (by decide), hother '\t' (by decide)⟩
  exact ⟨c, rest, rfl, hblank, hother '#' (by decide), hother '\n' (by decide),
    hother '\r' (by decide), hother ']' (by decide)⟩

theorem arrayText_head (texts : List (List Char)) : ∃ cs, arrayText texts = '[' :: cs := by
  unfold arrayText
  split <;> exact ⟨_, rfl⟩

theorem inlineTableText_head (texts : List (List Char)) :
    ∃ cs, inlineTableText texts = '\x7b' :: cs := by
  unfold inlineTableText
  split <;> exact ⟨_, rfl⟩

theorem startsValue_text {value : Toml} (h : value.WellFormed) (rest : List Char) :
    StartsValue (valueText value ++ rest) := by
  cases h with
  | scalar h =>
    cases value with
    | string s =>
      obtain ⟨c, cs, htext, hc⟩ := stringText_head s
      rw [valueText, htext]
      rcases hc with rfl | rfl <;> exact ⟨_, _, rfl, rfl, by decide⟩
    | integer n => exact (startsNumeric_integer n).startsValue
    | float x => exact (startsNumeric_float x).startsValue
    | boolean b => cases b <;> exact ⟨_, _, rfl, rfl, by decide⟩
    | dateTime d => exact (startsNumeric_dateTime h).startsValue
    | array items => exact h.elim
    | table fields => exact h.elim
  | array h =>
    obtain ⟨cs, htext⟩ := arrayText_head (itemTexts _)
    rw [valueText, htext]
    exact ⟨_, _, rfl, rfl, by decide⟩
  | table hsorted h =>
    obtain ⟨cs, htext⟩ := inlineTableText_head (fieldTexts _)
    rw [valueText, htext]
    exact ⟨_, _, rfl, rfl, by decide⟩

theorem skipBlank_of_starts {cs : List Char} (h : StartsValue cs) : skipBlank cs = cs := by
  obtain ⟨c, rest, rfl, hblank, -⟩ := h
  exact List.dropWhile_cons_of_neg (by simp [hblank])

/-! ## 2. Arrays -/

/-- No gap stands before a value. -/
theorem skipGap_of_starts {cs : List Char} (h : StartsValue cs) (fuel : Nat) :
    skipGap fuel cs = some cs := by
  cases fuel with
  | zero => rfl
  | succ fuel =>
    have hskip := skipBlank_of_starts h
    obtain ⟨c, rest, rfl, -, hcomment, hnewline, hreturn, -⟩ := h
    rw [skipGap, hskip]
    split
    · next heq => exact absurd (List.cons.inj heq).1 hcomment
    · next heq => exact absurd (List.cons.inj heq).1 hnewline
    · next heq => exact absurd (List.cons.inj heq).1 hreturn
    · next heq => exact absurd (List.cons.inj heq).1 hreturn
    · rfl

theorem skipBlank_append {lead : List Char} (h : ∀ c ∈ lead, isBlank c = true) (cs : List Char) :
    skipBlank (lead ++ cs) = skipBlank cs := List.dropWhile_append_of_pos h

/-- The line that an item of an array stands on begins with four blanks. -/
theorem skipGap_indented {cs : List Char} (h : StartsValue cs) {fuel : Nat} (hfuel : 2 ≤ fuel) :
    skipGap fuel ('\n' :: ' ' :: ' ' :: ' ' :: ' ' :: cs) = some cs := by
  obtain ⟨fuel, rfl⟩ := Nat.exists_eq_add_of_le' hfuel
  have hskip : skipBlank (' ' :: ' ' :: ' ' :: ' ' :: cs) = skipBlank cs :=
    skipBlank_append (show ∀ c ∈ [' ', ' ', ' ', ' '], isBlank c = true from
      List.all_eq_true.mp rfl) cs
  have hline : ∀ rest, skipGap (fuel + 2) ('\n' :: rest) = skipGap (fuel + 1) rest := fun _ => rfl
  have hnone := skipGap_of_starts h (fuel + 1)
  rw [skipGap] at hnone
  rw [hline, skipGap, hskip]
  exact hnone

variable {depth fuel : Nat} {value : Toml} {cs rest : List Char}

/-- The only item of an array on one line. -/
theorem arrayItems?_single (hvalue : value.WellFormed) (hread : ReadsBack depth value) :
    arrayItems? (value? depth) (fuel + 1) (valueText value ++ ']' :: rest) =
      someIf (value.nesting ≤ depth) ([value.item], rest) := by
  have hstarts := startsValue_text hvalue (']' :: rest)
  have hitem := hread (']' :: rest) (.bracket rest)
  have hgap := skipGap_of_starts hstarts (valueText value ++ ']' :: rest).length
  obtain ⟨c, more, hcons, -, -, -, -, hc⟩ := hstarts
  have hclose : skipGap (']' :: rest).length (']' :: rest) = some (']' :: rest) := rfl
  rw [hcons] at hitem hgap ⊢
  rw [arrayItems?, hgap]
  simp only [bind, Option.bind_some]
  split
  · next heq => exact absurd (List.cons.inj heq).1 hc
  · rw [hitem]
    refine (someIf_bind (q := True) (b := ([value.item], rest)) ?_).trans
      (someIf_congr (and_iff_left trivial) _)
    simp only [hclose, Option.bind_some]
    rfl

/-- An item of an array on a line of its own, with the items after it. -/
theorem arrayItems?_line (hvalue : value.WellFormed) (hread : ReadsBack depth value) {p : Prop}
    [Decidable p] {items : List Item}
    (hmore : arrayItems? (value? depth) fuel cs = someIf p (items, rest)) :
    arrayItems? (value? depth) (fuel + 1)
        ('\n' :: ' ' :: ' ' :: ' ' :: ' ' :: (valueText value ++ ',' :: cs)) =
      someIf (value.nesting ≤ depth ∧ p) (value.item :: items, rest) := by
  have hstarts := startsValue_text hvalue (',' :: cs)
  have hitem := hread (',' :: cs) (.comma cs)
  have hlength :
      2 ≤ ('\n' :: ' ' :: ' ' :: ' ' :: ' ' :: (valueText value ++ ',' :: cs)).length := by
    simp only [List.length_cons]
    omega
  have hgap := skipGap_indented hstarts hlength
  obtain ⟨c, more, hcons, -, -, -, -, hc⟩ := hstarts
  have hcomma : skipGap (',' :: cs).length (',' :: cs) = some (',' :: cs) := rfl
  rw [hcons] at hitem hgap ⊢
  rw [arrayItems?, hgap]
  simp only [bind, Option.bind_some]
  split
  · next heq => exact absurd (List.cons.inj heq).1 hc
  · rw [hitem]
    refine someIf_bind ?_
    simp only [hcomma, Option.bind_some, hmore]
    exact (Option.map_eq_bind ▸ someIf_map (fun read : Read (List Item) =>
      (value.item :: read.1, read.2)) (items, rest))

/-- The text of the items of an array that has a line for each. -/
theorem arrayItems?_lines {items : List Toml} (hitems : ∀ item ∈ items, item.WellFormed)
    (hread : ∀ item ∈ items, ReadsBack depth item) (hfuel : items.length < fuel) :
    arrayItems? (value? depth) fuel
        ((itemTexts items).flatMap (fun text => "\n    ".toList ++ text ++ [',']) ++
          '\n' :: ']' :: rest) =
      someIf (nestingItems items ≤ depth) (Toml.arrayItems items, rest) := by
  induction items generalizing fuel with
  | nil =>
    obtain ⟨fuel, rfl⟩ := Nat.exists_eq_add_one_of_ne_zero (Nat.ne_zero_of_lt hfuel)
    exact (someIf_pos (Nat.zero_le depth) _).symm
  | cons item items ih =>
    obtain ⟨fuel, rfl⟩ := Nat.exists_eq_add_one_of_ne_zero (Nat.ne_zero_of_lt hfuel)
    have hmore := @ih fuel (fun other h => hitems other (List.mem_cons_of_mem _ h))
      (fun other h => hread other (List.mem_cons_of_mem _ h)) (Nat.lt_of_succ_lt_succ hfuel)
    have htext : ∀ tail, (itemTexts (item :: items)).flatMap
          (fun text => "\n    ".toList ++ text ++ [',']) ++ tail =
        '\n' :: ' ' :: ' ' :: ' ' :: ' ' :: (valueText item ++ ',' ::
          ((itemTexts items).flatMap (fun text => "\n    ".toList ++ text ++ [',']) ++ tail)) := by
      intro tail
      simp [itemTexts]
    rw [htext, arrayItems?_line (hitems item List.mem_cons_self) (hread item List.mem_cons_self)
      hmore]
    exact someIf_congr Nat.max_le.symm _

theorem length_le_lines (items : List Toml) :
    items.length ≤
      ((itemTexts items).flatMap fun text => "\n    ".toList ++ text ++ [',']).length := by
  induction items with
  | nil => exact Nat.le_refl 0
  | cons item items ih =>
    rw [itemTexts, List.flatMap_cons, List.length_append, List.length_append, List.length_cons]
    simp only [List.length_singleton]
    omega

/-- The items of an array are read back. -/
theorem arrayItems?_text (rest : List Char) {items : List Toml}
    (hitems : ∀ item ∈ items, item.WellFormed) (hread : ∀ item ∈ items, ReadsBack depth item) :
    ∃ cs, arrayText (itemTexts items) ++ rest = '[' :: cs ∧
      arrayItems? (value? depth) (cs.length + 1) cs =
        someIf (nestingItems items ≤ depth) (Toml.arrayItems items, rest) := by
  match items with
  | [] => exact ⟨_, rfl, (someIf_pos (Nat.zero_le depth) _).symm⟩
  | [item] =>
    refine ⟨valueText item ++ ']' :: rest, by simp [itemTexts, arrayText], ?_⟩
    rw [arrayItems?_single (hitems item List.mem_cons_self) (hread item List.mem_cons_self)]
    refine someIf_congr ?_ _
    rw [nestingItems, nestingItems, Nat.max_zero]
  | item :: next :: items =>
    refine ⟨(itemTexts (item :: next :: items)).flatMap
      (fun text => "\n    ".toList ++ text ++ [',']) ++ '\n' :: ']' :: rest,
      by simp [itemTexts, arrayText], arrayItems?_lines hitems hread ?_⟩
    have hlength := length_le_lines (item :: next :: items)
    rw [List.length_append]
    omega

/-! ## 3. Inline tables -/

/-- A key, an equals sign and a value are read back. -/
theorem keyValue?_assignment (name : String) (lead : List Char) (hvalue : value.WellFormed)
    (hread : ReadsBack depth value) (hlead : ∀ c ∈ lead, isBlank c = true)
    (hrest : EndsValue rest) :
    keyValue? (value? depth) (lead ++ (assignment name (valueText value) ++ rest)) =
      someIf (value.nesting ≤ depth) ((([], name), value.item), rest) := by
  have hpath : keyText name = pathText ([] ++ [name]) := by
    simp only [pathText, List.nil_append, List.map_cons, List.map_nil, List.intercalate_singleton]
  have htext : assignment name (valueText value) ++ rest =
      pathText ([] ++ [name]) ++ ' ' :: '=' :: ' ' :: (valueText value ++ rest) := by
    simp [assignment, hpath]
  have hkey := key?_pathText [] name lead hlead (.assignment (' ' :: (valueText value ++ rest)))
  rw [if_pos (by decide)] at hkey
  have hblank : skipBlank (' ' :: (valueText value ++ rest)) = valueText value ++ rest :=
    skipBlank_of_starts (startsValue_text hvalue rest)
  have hsign : ∀ cs, skipBlank (' ' :: '=' :: cs) = '=' :: cs := fun _ => rfl
  rw [htext, keyValue?, hkey]
  simp only [bind, Option.bind_some, hsign, hblank, hread rest hrest]
  exact Option.map_eq_bind ▸ someIf_map
    (fun read : Read Item => ((([], name), read.1), read.2)) (value.item, rest)

theorem insertKey_new {created : Origin} {name : String} {entries : Entries}
    (h : name ∉ entries.map Prod.fst) (item : Item) :
    insertKey created name item [] none entries = .ok (entries ++ [(name, item)]) := by
  have hlookup : entries.lookup name = none := Fields.find?_eq_none_of_not_mem h
  rw [insertKey, hlookup]
  rfl

theorem fieldTexts_cons (field next : String × Toml) (fields : List (String × Toml)) :
    [',', ' '].intercalate (fieldTexts (field :: next :: fields)) =
      assignment field.1 (valueText field.2) ++
        ',' :: ' ' :: [',', ' '].intercalate (fieldTexts (next :: fields)) := by
  simp only [fieldTexts, List.intercalate_cons_cons, List.append_assoc, List.cons_append,
    List.nil_append]

theorem fieldTexts_single (field : String × Toml) :
    [',', ' '].intercalate (fieldTexts [field]) = assignment field.1 (valueText field.2) := by
  simp only [fieldTexts, List.intercalate_singleton]

/-- The fields of an inline table are read back, after those that have been read before. -/
theorem inlineEntries?_text {fields : List (String × Toml)} (hnonempty : fields ≠ [])
    (hfields : ∀ field ∈ fields, field.2.WellFormed)
    (hread : ∀ field ∈ fields, ReadsBack depth field.2) {entries : Entries}
    (hnodup : (entries.map Prod.fst ++ fields.map Prod.fst).Nodup) {lead : List Char}
    (hlead : ∀ c ∈ lead, isBlank c = true) (hfuel : fields.length < fuel) :
    inlineEntries? (value? depth) fuel entries
        (lead ++ ([',', ' '].intercalate (fieldTexts fields) ++ ' ' :: '\x7d' :: rest)) =
      someIf (nestingFields fields ≤ depth) (entries ++ Toml.inlineEntries fields, rest) := by
  induction fields generalizing entries lead fuel with
  | nil => exact absurd rfl hnonempty
  | cons field fields ih =>
    obtain ⟨name, value⟩ := field
    obtain ⟨fuel, rfl⟩ := Nat.exists_eq_add_one_of_ne_zero (Nat.ne_zero_of_lt hfuel)
    have hvalue := hfields (name, value) List.mem_cons_self
    have hback := hread (name, value) List.mem_cons_self
    have hnew : name ∉ entries.map Prod.fst := fun hmem =>
      (List.nodup_append.mp hnodup).2.2 name hmem name List.mem_cons_self rfl
    cases fields with
    | nil =>
      have hbrace : skipBlank (' ' :: '\x7d' :: rest) = '\x7d' :: rest := rfl
      rw [fieldTexts_single, Reader.inlineEntries?,
        keyValue?_assignment name lead hvalue hback hlead (.brace rest)]
      refine (someIf_bind (q := True) ?_).trans (someIf_congr ?_ _)
      · simp only [insertKey_new hnew, Except.toOption, bind, Option.bind_some, hbrace]
        rfl
      · rw [nestingFields, nestingFields, Nat.max_zero, and_iff_left trivial]
    | cons next fields =>
      have hnames : ((entries ++ [(name, value.item)]).map Prod.fst ++
          (next :: fields).map Prod.fst).Nodup := by
        simpa using hnodup
      have hblank : ∀ c ∈ [' '], isBlank c = true := List.all_eq_true.mp rfl
      have hmore := ih (List.cons_ne_nil _ _)
        (fun other h => hfields other (List.mem_cons_of_mem _ h))
        (fun other h => hread other (List.mem_cons_of_mem _ h)) hnames hblank
        (Nat.lt_of_succ_lt_succ hfuel)
      have hcomma : ∀ cs, skipBlank (',' :: cs) = ',' :: cs := fun _ => rfl
      rw [fieldTexts_cons, List.append_assoc, Reader.inlineEntries?, List.cons_append,
        keyValue?_assignment name lead hvalue hback hlead (.comma _)]
      refine (someIf_bind (q := nestingFields (next :: fields) ≤ depth) ?_).trans
        (someIf_congr Nat.max_le.symm _)
      simp only [insertKey_new hnew, Except.toOption, bind, Option.bind_some, hcomma]
      refine hmore.trans ?_
      rw [List.append_assoc]
      rfl

theorem fieldTexts_head (field : String × Toml) (fields : List (String × Toml)) :
    ∃ tail, [',', ' '].intercalate (fieldTexts (field :: fields)) = keyText field.1 ++ tail := by
  cases fields with
  | nil => exact ⟨_, by rw [fieldTexts_single, assignment, List.append_assoc]⟩
  | cons next fields => exact ⟨_, by rw [fieldTexts_cons, assignment, List.append_assoc,
      List.append_assoc]⟩

theorem length_le_fieldTexts (fields : List (String × Toml)) :
    fields.length ≤ ([',', ' '].intercalate (fieldTexts fields)).length := by
  induction fields with
  | nil => exact Nat.zero_le _
  | cons field fields ih =>
    cases fields with
    | nil =>
      rw [fieldTexts_single, assignment]
      simp only [List.length_append, List.length_cons, List.length_nil]
      omega
    | cons next fields =>
      rw [fieldTexts_cons]
      simp only [List.length_append, List.length_cons] at ih ⊢
      omega

theorem inlineTable?_text (rest : List Char) {fields : List (String × Toml)}
    (hsorted : Fields.Sorted fields)
    (hfields : ∀ field ∈ fields, field.2.WellFormed)
    (hread : ∀ field ∈ fields, ReadsBack depth field.2) :
    ∃ cs, inlineTableText (fieldTexts fields) ++ rest = '\x7b' :: cs ∧
      inlineTable? (value? depth) cs =
        someIf (nestingFields fields ≤ depth) (Toml.inlineEntries fields, rest) := by
  cases fields with
  | nil => exact ⟨_, rfl, (someIf_pos (Nat.zero_le depth) _).symm⟩
  | cons field fields =>
    have hlength := length_le_fieldTexts (field :: fields)
    have hentries : inlineEntries? (value? depth)
        (([',', ' '].intercalate (fieldTexts (field :: fields)) ++
          ' ' :: '\x7d' :: rest).length + 1)
        [] ([',', ' '].intercalate (fieldTexts (field :: fields)) ++ ' ' :: '\x7d' :: rest) =
        someIf (nestingFields (field :: fields) ≤ depth)
          (Toml.inlineEntries (field :: fields), rest) :=
      @inlineEntries?_text _ _ rest _ (List.cons_ne_nil field fields) hfields hread [] hsorted.nodup
        [] (fun _ hc => absurd hc List.not_mem_nil) (by rw [List.length_append]; omega)
    obtain ⟨tail, htail⟩ := fieldTexts_head field fields
    have hskip : skipBlank (' ' :: ([',', ' '].intercalate (fieldTexts (field :: fields)) ++
        ' ' :: '\x7d' :: rest)) =
        [',', ' '].intercalate (fieldTexts (field :: fields)) ++ ' ' :: '\x7d' :: rest := by
      rw [htail, List.append_assoc]
      exact skipBlank_keyText field.1 _
    obtain ⟨c, cs, hkey, hc⟩ := keyText_head field.1
    refine ⟨' ' :: ([',', ' '].intercalate (fieldTexts (field :: fields)) ++ ' ' :: '\x7d' :: rest),
      by simp [inlineTableText, fieldTexts], ?_⟩
    rw [inlineTable?, hskip]
    split
    · next heq =>
      rw [htail, hkey] at heq
      obtain rfl := (List.cons.inj heq).1
      exact absurd hc (by decide)
    · exact hentries

/-! ## 4. Values -/

theorem readsBack_scalar (hnesting : value.nesting = 0) (hitem : value.item = .scalar value)
    (hread : ∀ nested rest, EndsValue rest →
      valueFrom? nested (valueText value ++ rest) = some (.scalar value, rest)) :
    ReadsBack depth value := by
  intro rest hrest
  rw [hnesting, hitem, someIf_pos (Nat.zero_le depth)]
  cases depth with
  | zero => exact hread none rest hrest
  | succ depth => exact hread (some (value? depth)) rest hrest

variable {nested : Option (List Char → Option (Read Item))}

theorem valueFrom?_string (s : String) (hrest : EndsValue rest) :
    valueFrom? nested (stringText s ++ rest) = some (.scalar (.string s), rest) := by
  have hstring := string?_stringText s (hrest.head_ne (by decide)) (hrest.head_ne (by decide))
  obtain ⟨c, cs, htext, hc⟩ := stringText_head s
  rw [htext] at hstring ⊢
  rw [List.cons_append] at hstring ⊢
  rw [valueFrom?, if_pos hc, hstring]
  rfl

/-- What begins like a number is read as one. -/
theorem valueFrom?_numeric (h : StartsNumeric cs) {scalar : Toml}
    (hread : numeric? cs = some (scalar, rest)) :
    valueFrom? nested cs = some (.scalar scalar, rest) := by
  obtain ⟨c, cs, rfl, hother⟩ := h.head_ne
  have hboolean : boolean? (c :: cs) = none := by
    unfold boolean?
    split
    · next heq => exact absurd (List.cons.inj heq).1 (hother 't' (by decide))
    · next heq => exact absurd (List.cons.inj heq).1 (hother 'f' (by decide))
    · rfl
  rw [valueFrom?, if_neg (not_or.mpr ⟨hother '"' (by decide), hother '\'' (by decide)⟩),
    if_neg (hother '[' (by decide)), if_neg (hother '\x7b' (by decide)), hboolean, hread]
  rfl

theorem readsBack_array {items : List Toml} (h : ∀ item ∈ items, item.WellFormed)
    (hread : ∀ depth, ∀ item ∈ items, ReadsBack depth item) (depth : Nat) :
    ReadsBack depth (array items) := by
  intro rest hrest
  -- The array itself takes one level, and its items are read with what is left.
  cases depth with
  | zero =>
    obtain ⟨cs, htext⟩ := arrayText_head (itemTexts items)
    have hdeep : ¬ (array items).nesting ≤ 0 := Nat.not_succ_le_zero _
    rw [valueText, htext, someIf_neg hdeep]
    rfl
  | succ depth =>
    obtain ⟨cs, htext, hitems⟩ := arrayItems?_text rest h (hread depth)
    have hopen : ∀ cs, value? (depth + 1) ('[' :: cs) =
        (arrayItems? (value? depth) (cs.length + 1) cs).map fun read =>
          (.array read.1, read.2) := by
      intro cs
      refine Eq.trans ?_ Option.map_eq_bind.symm
      rfl
    rw [valueText, htext, hopen, hitems, someIf_map]
    exact someIf_congr Nat.succ_le_succ_iff.symm _

theorem readsBack_table {fields : List (String × Toml)} (hsorted : Fields.Sorted fields)
    (h : ∀ field ∈ fields, field.2.WellFormed)
    (hread : ∀ depth, ∀ field ∈ fields, ReadsBack depth field.2) (depth : Nat) :
    ReadsBack depth (table fields) := by
  intro rest hrest
  cases depth with
  | zero =>
    obtain ⟨cs, htext⟩ := inlineTableText_head (fieldTexts fields)
    have hdeep : ¬ (table fields).nesting ≤ 0 := Nat.not_succ_le_zero _
    rw [valueText, htext, someIf_neg hdeep]
    rfl
  | succ depth =>
    obtain ⟨cs, htext, hfields⟩ := inlineTable?_text rest hsorted h (hread depth)
    have hopen : ∀ cs, value? (depth + 1) ('\x7b' :: cs) =
        (inlineTable? (value? depth) cs).map fun read => (.table .braces read.1, read.2) := by
      intro cs
      refine Eq.trans ?_ Option.map_eq_bind.symm
      rfl
    rw [valueText, htext, hopen, hfields, someIf_map]
    exact someIf_congr Nat.succ_le_succ_iff.symm _

/-- A printed value is read back, if it is not nested too deeply. -/
theorem value?_text {value : Toml} (h : value.WellFormed) (depth : Nat) :
    ReadsBack depth value := by
  induction h generalizing depth with
  | @scalar value h =>
    cases value with
    | string s => exact readsBack_scalar rfl rfl fun _ rest hrest => valueFrom?_string s hrest
    | integer n => exact readsBack_scalar rfl rfl fun _ rest hrest =>
        valueFrom?_numeric (startsNumeric_integer n) (numeric?_integer h.1 h.2 hrest)
    | float x => exact readsBack_scalar rfl rfl fun _ rest hrest =>
        valueFrom?_numeric (startsNumeric_float x) (numeric?_float x hrest)
    | boolean b => cases b <;> exact readsBack_scalar rfl rfl fun _ _ _ => rfl
    | dateTime d => exact readsBack_scalar rfl rfl fun _ rest hrest =>
        valueFrom?_numeric (startsNumeric_dateTime h) (numeric?_dateTime h hrest)
    | array items => exact h.elim
    | table fields => exact h.elim
  | @array items h ih =>
    exact readsBack_array h (fun depth item hitem => ih item hitem depth) depth
  | @table fields hsorted h ih =>
    exact readsBack_table hsorted h (fun depth field hfield => ih field hfield depth) depth

end Templating.Toml
