import Mathlib.Data.List.Forall2
import Templating.Json.Printer
import Templating.Proofs.Json.Number

/-!
# Printed JSON values

The compact text of a value is read back, apart from doubles, as long as it is not nested too
deeply. Otherwise the nesting is what is reported. A double that is not finite is printed as `null`,
and one that is finite is read as `rereadDouble` says.

* `InRange` says of a value that its integers fit 64 bits and that its doubles are `good`.
* `Reader.Spells` says of any text that it is read as a value. Values have other texts than the
  printed one, and what holds of lists and objects does not depend on how their parts are spelled.

Results:
1. `string_text`: a printed string is read back, whatever its characters.
2. `spells_array`, `spells_object`: lists and objects are spelled by the texts of their parts.
3. `spells_text`: what a printed value is read as.
4. `isReread_iff`: which doubles are read back from their own text.
-/

namespace Templating.Json

open Number Number.Literal

/-! ## Definitions -/

mutual

/-- How deeply lists and objects are nested in a value. -/
def nesting : Json → Nat
  | array items => 1 + nestingItems items
  | object members => 1 + nestingMembers members
  | _ => 0

def nestingItems : List Json → Nat
  | [] => 0
  | item :: rest => max item.nesting (nestingItems rest)

def nestingMembers : List (String × Json) → Nat
  | [] => 0
  | (_, value) :: rest => max value.nesting (nestingMembers rest)

end

mutual

/-- What the text of a value is read as. -/
def reread : Json → Json
  | float x => if x.isFinite then float (rereadDouble x) else null
  | array items => array (rereadItems items)
  | object members => object (rereadMembers members)
  | json => json

def rereadItems : List Json → List Json
  | [] => []
  | item :: rest => item.reread :: rereadItems rest

def rereadMembers : List (String × Json) → List (String × Json)
  | [] => []
  | (name, value) :: rest => (name, value.reread) :: rereadMembers rest

end

/-- Every integer in a value fits 64 bits and every double is `good`. -/
inductive InRange (good : Float → Prop) : Json → Prop
  | null : InRange good null
  | boolean (value : Bool) : InRange good (boolean value)
  | integer {value : Int} (hleast : minSigned ≤ value) (hgreatest : value ≤ maxUnsigned) :
    InRange good (integer value)
  | float {value : Float} (h : good value) : InRange good (float value)
  | string (value : String) : InRange good (string value)
  | array {items : List Json} (h : ∀ item ∈ items, InRange good item) : InRange good (array items)
  | object {members : List (String × Json)} (h : ∀ member ∈ members, InRange good member.2) :
    InRange good (object members)

/-- The text of a double is read as this double. -/
def IsReread (x : Float) : Prop := parse (Layout.json.print x) = .ok (.float x)

/-- What is read under a condition, with the error where it does not hold. -/
def okIf {α : Type} (condition : Prop) [Decidable condition] (error : Error) (value : α) :
    Except Error α :=
  if condition then .ok value else .error error

theorem nesting_array (items : List Json) : (array items).nesting = 1 + nestingItems items := rfl

theorem nesting_object (members : List (String × Json)) :
    (object members).nesting = 1 + nestingMembers members := rfl

theorem rereadItems_eq_map (items : List Json) : rereadItems items = items.map reread := by
  induction items with
  | nil => rfl
  | cons item rest ih => rw [rereadItems, ih, List.map_cons]

theorem rereadMembers_eq_map (members : List (String × Json)) :
    rereadMembers members = members.map fun member => (member.1, member.2.reread) := by
  induction members with
  | nil => rfl
  | cons member rest ih => rw [rereadMembers, ih, List.map_cons]

mutual

/-- What a text is read as is nested as deeply as what was printed. -/
theorem nesting_reread : ∀ json : Json, json.reread.nesting = json.nesting
  | null => rfl
  | boolean _ => rfl
  | integer _ => rfl
  | float x => by
    rw [reread]
    split <;> rfl
  | string _ => rfl
  | array items => congrArg (1 + ·) (nesting_rereadItems items)
  | object members => congrArg (1 + ·) (nesting_rereadMembers members)

theorem nesting_rereadItems : ∀ items : List Json,
    nestingItems (rereadItems items) = nestingItems items
  | [] => rfl
  | item :: rest => congrArg₂ max (nesting_reread item) (nesting_rereadItems rest)

theorem nesting_rereadMembers : ∀ members : List (String × Json),
    nestingMembers (rereadMembers members) = nestingMembers members
  | [] => rfl
  | (_, value) :: rest => congrArg₂ max (nesting_reread value) (nesting_rereadMembers rest)

end

/-! ## Conditions -/

section

variable {α β : Type} {p q : Prop} [Decidable p] [Decidable q] {error : Error} {value : α}

theorem okIf_congr (h : p ↔ q) : okIf p error value = okIf q error value := by
  simp only [okIf, h]

theorem okIf_bind {next : α → Except Error β} {result : β}
    (h : next value = okIf q error result) :
    okIf p error value >>= next = okIf (p ∧ q) error result := by
  by_cases hp : p
  · simp only [okIf, hp, true_and, ↓reduceIte]
    exact h
  · simp only [okIf, hp, false_and, ↓reduceIte]
    rfl

theorem okIf_map (f : α → β) : (do .ok (f (← okIf p error value))) = okIf p error (f value) := by
  by_cases hp : p
  · simp only [okIf, hp, ↓reduceIte]
    rfl
  · simp only [okIf, hp, ↓reduceIte]
    rfl

end

namespace Reader

/-! ## 1. Strings -/

theorem hexValue_hexDigit : ∀ d < 16, hexValue? (hexDigit d) = some d := by decide

theorem unicodeEscape_control {c : Char} (hc : c.toNat < 0x20) (rest : List Char) :
    unicodeEscape ('0' :: '0' :: hexDigit (c.toNat / 16) :: hexDigit (c.toNat % 16) :: rest) =
      .ok (c, 4) := by
  have hzero : hexValue? '0' = some 0 := rfl
  have hhigh := hexValue_hexDigit (c.toNat / 16) (by omega)
  have hlow := hexValue_hexDigit (c.toNat % 16) (by omega)
  have hvalue : c.toNat / 16 * 16 + c.toNat % 16 = c.toNat := by omega
  have hquad : hexQuad? '0' '0' (hexDigit (c.toNat / 16)) (hexDigit (c.toNat % 16)) =
      some c.toNat := by
    simp [hexQuad?, hzero, hhigh, hlow, hvalue]
  have htrailing : isTrailing c.toNat = false := by
    simp only [isTrailing, Bool.and_eq_false_iff, decide_eq_false_iff_not]
    omega
  have hleading : isLeading c.toNat = false := by
    simp only [isLeading, Bool.and_eq_false_iff, decide_eq_false_iff_not]
    omega
  simp only [unicodeEscape, hexUnit, hquad, bind, Except.bind, htrailing, hleading,
    Bool.false_eq_true, ↓reduceIte, Char.ofNat_toNat]

/-- A character is escaped by a letter, by its number, or not at all. -/
theorem escapeChar_cases (c : Char) :
    (∃ letter, escapeChar c = ['\\', letter] ∧ escape? letter = some c) ∨
      (escapeChar c =
        ['\\', 'u', '0', '0', hexDigit (c.toNat / 16), hexDigit (c.toNat % 16)] ∧ c.toNat < 0x20) ∨
      (escapeChar c = [c] ∧ c ≠ '"' ∧ c ≠ '\\' ∧ ¬ c.toNat < 0x20) := by
  unfold escapeChar
  split_ifs with hquote hbackslash hbackspace hfeed hline hreturn htab hcontrol
  · exact Or.inl ⟨'"', rfl, (congrArg some hquote).symm⟩
  · exact Or.inl ⟨'\\', rfl, (congrArg some hbackslash).symm⟩
  · exact Or.inl ⟨'b', rfl, (congrArg some hbackspace).symm⟩
  · exact Or.inl ⟨'f', rfl, (congrArg some hfeed).symm⟩
  · exact Or.inl ⟨'n', rfl, (congrArg some hline).symm⟩
  · exact Or.inl ⟨'r', rfl, (congrArg some hreturn).symm⟩
  · exact Or.inl ⟨'t', rfl, (congrArg some htab).symm⟩
  · exact Or.inr (Or.inl ⟨rfl, hcontrol⟩)
  · exact Or.inr (Or.inr ⟨rfl, hquote, hbackslash, hcontrol⟩)

theorem stringBody_escapeChar (c : Char) (rest : List Char) :
    stringBody 0 (escapeChar c ++ rest) = prepend c (stringBody 0 rest) := by
  rcases escapeChar_cases c with ⟨letter, htext, hletter⟩ | ⟨htext, hcontrol⟩ |
    ⟨htext, hquote, hbackslash, hcontrol⟩
  · rw [htext]
    simp only [List.cons_append, List.nil_append, stringBody, Char.reduceEq, ↓reduceIte, hletter]
  · have hunicode := unicodeEscape_control hcontrol rest
    have hletter : escape? 'u' = none := rfl
    rw [htext]
    simp only [List.cons_append, List.nil_append, stringBody, Char.reduceEq, ↓reduceIte, hletter,
      hunicode]
  · rw [htext, List.singleton_append, stringBody.eq_def]
    simp only [hquote, hbackslash, hcontrol, ↓reduceIte]

theorem stringBody_text (cs rest : List Char) :
    stringBody 0 (cs.flatMap escapeChar ++ '"' :: rest) = .ok (cs, rest) := by
  induction cs with
  | nil =>
    rw [List.flatMap_nil, List.nil_append, stringBody.eq_def]
    rfl
  | cons c cs ih =>
    rw [List.flatMap_cons, List.append_assoc, stringBody_escapeChar, ih]
    rfl

/-- A printed string is read back. -/
theorem string_text (s : String) (rest : List Char) :
    string (s.toList.flatMap escapeChar ++ '"' :: rest) = .ok (s, rest) := by
  rw [string, stringBody_text]
  simp [bind, Except.bind]

/-! ## 2. Lists and objects -/

/-- A text is read as a value where nesting as deep as that of the value is allowed, and the nesting
is reported where it is not. It neither begins with a blank nor ends a list. -/
structure Spells (text : List Char) (json : Json) : Prop where
  head : ∃ c cs, text = c :: cs ∧ isBlank c = false ∧ c ≠ ']'
  reads : ∀ depth rest, EndsNumber rest →
    value depth (text ++ rest) = okIf (json.nesting ≤ depth) (.syntactic .tooDeep) (json, rest)

/-- A name with a text spells a member of that name. -/
def SpellsMember (spelled : String × List Char) (member : String × Json) : Prop :=
  spelled.1 = member.1 ∧ Spells spelled.2 member.2

/-- The parts of a list or an object after the first one, each with the comma before it. -/
def moreText (parts : List (List Char)) : List Char := parts.flatMap fun part => ',' :: part

/-- The parts of a list or an object. -/
def partsText : List (List Char) → List Char
  | [] => []
  | part :: rest => part ++ moreText rest

def memberText (spelled : String × List Char) : List Char :=
  stringText spelled.1 ++ ':' :: spelled.2

theorem moreText_cons (part : List Char) (rest : List (List Char)) :
    moreText (part :: rest) = ',' :: (part ++ moreText rest) := rfl

theorem itemsText_eq (items : List Json) : itemsText items = partsText (items.map text) := by
  induction items with
  | nil => rfl
  | cons item rest ih =>
    cases rest with
    | nil => simp [itemsText, partsText, moreText]
    | cons next rest => simp [itemsText, ih, partsText, moreText_cons]

/-- The names of members with the texts of their values. -/
def spelledMembers (members : List (String × Json)) : List (String × List Char) :=
  members.map fun member => (member.1, member.2.text)

theorem membersText_eq (members : List (String × Json)) :
    membersText members = partsText ((spelledMembers members).map memberText) := by
  induction members with
  | nil => rfl
  | cons member rest ih =>
    cases rest with
    | nil => simp [membersText, spelledMembers, memberText, partsText, moreText]
    | cons next rest =>
      simp [membersText, ih, spelledMembers, memberText, partsText, moreText_cons]

theorem ne_of_number_head {c d : Char} (hc : c = '-' ∨ c.isDigit = true) (hminus : d ≠ '-')
    (hdigit : d.isDigit = false) : c ≠ d := by
  rintro rfl
  rcases hc with hc | hc
  · exact hminus hc
  · exact absurd hc (by simp [hdigit])

theorem isBlank_of_number_head {c : Char} (hc : c = '-' ∨ c.isDigit = true) :
    isBlank c = false := by
  cases hblank : isBlank c
  · rfl
  · simp only [isBlank, Bool.or_eq_true, beq_iff_eq] at hblank
    rcases hblank with ((h | h) | h) | h <;>
      exact absurd h (ne_of_number_head hc (by decide) (by decide))

theorem skipBlank_cons {c : Char} (h : isBlank c = false) (cs : List Char) :
    skipBlank (c :: cs) = c :: cs :=
  List.dropWhile_cons_of_neg (by simp [h])

section

variable {text : List Char} {json : Json}

theorem nextItem_first (h : Spells text json) (rest : List Char) :
    nextItem true (text ++ rest) = .ok (.item (text ++ rest)) := by
  obtain ⟨c, cs, rfl, hblank, hclose⟩ := h.head
  rw [List.cons_append, nextItem, skipBlank_cons hblank]
  simp only
  rw [if_neg hclose]
  rfl

theorem nextItem_comma (h : Spells text json) (rest : List Char) :
    nextItem false (',' :: (text ++ rest)) = .ok (.item (text ++ rest)) := by
  obtain ⟨c, cs, rfl, hblank, hclose⟩ := h.head
  rw [List.cons_append, nextItem, skipBlank_cons rfl]
  simp [skipBlank_cons hblank, hclose]

end

theorem memberName_text (name : String) (rest : List Char) :
    memberName (stringText name ++ rest) = .ok (.member name rest) := by
  have hstring := string_text name rest
  simp only [stringText, List.cons_append, List.nil_append, List.append_assoc, memberName,
    ↓reduceIte, hstring, bind, Except.bind]

theorem nextMember_first (name : String) (rest : List Char) :
    nextMember true (stringText name ++ rest) = .ok (.member name rest) :=
  memberName_text name rest

theorem nextMember_comma (name : String) (rest : List Char) :
    nextMember false (',' :: (stringText name ++ rest)) = .ok (.member name rest) :=
  memberName_text name rest

theorem endsNumber_cons {c : Char} (h : c = ',' ∨ c = ']' ∨ c = '\x7d') (cs : List Char) :
    EndsNumber (c :: cs) := by
  rintro d ⟨⟩
  rcases h with rfl | rfl | rfl <;> decide

theorem endsNumber_more {close : Char} (h : close = ']' ∨ close = '\x7d')
    (parts : List (List Char)) (rest : List Char) :
    EndsNumber (moreText parts ++ close :: rest) := by
  cases parts with
  | nil => exact endsNumber_cons (Or.inr h) rest
  | cons part parts => exact endsNumber_cons (Or.inl rfl) _

variable {depth fuel : Nat} {first : Bool} {cs tail rest : List Char}

/-- One item is read, then those after it. -/
theorem listItems_step {text : List Char} {item : Json} {items : List Json}
    (hnext : nextItem first cs = .ok (.item (text ++ tail))) (hitem : Spells text item)
    (hends : EndsNumber tail)
    (hitems : listItems (value depth) fuel false tail =
      okIf (nestingItems items ≤ depth) (.syntactic .tooDeep) (items, rest)) :
    listItems (value depth) (fuel + 1) first cs =
      okIf (nestingItems (item :: items) ≤ depth) (.syntactic .tooDeep) (item :: items, rest) := by
  rw [listItems, hnext, nestingItems, okIf_congr Nat.max_le]
  show (value depth (text ++ tail) >>= _) = _
  rw [hitem.reads depth tail hends]
  refine okIf_bind ?_
  simp only [hitems]
  exact okIf_map _

/-- The items after the first one are read. -/
theorem listItems_more {texts : List (List Char)} {items : List Json}
    (h : List.Forall₂ Spells texts items) (rest : List Char)
    (hfuel : (moreText texts ++ ']' :: rest).length < fuel) :
    listItems (value depth) fuel false (moreText texts ++ ']' :: rest) =
      okIf (nestingItems items ≤ depth) (.syntactic .tooDeep) (items, rest) := by
  -- Each item takes at least its comma from the text, so the fuel lasts.
  induction h generalizing fuel with
  | nil =>
    obtain ⟨fuel, rfl⟩ := Nat.exists_eq_add_one_of_ne_zero (Nat.ne_zero_of_lt hfuel)
    rfl
  | @cons text item texts items hitem hitems ih =>
    obtain ⟨fuel, rfl⟩ := Nat.exists_eq_add_one_of_ne_zero (Nat.ne_zero_of_lt hfuel)
    rw [moreText_cons, List.cons_append, List.append_assoc] at hfuel ⊢
    refine listItems_step (nextItem_comma hitem _) hitem (endsNumber_more (Or.inl rfl) texts rest) ?_
    refine ih ?_
    simp only [List.length_cons, List.length_append] at hfuel ⊢
    omega

/-- The items of a list are read. -/
theorem listItems_parts {texts : List (List Char)} {items : List Json}
    (h : List.Forall₂ Spells texts items) (rest : List Char)
    (hfuel : (partsText texts ++ ']' :: rest).length < fuel) :
    listItems (value depth) fuel true (partsText texts ++ ']' :: rest) =
      okIf (nestingItems items ≤ depth) (.syntactic .tooDeep) (items, rest) := by
  obtain ⟨fuel, rfl⟩ := Nat.exists_eq_add_one_of_ne_zero (Nat.ne_zero_of_lt hfuel)
  cases h with
  | nil => rfl
  | @cons text item texts items hitem hitems =>
    rw [partsText, List.append_assoc] at hfuel ⊢
    refine listItems_step (nextItem_first hitem _) hitem (endsNumber_more (Or.inl rfl) texts rest) ?_
    refine listItems_more hitems rest ?_
    obtain ⟨c, cs, rfl, -⟩ := hitem.head
    simp only [List.length_cons, List.length_append] at hfuel ⊢
    omega

/-- One member is read, then those after it. -/
theorem objectMembers_step {spelled : String × List Char} {member : String × Json}
    {members : List (String × Json)}
    (hnext : nextMember first cs = .ok (.member spelled.1 (':' :: (spelled.2 ++ tail))))
    (hmember : SpellsMember spelled member) (hends : EndsNumber tail)
    (hmembers : objectMembers (value depth) fuel false tail =
      okIf (nestingMembers members ≤ depth) (.syntactic .tooDeep) (members, rest)) :
    objectMembers (value depth) (fuel + 1) first cs =
      okIf (nestingMembers (member :: members) ≤ depth) (.syntactic .tooDeep)
        (member :: members, rest) := by
  obtain ⟨hname, hvalue⟩ := hmember
  rw [objectMembers, hnext, nestingMembers, okIf_congr Nat.max_le]
  show (value depth (spelled.2 ++ tail) >>= _) = _
  rw [hvalue.reads depth tail hends]
  refine okIf_bind ?_
  simp only [hmembers, hname]
  exact okIf_map _

/-- The members after the first one are read. -/
theorem objectMembers_more {spelled : List (String × List Char)} {members : List (String × Json)}
    (h : List.Forall₂ SpellsMember spelled members) (rest : List Char)
    (hfuel : (moreText (spelled.map memberText) ++ '\x7d' :: rest).length < fuel) :
    objectMembers (value depth) fuel false (moreText (spelled.map memberText) ++ '\x7d' :: rest) =
      okIf (nestingMembers members ≤ depth) (.syntactic .tooDeep) (members, rest) := by
  induction h generalizing fuel with
  | nil =>
    obtain ⟨fuel, rfl⟩ := Nat.exists_eq_add_one_of_ne_zero (Nat.ne_zero_of_lt hfuel)
    rfl
  | @cons head member spelled members hmember hmembers ih =>
    obtain ⟨fuel, rfl⟩ := Nat.exists_eq_add_one_of_ne_zero (Nat.ne_zero_of_lt hfuel)
    rw [List.map_cons, moreText_cons, memberText, List.cons_append, List.append_assoc,
      List.append_assoc, List.cons_append] at hfuel ⊢
    refine objectMembers_step (nextMember_comma _ _) hmember (endsNumber_more (Or.inr rfl) _ rest) ?_
    refine ih ?_
    simp only [List.length_cons, List.length_append] at hfuel ⊢
    omega

/-- The members of an object are read. -/
theorem objectMembers_parts {spelled : List (String × List Char)} {members : List (String × Json)}
    (h : List.Forall₂ SpellsMember spelled members) (rest : List Char)
    (hfuel : (partsText (spelled.map memberText) ++ '\x7d' :: rest).length < fuel) :
    objectMembers (value depth) fuel true (partsText (spelled.map memberText) ++ '\x7d' :: rest) =
      okIf (nestingMembers members ≤ depth) (.syntactic .tooDeep) (members, rest) := by
  obtain ⟨fuel, rfl⟩ := Nat.exists_eq_add_one_of_ne_zero (Nat.ne_zero_of_lt hfuel)
  cases h with
  | nil => rfl
  | @cons head member spelled members hmember hmembers =>
    rw [List.map_cons, partsText, memberText, List.append_assoc, List.append_assoc,
      List.cons_append] at hfuel ⊢
    refine objectMembers_step (nextMember_first _ _) hmember (endsNumber_more (Or.inr rfl) _ rest) ?_
    refine objectMembers_more hmembers rest ?_
    simp only [List.length_cons, List.length_append] at hfuel ⊢
    omega

theorem value_zero {c : Char} (h : isBlank c = false) (cs : List Char) :
    value 0 (c :: cs) = valueFrom none c cs := by
  rw [value, skipBlank_cons h]

theorem value_succ {c : Char} (h : isBlank c = false) (depth : Nat) (cs : List Char) :
    value (depth + 1) (c :: cs) = valueFrom (some (value depth)) c cs := by
  rw [value, skipBlank_cons h]

theorem valueFrom_list (item : List Char → Except Error (Read Json)) (cs : List Char) :
    valueFrom (some item) '[' cs =
      (do
        let read ← listItems item (cs.length + 1) true cs
        .ok (.array read.1, read.2)) := rfl

theorem valueFrom_object (item : List Char → Except Error (Read Json)) (cs : List Char) :
    valueFrom (some item) '\x7b' cs =
      (do
        let read ← objectMembers item (cs.length + 1) true cs
        .ok (.object read.1, read.2)) := rfl

/-- A list is spelled by the texts of its items. -/
theorem spells_array {texts : List (List Char)} {items : List Json}
    (h : List.Forall₂ Spells texts items) :
    Spells ('[' :: (partsText texts ++ [']'])) (array items) where
  head := ⟨_, _, rfl, rfl, by decide⟩
  reads depth rest hends := by
    rw [List.cons_append, List.append_assoc, List.singleton_append, nesting_array]
    -- The list itself takes one level, and its items are read with what is left.
    cases depth with
    | zero =>
      rw [value_zero rfl, okIf, if_neg (by omega)]
      rfl
    | succ depth =>
      have hitems : listItems (value depth) _ true (partsText texts ++ ']' :: rest) = _ :=
        listItems_parts h rest (Nat.lt_succ_self _)
      have hdepth : 1 + nestingItems items ≤ depth + 1 ↔ nestingItems items ≤ depth := by omega
      rw [value_succ rfl, valueFrom_list, hitems, okIf_congr hdepth]
      exact okIf_map fun (read : Read (List Json)) => (array read.1, read.2)

/-- An object is spelled by the names and texts of its members. -/
theorem spells_object {spelled : List (String × List Char)} {members : List (String × Json)}
    (h : List.Forall₂ SpellsMember spelled members) :
    Spells ('\x7b' :: (partsText (spelled.map memberText) ++ ['\x7d'])) (object members) where
  head := ⟨_, _, rfl, rfl, by decide⟩
  reads depth rest hends := by
    rw [List.cons_append, List.append_assoc, List.singleton_append, nesting_object]
    cases depth with
    | zero =>
      rw [value_zero rfl, okIf, if_neg (by omega)]
      rfl
    | succ depth =>
      have hmembers : objectMembers (value depth) _ true
          (partsText (spelled.map memberText) ++ '\x7d' :: rest) = _ :=
        objectMembers_parts h rest (Nat.lt_succ_self _)
      have hdepth : 1 + nestingMembers members ≤ depth + 1 ↔ nestingMembers members ≤ depth := by
        omega
      rw [value_succ rfl, valueFrom_object, hmembers, okIf_congr hdepth]
      exact okIf_map fun (read : Read (List (String × Json))) => (object read.1, read.2)

/-! ## 3. Printed values -/

theorem spells_leaf {json : Json} {c : Char} {text : List Char} (hblank : isBlank c = false)
    (hclose : c ≠ ']') (hnesting : json.nesting = 0)
    (hread : ∀ nested rest, EndsNumber rest →
      valueFrom nested c (text ++ rest) = .ok (json, rest)) : Spells (c :: text) json where
  head := ⟨c, text, rfl, hblank, hclose⟩
  reads depth rest hends := by
    rw [List.cons_append, hnesting, okIf, if_pos (Nat.zero_le depth)]
    cases depth with
    | zero => exact (value_zero hblank _).trans (hread _ rest hends)
    | succ depth => exact (value_succ hblank depth _).trans (hread _ rest hends)

theorem spells_number {json : Json} {text : List Char} (hnesting : json.nesting = 0)
    (hread : ∀ rest, EndsNumber rest → number (text ++ rest) = .ok (json, rest)) :
    Spells text json := by
  obtain ⟨c, tail, htext, hc⟩ := number_head (hread [] nofun)
  rw [List.append_nil] at htext
  subst htext
  have hother : ∀ d, d ≠ '-' → d.isDigit = false → c ≠ d := fun d => ne_of_number_head hc
  refine spells_leaf (isBlank_of_number_head hc) (hother ']' (by decide) rfl) hnesting
    fun nested rest hends => ?_
  have hnumber := hread rest hends
  rw [List.cons_append] at hnumber
  unfold valueFrom
  rw [if_neg (hother 'n' (by decide) rfl), if_neg (hother 't' (by decide) rfl),
    if_neg (hother 'f' (by decide) rfl), if_neg (hother '"' (by decide) rfl), if_pos hc, hnumber]

theorem spells_null : Spells ['n', 'u', 'l', 'l'] .null :=
  spells_leaf rfl (by decide) rfl fun _ _ _ => rfl

theorem spells_string (s : String) : Spells (stringText s) (.string s) := by
  have htext : stringText s = '"' :: (s.toList.flatMap escapeChar ++ ['"']) := rfl
  rw [htext]
  refine spells_leaf rfl (by decide) rfl fun nested rest hends => ?_
  have hstring := string_text s rest
  rw [List.append_assoc, List.singleton_append]
  unfold valueFrom
  simp only [Char.reduceEq, ↓reduceIte, hstring]
  rfl

/-- The text of a double that is finite or not. -/
theorem spells_float (x : Float) : Spells (Json.float x).text (Json.float x).reread := by
  rw [text, reread]
  split
  next hfinite => exact spells_number rfl fun rest hends => number_print hfinite hends
  next hinfinite =>
    rw [print_of_not_isFinite hinfinite]
    exact spells_null

/-- What a printed value is read as. -/
theorem spells_text {good : Float → Prop} {json : Json} (h : json.InRange good) :
    Spells json.text json.reread := by
  induction h with
  | null => exact spells_null
  | boolean value => cases value <;> exact spells_leaf rfl (by decide) rfl fun _ _ _ => rfl
  | integer hleast hgreatest =>
    exact spells_number rfl fun rest hends => number_integer hleast hgreatest hends
  | @float x hgood => exact spells_float x
  | string s => exact spells_string s
  | @array items h ih =>
    rw [text, itemsText_eq, reread, rereadItems_eq_map]
    refine spells_array ?_
    rw [List.forall₂_map_left_iff, List.forall₂_map_right_iff, List.forall₂_same]
    exact ih
  | @object members h ih =>
    rw [text, membersText_eq, reread, rereadMembers_eq_map]
    refine spells_object ?_
    rw [spelledMembers, List.forall₂_map_left_iff, List.forall₂_map_right_iff, List.forall₂_same]
    exact fun member hmember => ⟨rfl, ih member hmember⟩

end Reader

theorem parse_of_spells {text : List Char} {json : Json} (h : Reader.Spells text json) :
    parse (String.ofList text) =
      okIf (json.nesting ≤ Reader.maxNesting) (.syntactic .tooDeep) json := by
  have hvalue := h.reads Reader.maxNesting [] nofun
  rw [List.append_nil] at hvalue
  rw [parse, String.toList_ofList, hvalue, okIf, okIf]
  split <;> rfl

/-- A printed value is read, if it is not nested too deeply. -/
theorem parse_print_of_inRange {good : Float → Prop} {json : Json} (h : json.InRange good) :
    parse json.print =
      okIf (json.nesting ≤ Reader.maxNesting) (.syntactic .tooDeep) json.reread := by
  rw [print, parse_of_spells (Reader.spells_text h), nesting_reread]

/-! ## 4. Doubles -/

/-- The doubles that are read back are finite ones. -/
theorem isReread_iff {x : Float} : IsReread x ↔ x.isFinite = true ∧ rereadDouble x = x := by
  have htext : Layout.json.print x = (Json.float x).print :=
    (String.ofList_toList).symm
  have hparse : parse (Layout.json.print x) = .ok (Json.float x).reread := by
    rw [htext, print, parse_of_spells (Reader.spells_float x), nesting_reread]
    rfl
  rw [IsReread, hparse, Except.ok.injEq, reread]
  split
  next hfinite => rw [float.injEq, hfinite, eq_self_iff_true, true_and]
  next hinfinite => simp [hinfinite]

end Templating.Json
