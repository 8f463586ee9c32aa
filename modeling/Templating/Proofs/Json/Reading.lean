import Mathlib.Data.List.Infix
import Templating.Proofs.Contract
import Templating.Proofs.Json.RoundTrip
import Templating.Proofs.Number.Whole

/-!
# What is read from JSON texts

A successful reader leaves an end of the characters that it was given, and what it gives is of a
kind that a text can stand for.

* `Exact` values have integers of 64 bits and finite doubles. Not all of them are read from a text:
  a number is read by multiplication, which does not come to every double.
* `Legible` values have doubles that are read from some text, if not from their own.

Results:
1. `plain_array_iff`, `plain_object_iff`: the form in which lists and objects are read is that of
   their parts; `isFinite_ofInt` is about numbers.
2. `string_suffix`, `number_reads`: strings and numbers.
3. `value_reads`: a value that was read is legible and nested no deeper than allowed.
4. `exists_spelling`: a legible value has a text, in which the doubles are spelled as they were
   read. `readable_iff`: the values that texts stand for are just these.
-/

namespace Templating.Json

open Number

/-! ## Definitions -/

/-- Some text stands for the value. -/
def Readable (json : Json) : Prop := ∃ text, parse text = .ok json

/-- The integers of the value fit 64 bits and its doubles are finite. -/
def Exact (json : Json) : Prop := json.InRange fun x => x.isFinite = true

/-- A significand of 64 bits with some exponent comes to the double. -/
def IsSpelled (x : Float) : Prop :=
  ∃ negative significand exponent, significand ≤ maxSignificand ∧
    Reader.double negative significand exponent = .ok (.float x)

/-- The value has the form in which values are read. -/
def Legible (json : Json) : Prop := json.InRange IsSpelled

/-- The value is nested at most to `depth` besides. -/
structure Plain (depth : Nat) (json : Json) : Prop where
  legible : json.Legible
  nesting : json.nesting ≤ depth

/-- The character that only texts of values of this kind begin with, if there is one. -/
def opening? : Json → Option Char
  | string _ => some '"'
  | array _ => some '['
  | object _ => some '\x7b'
  | _ => none

/-! ## 1. Lists and objects -/

theorem nestingItems_le_iff {depth : Nat} {items : List Json} :
    nestingItems items ≤ depth ↔ ∀ item ∈ items, item.nesting ≤ depth := by
  induction items with
  | nil => simp [nestingItems]
  | cons item rest ih => rw [nestingItems, Nat.max_le, ih, List.forall_mem_cons]

theorem nestingMembers_le_iff {depth : Nat} {members : List (String × Json)} :
    nestingMembers members ≤ depth ↔ ∀ member ∈ members, member.2.nesting ≤ depth := by
  induction members with
  | nil => simp [nestingMembers]
  | cons member rest ih => rw [nestingMembers, Nat.max_le, ih, List.forall_mem_cons]

section

variable {good : Float → Prop}

theorem inRange_array_iff {items : List Json} :
    (array items).InRange good ↔ ∀ item ∈ items, item.InRange good :=
  ⟨fun h => match h with | .array hitems => hitems, .array⟩

theorem inRange_object_iff {members : List (String × Json)} :
    (object members).InRange good ↔ ∀ member ∈ members, member.2.InRange good :=
  ⟨fun h => match h with | .object hmembers => hmembers, .object⟩

theorem InRange.mono {weaker : Float → Prop} {json : Json} (h : json.InRange good)
    (hweaker : ∀ x, good x → weaker x) : json.InRange weaker := by
  induction h with
  | null => exact .null
  | boolean value => exact .boolean value
  | integer hleast hgreatest => exact .integer hleast hgreatest
  | float hgood => exact .float (hweaker _ hgood)
  | string value => exact .string value
  | array _ ih => exact .array ih
  | object _ ih => exact .object ih

end

theorem exact_array_iff {items : List Json} :
    (array items).Exact ↔ ∀ item ∈ items, item.Exact :=
  inRange_array_iff

theorem exact_object_iff {members : List (String × Json)} :
    (object members).Exact ↔ ∀ member ∈ members, member.2.Exact :=
  inRange_object_iff

theorem legible_array_iff {items : List Json} :
    (array items).Legible ↔ ∀ item ∈ items, item.Legible :=
  inRange_array_iff

theorem legible_object_iff {members : List (String × Json)} :
    (object members).Legible ↔ ∀ member ∈ members, member.2.Legible :=
  inRange_object_iff

theorem plain_array_iff {depth : Nat} {items : List Json} :
    (array items).Plain depth ↔ ∃ inner, depth = inner + 1 ∧ ∀ item ∈ items, item.Plain inner := by
  constructor
  · rintro ⟨hlegible, hnesting⟩
    rw [nesting_array] at hnesting
    obtain ⟨inner, rfl⟩ := Nat.exists_eq_add_one_of_ne_zero (show depth ≠ 0 by omega)
    have hitems := nestingItems_le_iff.mp (show nestingItems items ≤ inner by omega)
    exact ⟨inner, rfl, fun item hitem =>
      ⟨legible_array_iff.mp hlegible item hitem, hitems item hitem⟩⟩
  · rintro ⟨inner, rfl, h⟩
    refine ⟨legible_array_iff.mpr fun item hitem => (h item hitem).legible, ?_⟩
    have hitems := nestingItems_le_iff.mpr fun item hitem => (h item hitem).nesting
    rw [nesting_array]
    omega

theorem plain_object_iff {depth : Nat} {members : List (String × Json)} :
    (object members).Plain depth ↔
      ∃ inner, depth = inner + 1 ∧ ∀ member ∈ members, member.2.Plain inner := by
  constructor
  · rintro ⟨hlegible, hnesting⟩
    rw [nesting_object] at hnesting
    obtain ⟨inner, rfl⟩ := Nat.exists_eq_add_one_of_ne_zero (show depth ≠ 0 by omega)
    have hmembers := nestingMembers_le_iff.mp (show nestingMembers members ≤ inner by omega)
    exact ⟨inner, rfl, fun member hmember =>
      ⟨legible_object_iff.mp hlegible member hmember, hmembers member hmember⟩⟩
  · rintro ⟨inner, rfl, h⟩
    refine ⟨legible_object_iff.mpr fun member hmember => (h member hmember).legible, ?_⟩
    have hmembers := nestingMembers_le_iff.mpr fun member hmember => (h member hmember).nesting
    rw [nesting_object]
    omega

theorem isFinite_of_exact {x : Float} (h : (float x).Exact) : x.isFinite = true := by
  cases h with
  | float hfinite => exact hfinite

/-- What a decimal comes to is finite, or it is refused. -/
theorem IsSpelled.isFinite {x : Float} (h : IsSpelled x) : x.isFinite = true := by
  obtain ⟨negative, significand, exponent, -, hdouble⟩ := h
  unfold Reader.double at hdouble
  simp only at hdouble
  split at hdouble
  next => cases hdouble
  next hne =>
    cases hdouble
    exact isFinite_ofWord negative (Nat.lt_of_le_of_ne (scale_le significand exponent) hne)

theorem Legible.exact {json : Json} (h : json.Legible) : json.Exact :=
  InRange.mono h fun _ hspelled => hspelled.isFinite

theorem natAbs_lt_of_exact {n : Int} (h : (integer n).Exact) : n.natAbs < 2 ^ 64 := by
  cases h with
  | integer hleast hgreatest =>
    rw [minSigned] at hleast
    rw [maxUnsigned] at hgreatest
    omega

/-- An integer of a text is read as a finite double. -/
theorem isFinite_ofInt {n : Int} (h : (integer n).Exact) : (ofInt n).isFinite = true :=
  Number.isFinite_ofInt (natAbs_lt_of_exact h)

namespace Reader

/-- What a reader leaves is an end of what it was given, and what it reads is `good`. -/
def Reads {α : Type} (read : List Char → Except Error (Read α)) (good : α → Prop) : Prop :=
  ∀ cs x rest, read cs = .ok (x, rest) → rest <:+ cs ∧ good x

/-! ## 2. Strings and numbers -/

theorem skipBlank_suffix (cs : List Char) : skipBlank cs <:+ cs := List.dropWhile_suffix _

theorem suffix_of_skipBlank {c : Char} {cs rest : List Char} (h : skipBlank cs = c :: rest) :
    rest <:+ cs :=
  (List.suffix_cons c rest).trans (h ▸ skipBlank_suffix cs)

theorem word_suffix {expected cs rest : List Char} (h : word expected cs = .ok rest) :
    rest <:+ cs := by
  induction expected generalizing cs with
  | nil =>
    cases h
    exact List.suffix_refl _
  | cons c more ih =>
    cases cs with
    | nil => cases h
    | cons d cs =>
      rw [word] at h
      split at h
      next => exact (ih h).trans (List.suffix_cons d cs)
      next => cases h

theorem prepend_eq_ok {c : Char} {result : Except Error (Read (List Char))} {body rest : List Char}
    (h : prepend c result = .ok (body, rest)) : ∃ tail, result = .ok (tail, rest) := by
  cases result with
  | error error => cases h
  | ok read =>
    cases h
    exact ⟨_, rfl⟩

theorem stringBody_suffix {skip : Nat} {cs body rest : List Char}
    (h : stringBody skip cs = .ok (body, rest)) : rest <:+ cs := by
  fun_induction stringBody skip cs generalizing body with
  | case2 c cs skip ih => exact (ih h).trans (List.suffix_cons c cs)
  | case3 cs =>
    cases h
    exact List.suffix_cons _ _
  | case5 letter cs c hletter hquote ih =>
    obtain ⟨tail, htail⟩ := prepend_eq_ok h
    exact ((ih htail).trans (List.suffix_cons _ _)).trans (List.suffix_cons _ _)
  | case6 cs c used hescape hquote hletter ih =>
    obtain ⟨tail, htail⟩ := prepend_eq_ok h
    exact ((ih htail).trans (List.suffix_cons _ _)).trans (List.suffix_cons _ _)
  | case10 c cs hquote hbackslash hcontrol ih =>
    obtain ⟨tail, htail⟩ := prepend_eq_ok h
    exact (ih htail).trans (List.suffix_cons c cs)
  | case1 | case4 | case7 | case8 | case9 => cases h

theorem string_suffix {cs rest : List Char} {s : String} (h : string cs = .ok (s, rest)) :
    rest <:+ cs := by
  obtain ⟨⟨body, after⟩, hbody, hresult⟩ := bind_eq_ok.mp h
  cases hresult
  exact stringBody_suffix hbody

theorem digits_suffix {cs ds rest : List Char} (h : digits cs = .ok (ds, rest)) : rest <:+ cs := by
  have hrest : rest = (Literal.spanDigits cs).2 := by
    unfold digits at h
    split at h
    next => cases h
    next => cases h
    next heq =>
      cases h
      rw [heq]
  rw [hrest]
  exact List.dropWhile_suffix _

theorem wholePart_suffix {cs ds rest : List Char} (h : wholePart cs = .ok (ds, rest)) :
    rest <:+ cs := by
  obtain ⟨⟨whole, after⟩, hdigits, hresult⟩ := bind_eq_ok.mp h
  simp only at hresult
  split at hresult
  next => cases hresult
  next =>
    cases hresult
    exact digits_suffix hdigits

theorem fractionPart_suffix {cs rest : List Char} {fraction : Option (List Char)}
    (h : fractionPart cs = .ok (fraction, rest)) : rest <:+ cs := by
  cases cs with
  | nil =>
    cases h
    exact List.suffix_refl _
  | cons c cs =>
    rw [fractionPart] at h
    split at h
    next =>
      obtain ⟨⟨ds, after⟩, hdigits, hresult⟩ := bind_eq_ok.mp h
      cases hresult
      exact (digits_suffix hdigits).trans (List.suffix_cons c cs)
    next =>
      cases h
      exact List.suffix_refl _

theorem spanSign_suffix (cs : List Char) : (Literal.spanSign cs).2 <:+ cs := by
  unfold Literal.spanSign
  split
  · exact List.suffix_cons _ _
  · exact List.suffix_cons _ _
  · exact List.suffix_refl _

theorem exponentPart_suffix {cs rest : List Char} {exponent : Option Int}
    (h : exponentPart cs = .ok (exponent, rest)) : rest <:+ cs := by
  cases cs with
  | nil =>
    cases h
    exact List.suffix_refl _
  | cons c cs =>
    rw [exponentPart] at h
    split at h
    next =>
      obtain ⟨⟨ds, after⟩, hdigits, hresult⟩ := bind_eq_ok.mp h
      cases hresult
      exact ((digits_suffix hdigits).trans (spanSign_suffix cs)).trans (List.suffix_cons c cs)
    next =>
      cases h
      exact List.suffix_refl _

theorem plain_of_leaf {depth : Nat} {json : Json} (hnesting : json.nesting = 0)
    (hlegible : json.Legible) : json.Plain depth where
  legible := hlegible
  nesting := hnesting ▸ Nat.zero_le depth

/-- A number that was read. -/
structure IsNumber (depth : Nat) (json : Json) : Prop where
  plain : json.Plain depth
  opening : json.opening? = none

section

variable {negative : Bool} {significand : Nat} {json : Json}

theorem double_isNumber {exponent : Int} (hfits : significand ≤ maxSignificand)
    (h : double negative significand exponent = .ok json) (depth : Nat) : IsNumber depth json := by
  have hfloat : ∃ x, json = .float x := by
    unfold double at h
    simp only at h
    split at h
    next => cases h
    next =>
      cases h
      exact ⟨_, rfl⟩
  obtain ⟨x, rfl⟩ := hfloat
  exact ⟨plain_of_leaf rfl (.float ⟨negative, significand, exponent, hfits, h⟩), rfl⟩

theorem wholeNumber_isNumber {left : Nat} (hfits : significand ≤ maxSignificand)
    (h : wholeNumber negative significand left = .ok json) (depth : Nat) : IsNumber depth json := by
  unfold wholeNumber at h
  split at h
  next =>
    cases h
    refine ⟨plain_of_leaf rfl (.integer ?_ ?_), rfl⟩
    · rw [minSigned]
      omega
    · rw [maxSignificand] at hfits
      rw [maxUnsigned]
      omega
  next =>
    split at h
    next hsmall =>
      cases h
      refine ⟨plain_of_leaf rfl (.integer hsmall.2.2 ?_), rfl⟩
      rw [maxUnsigned]
      omega
    next => exact double_isNumber hfits h depth

end

theorem number_unsigned (cs : List Char) :
    ∃ negative tail, number cs = unsigned negative tail ∧ tail <:+ cs := by
  by_cases hminus : cs.head? = some '-'
  · obtain ⟨tail, rfl⟩ := List.head?_eq_some_iff.mp hminus
    exact ⟨true, tail, rfl, List.suffix_cons _ _⟩
  · refine ⟨false, cs, ?_, List.suffix_refl cs⟩
    exact number_signText false fun c hc hsame => hminus (hsame ▸ hc)

theorem unsigned_reads (negative : Bool) (depth : Nat) :
    Reads (unsigned negative) (IsNumber depth) := by
  intro cs json rest h
  obtain ⟨⟨whole, afterWhole⟩, hwhole, h⟩ := bind_eq_ok.mp h
  obtain ⟨⟨fraction, afterFraction⟩, hfraction, h⟩ := bind_eq_ok.mp h
  obtain ⟨⟨exponent, afterExponent⟩, hexponent, h⟩ := bind_eq_ok.mp h
  have hsuffix := ((exponentPart_suffix hexponent).trans (fractionPart_suffix hfraction)).trans
    (wholePart_suffix hwhole)
  have hfits := takeDigits_bounded (Nat.zero_le maxSignificand) whole
  simp only at h
  split at h
  next =>
    obtain ⟨value, hvalue, h⟩ := bind_eq_ok.mp h
    cases h
    exact ⟨hsuffix, wholeNumber_isNumber hfits hvalue depth⟩
  next =>
    obtain ⟨value, hvalue, h⟩ := bind_eq_ok.mp h
    cases h
    exact ⟨hsuffix, double_isNumber (takeDigits_bounded hfits _) hvalue depth⟩

theorem number_reads (depth : Nat) : Reads number (IsNumber depth) := by
  intro cs json rest h
  obtain ⟨negative, tail, hnumber, htail⟩ := number_unsigned cs
  rw [hnumber] at h
  obtain ⟨hsuffix, hnumber⟩ := unsigned_reads negative depth tail json rest h
  exact ⟨hsuffix.trans htail, hnumber⟩

/-! ## 3. Values -/

/-- What follows in a list begins after blanks, and after a comma unless it is the first item. -/
theorem nextItem_cases {first : Bool} {cs : List Char} {next : NextItem}
    (h : nextItem first cs = .ok next) :
    ∃ c tail, skipBlank cs = c :: tail ∧
      (next = .close tail ∨ (first = true ∧ next = .item (c :: tail)) ∨
        (first = false ∧ next = .item (skipBlank tail))) := by
  unfold nextItem at h
  split at h
  next => cases h
  next c tail hblank =>
    refine ⟨c, tail, hblank, ?_⟩
    split at h
    next =>
      cases h
      exact Or.inl rfl
    next =>
      cases first with
      | true =>
        cases h
        exact Or.inr (Or.inl ⟨rfl, rfl⟩)
      | false =>
        rw [if_neg Bool.false_ne_true] at h
        split at h
        next =>
          split at h
          next => cases h
          next d more hmore =>
            split at h
            next => cases h
            next =>
              cases h
              exact Or.inr (Or.inr ⟨rfl, by rw [hmore]⟩)
        next => cases h

theorem close_suffix {first : Bool} {cs rest : List Char}
    (h : nextItem first cs = .ok (.close rest)) : rest <:+ cs := by
  obtain ⟨c, tail, hblank, hnext | ⟨-, hnext⟩ | ⟨-, hnext⟩⟩ := nextItem_cases h
  · cases hnext
    exact suffix_of_skipBlank hblank
  · cases hnext
  · cases hnext

theorem item_suffix {first : Bool} {cs rest : List Char}
    (h : nextItem first cs = .ok (.item rest)) : rest <:+ cs := by
  obtain ⟨c, tail, hblank, hnext | ⟨-, hnext⟩ | ⟨-, hnext⟩⟩ := nextItem_cases h
  · cases hnext
  · cases hnext
    exact hblank ▸ skipBlank_suffix cs
  · cases hnext
    exact (skipBlank_suffix tail).trans (suffix_of_skipBlank hblank)

/-- An item that is not the first one comes after a comma. -/
theorem item_lt {cs rest : List Char} (h : nextItem false cs = .ok (.item rest)) :
    rest.length < cs.length := by
  obtain ⟨c, tail, hblank, hnext | ⟨hfirst, -⟩ | ⟨-, hnext⟩⟩ := nextItem_cases h
  · cases hnext
  · cases hfirst
  · cases hnext
    have hcs := (skipBlank_suffix cs).length_le
    rw [hblank, List.length_cons] at hcs
    exact Nat.lt_of_le_of_lt (skipBlank_suffix tail).length_le hcs

theorem memberName_member {cs : List Char} {next : NextMember} (h : memberName cs = .ok next) :
    ∃ name rest, next = .member name rest ∧ rest <:+ cs := by
  cases cs with
  | nil => cases h
  | cons c cs =>
    rw [memberName] at h
    split at h
    next =>
      obtain ⟨⟨name, rest⟩, hname, h⟩ := bind_eq_ok.mp h
      cases h
      exact ⟨name, rest, rfl, (string_suffix hname).trans (List.suffix_cons c cs)⟩
    next => cases h

/-- What follows in an object is its end or a member, and either leaves an end of the characters. -/
theorem nextMember_cases {first : Bool} {cs : List Char} {next : NextMember}
    (h : nextMember first cs = .ok next) :
    ∃ rest, rest <:+ cs ∧ (next = .close rest ∨ ∃ name, next = .member name rest) := by
  unfold nextMember at h
  split at h
  next => cases h
  next c tail hblank =>
    have htail := suffix_of_skipBlank hblank
    split at h
    next =>
      cases h
      exact ⟨tail, htail, Or.inl rfl⟩
    next =>
      split at h
      next =>
        obtain ⟨name, rest, rfl, hrest⟩ := memberName_member h
        exact ⟨rest, hrest.trans (hblank ▸ skipBlank_suffix cs), Or.inr ⟨name, rfl⟩⟩
      next =>
        split at h
        next =>
          split at h
          next => cases h
          next d more hmore =>
            split at h
            next => cases h
            next =>
              obtain ⟨name, rest, rfl, hrest⟩ := memberName_member h
              have hcs := (hmore ▸ skipBlank_suffix tail).trans htail
              exact ⟨rest, hrest.trans hcs, Or.inr ⟨name, rfl⟩⟩
        next => cases h

theorem colon_suffix {cs rest : List Char} (h : colon cs = .ok rest) : rest <:+ cs := by
  unfold colon at h
  split at h
  next => cases h
  next c tail hblank =>
    split at h
    next =>
      cases h
      exact suffix_of_skipBlank hblank
    next => cases h

section

variable {α : Type} {item : List Char → Except Error (Read α)} {good : α → Prop}

theorem listItems_reads (hitem : Reads item good) (fuel : Nat) (first : Bool) :
    Reads (listItems item fuel first) fun items => ∀ x ∈ items, good x := by
  induction fuel generalizing first with
  | zero => exact fun _ _ _ h => nomatch h
  | succ fuel ih =>
    intro cs items rest h
    rw [listItems] at h
    obtain ⟨next, hnext, h⟩ := bind_eq_ok.mp h
    cases next with
    | close after =>
      cases h
      exact ⟨close_suffix hnext, fun x hx => absurd hx List.not_mem_nil⟩
    | item after =>
      obtain ⟨⟨x, afterItem⟩, hx, h⟩ := bind_eq_ok.mp h
      obtain ⟨⟨xs, afterItems⟩, hxs, h⟩ := bind_eq_ok.mp h
      cases h
      obtain ⟨hsuffix, hgood⟩ := hitem _ _ _ hx
      obtain ⟨hrestSuffix, hrestGood⟩ := ih false _ _ _ hxs
      exact ⟨(hrestSuffix.trans hsuffix).trans (item_suffix hnext),
        List.forall_mem_cons.mpr ⟨hgood, hrestGood⟩⟩

theorem objectMembers_reads (hitem : Reads item good) (fuel : Nat) (first : Bool) :
    Reads (objectMembers item fuel first) fun members => ∀ member ∈ members, good member.2 := by
  induction fuel generalizing first with
  | zero => exact fun _ _ _ h => nomatch h
  | succ fuel ih =>
    intro cs members rest h
    rw [objectMembers] at h
    obtain ⟨next, hnext, h⟩ := bind_eq_ok.mp h
    obtain ⟨after, hafter, rfl | ⟨name, rfl⟩⟩ := nextMember_cases hnext
    · cases h
      exact ⟨hafter, fun member hmember => absurd hmember List.not_mem_nil⟩
    · obtain ⟨afterColon, hcolon, h⟩ := bind_eq_ok.mp h
      obtain ⟨⟨x, afterItem⟩, hx, h⟩ := bind_eq_ok.mp h
      obtain ⟨⟨xs, afterItems⟩, hxs, h⟩ := bind_eq_ok.mp h
      cases h
      obtain ⟨hsuffix, hgood⟩ := hitem _ _ _ hx
      obtain ⟨hrestSuffix, hrestGood⟩ := ih false _ _ _ hxs
      exact ⟨((hrestSuffix.trans hsuffix).trans (colon_suffix hcolon)).trans hafter,
        List.forall_mem_cons.mpr ⟨hgood, hrestGood⟩⟩

end

section

variable {nested : Option (List Char → Except Error (Read Json))} {c : Char} {cs rest : List Char}
  {json : Json}

/-- What a value is that begins with the character `c`. -/
theorem valueFrom_cases (h : valueFrom nested c cs = .ok (json, rest)) :
    (rest <:+ cs ∧ (json = .null ∨ ∃ b, json = .boolean b)) ∨
      (c = '"' ∧ ∃ s, string cs = .ok (s, rest) ∧ json = .string s) ∨
      number (c :: cs) = .ok (json, rest) ∨
      (∃ item ∈ nested, c = '[' ∧ ∃ items,
        listItems item (cs.length + 1) true cs = .ok (items, rest) ∧ json = array items) ∨
      (∃ item ∈ nested, c = '\x7b' ∧ ∃ members,
        objectMembers item (cs.length + 1) true cs = .ok (members, rest) ∧
          json = object members) := by
  unfold valueFrom at h
  split at h
  · obtain ⟨after, hword, h⟩ := bind_eq_ok.mp h
    cases h
    exact Or.inl ⟨word_suffix hword, Or.inl rfl⟩
  split at h
  · obtain ⟨after, hword, h⟩ := bind_eq_ok.mp h
    cases h
    exact Or.inl ⟨word_suffix hword, Or.inr ⟨true, rfl⟩⟩
  split at h
  · obtain ⟨after, hword, h⟩ := bind_eq_ok.mp h
    cases h
    exact Or.inl ⟨word_suffix hword, Or.inr ⟨false, rfl⟩⟩
  split at h
  next hc =>
    obtain ⟨⟨s, after⟩, hstring, h⟩ := bind_eq_ok.mp h
    cases h
    exact Or.inr (Or.inl ⟨hc, s, hstring, rfl⟩)
  split at h
  · exact Or.inr (Or.inr (Or.inl h))
  split at h
  next hc =>
    cases nested with
    | none => cases h
    | some item =>
      obtain ⟨⟨items, after⟩, hitems, h⟩ := bind_eq_ok.mp h
      cases h
      exact Or.inr (Or.inr (Or.inr (Or.inl ⟨item, rfl, hc, items, hitems, rfl⟩)))
  split at h
  next hc =>
    cases nested with
    | none => cases h
    | some item =>
      obtain ⟨⟨members, after⟩, hmembers, h⟩ := bind_eq_ok.mp h
      cases h
      exact Or.inr (Or.inr (Or.inr (Or.inr ⟨item, rfl, hc, members, hmembers, rfl⟩)))
  · cases h

/-- A value whose lists and objects are read with `nested`, which leaves one level less to their
parts. -/
theorem valueFrom_reads {depth : Nat}
    (hnested : ∀ item ∈ nested, ∃ inner, depth = inner + 1 ∧ Reads item (·.Plain inner))
    (h : valueFrom nested c cs = .ok (json, rest)) : rest <:+ c :: cs ∧ json.Plain depth := by
  have htail : ∀ {rest : List Char}, rest <:+ cs → rest <:+ c :: cs :=
    fun hrest => hrest.trans (List.suffix_cons c cs)
  obtain ⟨hsuffix, rfl | ⟨b, rfl⟩⟩ | ⟨-, s, hstring, rfl⟩ | hnumber |
    ⟨item, hmem, -, items, hitems, rfl⟩ | ⟨item, hmem, -, members, hmembers, rfl⟩ :=
    valueFrom_cases h
  · exact ⟨htail hsuffix, plain_of_leaf rfl .null⟩
  · exact ⟨htail hsuffix, plain_of_leaf rfl (.boolean b)⟩
  · exact ⟨htail (string_suffix hstring), plain_of_leaf rfl (.string s)⟩
  · obtain ⟨hsuffix, hread⟩ := number_reads depth _ _ _ hnumber
    exact ⟨hsuffix, hread.plain⟩
  · obtain ⟨inner, rfl, hitem⟩ := hnested item hmem
    obtain ⟨hsuffix, hplain⟩ := listItems_reads hitem _ _ _ _ _ hitems
    exact ⟨htail hsuffix, plain_array_iff.mpr ⟨inner, rfl, hplain⟩⟩
  · obtain ⟨inner, rfl, hitem⟩ := hnested item hmem
    obtain ⟨hsuffix, hplain⟩ := objectMembers_reads hitem _ _ _ _ _ hmembers
    exact ⟨htail hsuffix, plain_object_iff.mpr ⟨inner, rfl, hplain⟩⟩

/-- Strings, lists and objects are told by their first character. -/
theorem valueFrom_opening {d : Char} (h : valueFrom nested c cs = .ok (json, rest))
    (hd : json.opening? = some d) : c = d := by
  obtain ⟨-, rfl | ⟨b, rfl⟩⟩ | ⟨hc, s, -, rfl⟩ | hnumber | ⟨-, -, hc, items, -, rfl⟩ |
    ⟨-, -, hc, members, -, rfl⟩ := valueFrom_cases h
  · cases hd
  · cases hd
  · cases hd
    exact hc
  · rw [(number_reads 0 _ _ _ hnumber).2.opening] at hd
    cases hd
  · cases hd
    exact hc
  · cases hd
    exact hc

end

/-- A value that was read is nested no deeper than allowed and has the form of values that are
read. -/
theorem value_reads (depth : Nat) : Reads (value depth) (·.Plain depth) := by
  induction depth with
  | zero =>
    intro cs json rest h
    rw [value] at h
    split at h
    next => cases h
    next c tail hblank =>
      obtain ⟨hsuffix, hplain⟩ := valueFrom_reads (by simp) h
      exact ⟨hsuffix.trans (hblank ▸ skipBlank_suffix cs), hplain⟩
  | succ depth ih =>
    intro cs json rest h
    rw [value] at h
    split at h
    next => cases h
    next c tail hblank =>
      have hnested : ∀ item ∈ some (value depth),
          ∃ inner, depth + 1 = inner + 1 ∧ Reads item (·.Plain inner) := by
        intro item hitem
        obtain rfl := Option.some.inj hitem
        exact ⟨depth, rfl, ih⟩
      obtain ⟨hsuffix, hplain⟩ := valueFrom_reads hnested h
      exact ⟨hsuffix.trans (hblank ▸ skipBlank_suffix cs), hplain⟩

end Reader

/-! ## 4. Texts -/

namespace Reader

/-- The text of a double is its significand with its exponent. -/
theorem exists_spells_float {x : Float} (h : IsSpelled x) : ∃ text, Spells text (.float x) := by
  obtain ⟨negative, significand, exponent, hfits, hdouble⟩ := h
  refine ⟨signText negative ++ ((Nat.repr significand).toList ++
    'e' :: (if exponent < 0 then '-' else '+') :: (Nat.repr exponent.natAbs).toList), ?_⟩
  refine spells_number rfl fun rest hends => ?_
  have hexponent := exponentPart_append exponent hends.endsDigits
  have htaken : takeDigits 0 (Nat.repr significand).toList = (significand, []) := by
    rw [takeDigits_of_le] <;> rw [digitsValue_repr]
    exact hfits
  rw [List.append_assoc, List.append_assoc, List.cons_append, List.cons_append,
    number_parts negative (isWhole_repr significand) (endsDigits_cons rfl _) rfl hexponent]
  simp only [Option.getD_some, Option.getD_none, pointed, htaken, takeDigits, List.length_nil,
    Nat.sub_self, Nat.cast_zero, Int.add_zero, Int.sub_zero, hdouble]
  rfl

theorem exists_forall₂ {α β : Type} {relation : α → β → Prop} {targets : List β}
    (h : ∀ target ∈ targets, ∃ source, relation source target) :
    ∃ sources, List.Forall₂ relation sources targets := by
  induction targets with
  | nil => exact ⟨[], .nil⟩
  | cons target rest ih =>
    obtain ⟨source, hsource⟩ := h target (List.mem_cons_self ..)
    obtain ⟨sources, hsources⟩ := ih fun other hother => h other (List.mem_cons_of_mem _ hother)
    exact ⟨source :: sources, .cons hsource hsources⟩

/-- A legible value has a text. -/
theorem exists_spelling {json : Json} (h : json.Legible) : ∃ text, Spells text json := by
  induction h with
  | null => exact ⟨_, spells_null⟩
  | boolean value => exact ⟨_, spells_text (.boolean value : InRange IsSpelled _)⟩
  | integer hleast hgreatest =>
    exact ⟨_, spells_text (.integer hleast hgreatest : InRange IsSpelled _)⟩
  | float hspelled => exact exists_spells_float hspelled
  | string value => exact ⟨_, spells_string value⟩
  | array _ ih =>
    obtain ⟨texts, htexts⟩ := exists_forall₂ ih
    exact ⟨_, spells_array htexts⟩
  | @object members _ ih =>
    have hmembers : ∀ member ∈ members, ∃ spelled, SpellsMember spelled member := by
      intro member hmember
      obtain ⟨text, htext⟩ := ih member hmember
      exact ⟨(member.1, text), rfl, htext⟩
    obtain ⟨spelled, hspelled⟩ := exists_forall₂ hmembers
    exact ⟨_, spells_object hspelled⟩

end Reader

/-- The values that texts stand for are legible and nested no deeper than allowed. -/
theorem readable_iff {json : Json} : json.Readable ↔ json.Plain Reader.maxNesting := by
  constructor
  · rintro ⟨text, h⟩
    obtain ⟨⟨value, rest⟩, hvalue, h⟩ := bind_eq_ok.mp h
    obtain ⟨-, -, h⟩ := bind_eq_ok.mp h
    cases h
    exact (Reader.value_reads _ _ _ _ hvalue).2
  · intro h
    obtain ⟨text, htext⟩ := Reader.exists_spelling h.legible
    refine ⟨String.ofList text, ?_⟩
    rw [parse_of_spells htext, okIf, if_pos h.nesting]

end Templating.Json
