import Templating.Proofs.Number.Comparison
import Templating.Proofs.Number.Pointed
import Templating.Proofs.Toml.DateTime
import Templating.Toml.Printer
import Templating.Toml.Reader

/-!
# Printed TOML numbers

Where a value is wanted, a text that begins like a number may be a date-time, a number with a point,
a number that is not finite or an integer, and the first of these forms that fits counts. What is
printed has one form only.

Results:
1. `EndsValue.endsTime`, `EndsValue.endsDate`: what follows a value goes on with no date-time.
2. `digits?_append`, `wholeDigits?_append`: runs of digits.
3. `numeric?_dateTime`, `numeric?_float`, `numeric?_integer`: what is printed is read back, a double
   that is not finite too.
-/

namespace Templating.Toml

open Number Number.Literal Reader

/-! ## 1. What follows a value -/

/-- What stands after a printed value: the end of its line, a comma, or the end of the array or the
inline table that holds it. -/
inductive EndsValue : List Char → Prop
  | line (rest : List Char) : EndsValue ('\n' :: rest)
  | comma (rest : List Char) : EndsValue (',' :: rest)
  | bracket (rest : List Char) : EndsValue (']' :: rest)
  | brace (rest : List Char) : EndsValue (' ' :: '\x7d' :: rest)

/-- A run of digits ends before these characters. -/
def EndsRun (cs : List Char) : Prop := ∀ c ∈ cs.head?, c.isDigit = false ∧ c ≠ '_'

/-- Numbers and date-times begin so. -/
def StartsNumeric (cs : List Char) : Prop :=
  ∃ c rest, cs = c :: rest ∧ (c.isDigit = true ∨ c = '-' ∨ c = 'i' ∨ c = 'n')

/-- A number does not begin with a character of another kind. -/
theorem StartsNumeric.head_ne {cs : List Char} (h : StartsNumeric cs) :
    ∃ c rest, cs = c :: rest ∧
      ∀ d, d.isDigit = false ∧ d ≠ '-' ∧ d ≠ 'i' ∧ d ≠ 'n' → c ≠ d := by
  obtain ⟨c, rest, rfl, hc⟩ := h
  refine ⟨c, rest, rfl, ?_⟩
  rintro d ⟨hdigit, hminus, hi, hn⟩ rfl
  rcases hc with hc | hc | hc | hc
  · rw [hdigit] at hc
    cases hc
  · exact hminus hc
  · exact hi hc
  · exact hn hc

namespace EndsValue

variable {cs : List Char}

theorem head (h : EndsValue cs) :
    ∃ c rest, cs = c :: rest ∧ (c = '\n' ∨ c = ',' ∨ c = ']' ∨ c = ' ') := by
  cases h with
  | line rest => exact ⟨_, _, rfl, .inl rfl⟩
  | comma rest => exact ⟨_, _, rfl, .inr (.inl rfl)⟩
  | bracket rest => exact ⟨_, _, rfl, .inr (.inr (.inl rfl))⟩
  | brace rest => exact ⟨_, _, rfl, .inr (.inr (.inr rfl))⟩

/-- A value does not go on with a character that is none of those that may follow it. -/
theorem head_ne (h : EndsValue cs) {c : Char}
    (hc : c ≠ '\n' ∧ c ≠ ',' ∧ c ≠ ']' ∧ c ≠ ' ') : cs.head? ≠ some c := by
  obtain ⟨d, rest, rfl, hd⟩ := h.head
  intro heq
  obtain rfl := Option.some.inj heq
  obtain ⟨hline, hcomma, hbracket, hblank⟩ := hc
  rcases hd with hd | hd | hd | hd
  · exact hline hd
  · exact hcomma hd
  · exact hbracket hd
  · exact hblank hd

theorem endsRun (h : EndsValue cs) : EndsRun cs := by
  obtain ⟨c, rest, rfl, hc⟩ := h.head
  rintro d ⟨⟩
  rcases hc with rfl | rfl | rfl | rfl <;> exact ⟨rfl, by decide⟩

theorem endsDigits (h : EndsValue cs) : EndsDigits cs := fun c hc => (h.endsRun c hc).1

theorem endsTime (h : EndsValue cs) : EndsTime cs := by
  obtain ⟨c, rest, rfl, hc⟩ := h.head
  refine ⟨c, rest, rfl, ?_⟩
  rcases hc with rfl | rfl | rfl | rfl <;> decide

theorem endsDate (h : EndsValue cs) : EndsDate cs := by cases h <;> rfl

theorem exponent? (h : EndsValue cs) : exponent? cs = none := by
  obtain ⟨c, rest, rfl, hc⟩ := h.head
  rcases hc with rfl | rfl | rfl | rfl <;> rfl

theorem fraction? (h : EndsValue cs) : fraction? cs = none := by
  obtain ⟨c, rest, rfl, hc⟩ := h.head
  rcases hc with rfl | rfl | rfl | rfl <;> rfl

end EndsValue

/-! ## 2. Runs of digits -/

theorem digits?_append {ds rest : List Char} (hds : AllDigits ds) (hnonempty : ds ≠ [])
    (hrest : EndsRun rest) : digits? Char.isDigit (ds ++ rest) = some (ds, rest) := by
  have hmore : ∀ ds, AllDigits ds → digits?.more Char.isDigit (ds ++ rest) = (ds, rest) := by
    intro ds hds
    induction ds with
    | nil =>
      cases rest with
      | nil => rfl
      | cons c rest =>
        obtain ⟨hdigit, hscore⟩ := hrest c rfl
        rw [List.nil_append, digits?.more.eq_def]
        simp only [hdigit, hscore, Bool.false_eq_true, ↓reduceIte]
    | cons d ds ih =>
      have hd := hds d List.mem_cons_self
      rw [List.cons_append, digits?.more.eq_def]
      simp only [hd, ↓reduceIte, ih fun c hc => hds c (List.mem_cons_of_mem d hc)]
  obtain ⟨d, ds, rfl⟩ := List.exists_cons_of_ne_nil hnonempty
  rw [List.cons_append, digits?, if_pos (hds d List.mem_cons_self),
    hmore ds fun c hc => hds c (List.mem_cons_of_mem d hc)]

theorem wholeDigits?_append {whole rest : List Char} (hwhole : IsWhole whole)
    (hrest : EndsRun rest) : wholeDigits? (whole ++ rest) = some (whole, rest) := by
  unfold wholeDigits?
  split
  · next after heq =>
    obtain ⟨d, ds, rfl⟩ := List.exists_cons_of_ne_nil hwhole.nonempty
    obtain ⟨rfl, hds⟩ := List.cons.inj heq
    obtain rfl : ds = [] := List.eq_nil_of_length_eq_zero
      (Nat.succ.inj (hwhole.leading rfl))
    have hafter : rest = after := hds
    rw [hafter]
  · exact digits?_append hwhole.digits hwhole.nonempty hrest

theorem valueOf_ten {ds : List Char} (h : AllDigits ds) : valueOf 10 ds = digitsValue 0 ds := by
  have hfold : ∀ start, ds.foldl (fun n c => 10 * n + (hexValue? c).getD 0) start =
      digitsValue start ds := by
    induction ds with
    | nil => exact fun start => rfl
    | cons d ds ih =>
      intro start
      have hd := h d List.mem_cons_self
      simp only [Char.isDigit, Bool.and_eq_true, decide_eq_true_eq] at hd
      have hvalue : hexValue? d = some (d.toNat - '0'.toNat) := if_pos hd
      rw [List.foldl_cons, hvalue, ih fun c hc => h c (List.mem_cons_of_mem d hc)]
      rfl
  exact hfold 0

/-! ## 3. Numbers -/

section

variable {whole : List Char} (hwhole : IsWhole whole) (negative : Bool) (rest : List Char)

include hwhole

theorem exists_digit : ∃ d ds, whole = d :: ds ∧ d.isDigit = true := by
  obtain ⟨d, ds, hcons⟩ := List.exists_cons_of_ne_nil hwhole.nonempty
  exact ⟨d, ds, hcons, hwhole.digits d (hcons ▸ List.mem_cons_self)⟩

theorem sign_whole :
    sign ((if negative then ['-'] else []) ++ (whole ++ rest)) = (negative, whole ++ rest) := by
  obtain ⟨d, ds, rfl, hd⟩ := exists_digit hwhole
  exact spanSign_signed negative hd _

theorem startsNumeric_whole :
    StartsNumeric ((if negative then ['-'] else []) ++ (whole ++ rest)) := by
  obtain ⟨d, ds, rfl, hd⟩ := exists_digit hwhole
  cases negative with
  | true => exact ⟨_, _, rfl, .inr (.inl rfl)⟩
  | false => exact ⟨_, _, rfl, .inl hd⟩

/-- What begins with a digit has no name. -/
theorem specialFloat?_whole :
    specialFloat? ((if negative then ['-'] else []) ++ (whole ++ rest)) = none := by
  obtain ⟨d, ds, hcons, hd⟩ := exists_digit hwhole
  rw [specialFloat?, sign_whole hwhole, hcons]
  split
  · next heq =>
    obtain ⟨rfl, -⟩ := List.cons.inj (Prod.mk.inj heq).2
    cases hd
  · next heq =>
    obtain ⟨rfl, -⟩ := List.cons.inj (Prod.mk.inj heq).2
    cases hd
  · rfl

end

theorem decimalFloat?_point (negative : Bool) {whole fraction rest : List Char}
    (hwhole : IsWhole whole) (hfraction : AllDigits fraction) (hnonempty : fraction ≠ [])
    (hrest : EndsValue rest) :
    decimalFloat? ((if negative then ['-'] else []) ++ (whole ++ '.' :: (fraction ++ rest))) =
      (finite? negative
        ⟨digitsValue (digitsValue 0 whole) fraction, -(fraction.length : Int)⟩).map (·, rest) := by
  have hpoint : EndsRun ('.' :: (fraction ++ rest)) := by
    rintro c ⟨⟩
    exact ⟨rfl, by decide⟩
  have hdigits := wholeDigits?_append hwhole hpoint
  have hplaces : Reader.fraction? ('.' :: (fraction ++ rest)) = some (fraction, rest) :=
    digits?_append hfraction hnonempty hrest.endsRun
  rw [decimalFloat?, sign_whole hwhole]
  simp only [bind, Option.bind, hdigits, hplaces, hrest.exponent?, Option.getD_none,
    valueOf_ten (allDigits_append hwhole.digits hfraction), digitsValue_append, Int.zero_sub]
  cases finite? negative _ <;> rfl

theorem finite?_nearest {x : Float} (hx : x.isFinite = true) {d : Decimal}
    (h : d.nearest Format.double = magnitude x) : finite? (isNegative x) d = some (.float x) := by
  have hne : magnitude x ≠ Format.double.infinity := Nat.ne_of_lt (isFinite_iff.mp hx)
  unfold finite?
  simp only
  rw [h, if_neg fun hlarge => hne hlarge.1, ofWord_magnitude]

variable {rest : List Char}

theorem numeric?_dateTime {dateTime : DateTime} (h : dateTime.Valid) (hrest : EndsValue rest) :
    numeric? (dateTime.print.toList ++ rest) = some (.dateTime dateTime, rest) := by
  rw [numeric?, DateTime.read?_print h hrest.endsDate hrest.endsTime]

/-- Signs and digits are no date-time. -/
theorem read?_signed (negative : Bool) {ds : List Char} (hds : AllDigits ds) {c : Char}
    (hc : c.isDigit = false ∧ c ≠ '-' ∧ c ≠ ':') (rest : List Char) :
    DateTime.read? ((if negative then ['-'] else []) ++ (ds ++ c :: rest)) = none := by
  obtain ⟨hdigit, hminus, hcolon⟩ := hc
  cases negative with
  | true =>
    exact DateTime.read?_number [] ('-' :: (ds ++ c :: rest))
      (fun _ hc => absurd hc List.not_mem_nil) (endsDigits_cons rfl _) (.inr rfl)
      (fun heq => absurd (Option.some.inj heq) (by decide))
  | false =>
    exact DateTime.read?_number ds (c :: rest) hds (endsDigits_cons hdigit rest)
      (.inl fun heq => hminus (Option.some.inj heq)) (fun heq => hcolon (Option.some.inj heq))

/-- Every double is read back, with the sign of zero. -/
theorem numeric?_float (x : Float) (hrest : EndsValue rest) :
    numeric? ((Layout.pointed.print x).toList ++ rest) = some (.float x, rest) := by
  by_cases hx : x.isFinite = true
  · obtain ⟨whole, fraction, htext, hwhole, hfraction, hnonempty, hnearest⟩ :=
      Layout.pointed_print hx
    rw [htext, List.append_assoc, List.append_assoc, List.cons_append, numeric?,
      read?_signed _ hwhole.digits (by decide), decimalFloat?_point _ hwhole hfraction hnonempty
      hrest, finite?_nearest hx hnearest]
    rfl
  · rcases eq_of_not_isFinite hx with rfl | ⟨negative, rfl⟩
    · rfl
    · cases negative <;> rfl

theorem startsNumeric_float (x : Float) :
    StartsNumeric ((Layout.pointed.print x).toList ++ rest) := by
  by_cases hx : x.isFinite = true
  · obtain ⟨whole, fraction, htext, hwhole, -⟩ := Layout.pointed_print hx
    rw [htext, List.append_assoc, List.append_assoc]
    exact startsNumeric_whole hwhole _ _
  · rcases eq_of_not_isFinite hx with rfl | ⟨negative, rfl⟩
    · exact ⟨_, _, rfl, .inr (.inr (.inr rfl))⟩
    · cases negative with
      | true => exact ⟨_, _, rfl, .inr (.inl rfl)⟩
      | false => exact ⟨_, _, rfl, .inr (.inr (.inl rfl))⟩

theorem toList_toString (n : Int) (rest : List Char) :
    (toString n).toList ++ rest =
      (if decide (n < 0) then ['-'] else []) ++ ((Nat.repr n.natAbs).toList ++ rest) := by
  rw [Int.toString_eq_repr, Int.repr_eq_if]
  by_cases h : n < 0
  · have habs : (-n).toNat = n.natAbs := by omega
    rw [if_neg (by omega), habs, String.toList_append, if_pos (by simpa using h)]
    rfl
  · have habs : n.toNat = n.natAbs := by omega
    rw [if_pos (by omega), habs, if_neg (by simpa using h), List.nil_append]

theorem integer?_decimal {cs : List Char}
    (h : ∀ c rest, cs = '0' :: c :: rest → c ≠ 'x' ∧ c ≠ 'o' ∧ c ≠ 'b') :
    integer? cs = (wholeDigits? (sign cs).2).bind fun (ds, rest) =>
      (fitting? (if (sign cs).1 then -valueOf 10 ds else valueOf 10 ds)).bind fun n =>
        some (.integer n, rest) := by
  unfold integer?
  split
  · exact absurd rfl (h _ _ rfl).1
  · exact absurd rfl (h _ _ rfl).2.1
  · exact absurd rfl (h _ _ rfl).2.2
  · rfl

/-- A zero at the beginning is the whole number, so what follows it is no letter of a base. -/
theorem unprefixed_whole {whole : List Char} (hwhole : IsWhole whole) (negative : Bool)
    (hrest : EndsValue rest) {c : Char} {after : List Char}
    (h : (if negative then ['-'] else []) ++ (whole ++ rest) = '0' :: c :: after) :
    c ≠ 'x' ∧ c ≠ 'o' ∧ c ≠ 'b' := by
  obtain ⟨d, ds, rfl, -⟩ := exists_digit hwhole
  cases negative with
  | true => cases h
  | false =>
    obtain ⟨rfl, hds⟩ := List.cons.inj h
    obtain rfl : ds = [] := List.eq_nil_of_length_eq_zero (Nat.succ.inj (hwhole.leading rfl))
    obtain ⟨e, more, rfl, he⟩ := hrest.head
    obtain ⟨rfl, -⟩ := List.cons.inj hds
    rcases he with rfl | rfl | rfl | rfl <;> decide

/-- An integer is its sign and its magnitude. -/
theorem signed_natAbs (n : Int) :
    (if decide (n < 0) = true then -((n.natAbs : Nat) : Int) else (n.natAbs : Nat)) = n := by
  by_cases h : n < 0
  · rw [if_pos (by simpa using h)]
    omega
  · rw [if_neg (by simpa using h)]
    omega

/-- An integer of 64 bits is read back. -/
theorem numeric?_integer {n : Int} (hleast : Json.minSigned ≤ n) (hgreatest : n < -Json.minSigned)
    (hrest : EndsValue rest) :
    numeric? ((toString n).toList ++ rest) = some (.integer n, rest) := by
  have hwhole := isWhole_repr n.natAbs
  have hdigits := wholeDigits?_append hwhole hrest.endsRun
  have hsign := sign_whole hwhole (decide (n < 0)) rest
  have hspecial := specialFloat?_whole hwhole (decide (n < 0)) rest
  have hplain := fun c after => @unprefixed_whole rest _ hwhole (decide (n < 0)) hrest c after
  have hdate : DateTime.read? ((toString n).toList ++ rest) = none := by
    obtain ⟨c, after, rfl, hc⟩ := hrest.head
    rw [toList_toString]
    exact read?_signed _ hwhole.digits (by rcases hc with rfl | rfl | rfl | rfl <;> decide) after
  have hfloat : decimalFloat? ((toString n).toList ++ rest) = none := by
    rw [toList_toString, decimalFloat?, hsign]
    simp only [bind, Option.bind, hdigits, hrest.fraction?, hrest.exponent?]
  rw [← toList_toString] at hsign hspecial hplain
  rw [numeric?, hdate]
  simp only [hfloat, hspecial, Option.none_or]
  rw [integer?_decimal hplain, hsign]
  simp only [hdigits, Option.bind, valueOf_ten hwhole.digits, digitsValue_repr, signed_natAbs,
    fitting?, if_pos (And.intro hleast hgreatest)]

theorem startsNumeric_integer (n : Int) : StartsNumeric ((toString n).toList ++ rest) := by
  rw [toList_toString]
  exact startsNumeric_whole (isWhole_repr n.natAbs) _ _

theorem startsNumeric_padded {width n : Nat} (hwidth : 0 < width) (h : n < 10 ^ width) :
    StartsNumeric ((padded width n).toList ++ rest) := by
  obtain ⟨hdigits, hlength, -⟩ := padded_digits width n hwidth h
  obtain ⟨d, ds, hcons⟩ := List.exists_cons_of_length_pos (hlength ▸ hwidth)
  rw [hcons] at hdigits ⊢
  exact ⟨_, _, rfl, .inl (hdigits d List.mem_cons_self)⟩

theorem startsNumeric_dateTime {dateTime : DateTime} (h : dateTime.Valid) :
    StartsNumeric (dateTime.print.toList ++ rest) := by
  have hdate : ∀ {date : Date} (rest : List Char), date.Valid →
      StartsNumeric (date.print.toList ++ rest) := by
    intro date rest hvalid
    have hyear := hvalid.year
    rw [DateTime.toList_date]
    exact startsNumeric_padded (by decide) (by omega)
  cases dateTime with
  | date date => exact hdate rest h
  | time time =>
    have hvalid : time.Valid := h
    have hhour := hvalid.hour
    rw [DateTime.print, DateTime.toList_time]
    exact startsNumeric_padded (by decide) (by omega)
  | both date time offset =>
    rw [DateTime.print, String.toList_append, String.toList_append, String.toList_append,
      List.append_assoc, List.append_assoc, List.append_assoc]
    exact hdate _ h.1

end Templating.Toml
