import Templating.Json.Reader
import Templating.Proofs.Number.Pointed
import Templating.Proofs.Number.Scaling

/-!
# Numbers in JSON texts

A printed number is read as a number again, as long as what follows it does not go on with it. An
integer is read back as it was. A double need not be: its text is read by multiplication, which
rounds more than once.

* `rereadDouble` is the double that the text of a double is read as.
* `Reader.ReadsFinite` says that a text is read as a finite double.

Results:
1. `number_parts`: a number is read by its parts.
2. `print_reads`: the text of a finite double is read as a finite double. `number_print`: this is
   `rereadDouble`.
3. `number_integer`: an integer of 64 bits is read back.
-/

namespace Templating.Json

open Number Number.Literal

/-- A number ends before these characters. -/
def EndsNumber (cs : List Char) : Prop :=
  ∀ c ∈ cs.head?, c.isDigit = false ∧ c ≠ '.' ∧ c ≠ 'e' ∧ c ≠ 'E'

namespace EndsNumber

variable {cs : List Char}

theorem endsDigits (h : EndsNumber cs) : EndsDigits cs := fun c hc => (h c hc).1

theorem fractionPart (h : EndsNumber cs) : Reader.fractionPart cs = .ok (none, cs) := by
  cases cs with
  | nil => rfl
  | cons c rest => exact if_neg (h c rfl).2.1

theorem exponentPart (h : EndsNumber cs) : Reader.exponentPart cs = .ok (none, cs) := by
  cases cs with
  | nil => rfl
  | cons c rest => exact if_neg (not_or.mpr (h c rfl).2.2)

end EndsNumber

/-- The double that the text of a double is read as. -/
def rereadDouble (x : Float) : Float :=
  match Reader.number (Layout.json.print x).toList with
  | .ok (.float y, _) => y
  | _ => x

namespace Reader

/-! ## 1. The parts of a number -/

theorem digits_append {ds rest : List Char} (hds : AllDigits ds) (hnonempty : ds ≠ [])
    (hrest : EndsDigits rest) : digits (ds ++ rest) = .ok (ds, rest) := by
  rw [digits, spanDigits_append hds hrest]
  cases ds with
  | nil => exact absurd rfl hnonempty
  | cons d ds => rfl

theorem wholePart_append {whole rest : List Char} (hwhole : IsWhole whole)
    (hrest : EndsDigits rest) : wholePart (whole ++ rest) = .ok (whole, rest) := by
  rw [wholePart, digits_append hwhole.digits hwhole.nonempty hrest]
  refine if_neg ?_
  rintro ⟨hzero, hlength⟩
  rw [hwhole.leading hzero] at hlength
  exact absurd hlength (by decide)

theorem fractionPart_append {ds rest : List Char} (hds : AllDigits ds) (hnonempty : ds ≠ [])
    (hrest : EndsDigits rest) : fractionPart ('.' :: (ds ++ rest)) = .ok (some ds, rest) := by
  rw [fractionPart, if_pos rfl, digits_append hds hnonempty hrest]
  rfl

theorem exponentPart_append (power : Int) {rest : List Char} (hrest : EndsDigits rest) :
    exponentPart ('e' :: (if power < 0 then '-' else '+') ::
      ((Nat.repr power.natAbs).toList ++ rest)) = .ok (some power, rest) := by
  have hdigits := digits_append (allDigits_repr power.natAbs) (repr_ne_nil _) hrest
  rw [exponentPart, if_pos (Or.inl rfl)]
  by_cases hneg : power < 0
  · have hvalue : -(power.natAbs : Int) = power := by omega
    simp only [hneg, spanSign, hdigits, bind, Except.bind, digitsValue_repr, hvalue, ↓reduceIte]
  · have hvalue : (power.natAbs : Int) = power := by omega
    simp only [hneg, spanSign, hdigits, bind, Except.bind, digitsValue_repr, hvalue, ↓reduceIte,
      Bool.false_eq_true]

/-- A sign as it stands before a number. -/
def signText (negative : Bool) : List Char := if negative then ['-'] else []

/-- A number after its sign. -/
def unsigned (negative : Bool) (cs : List Char) : Except Error (Read Json) := do
  let (whole, cs) ← wholePart cs
  let (fraction, cs) ← fractionPart cs
  let (exponent, cs) ← exponentPart cs
  let (significand, left) := takeDigits 0 whole
  match fraction, exponent with
  | none, none => do
    let json ← wholeNumber negative significand left.length
    .ok (json, cs)
  | _, _ => do
    let places := fraction.getD []
    let (significand, dropped) := takeDigits significand places
    let json ← double negative significand
      (exponent.getD 0 + left.length - (places.length - dropped.length : Nat))
    .ok (json, cs)

/-- The double of a whole part with a fraction and an exponent. -/
def pointed (negative : Bool) (whole places : List Char) (exponent : Int) : Except Error Json :=
  double negative (takeDigits (takeDigits 0 whole).1 places).1
    (exponent + (takeDigits 0 whole).2.length -
      (places.length - (takeDigits (takeDigits 0 whole).1 places).2.length : Nat))

theorem number_signText (negative : Bool) {cs : List Char} (h : ∀ c ∈ cs.head?, c ≠ '-') :
    number (signText negative ++ cs) = unsigned negative cs := by
  cases negative with
  | true => rfl
  | false =>
    rw [signText, if_neg Bool.false_ne_true, List.nil_append]
    cases cs with
    | nil => rfl
    | cons c rest =>
      have hne := h c rfl
      unfold number
      split
      next negative cs heq =>
        split at heq
        next hcons => exact absurd (List.cons.inj hcons).1 hne
        next =>
          obtain ⟨rfl, rfl⟩ := Prod.mk.inj heq
          rfl

/-- A number is read by its parts. -/
theorem number_parts (negative : Bool) {whole cs cs' rest : List Char}
    {fraction : Option (List Char)} {exponent : Option Int} (hwhole : IsWhole whole)
    (hends : EndsDigits cs) (hfraction : fractionPart cs = .ok (fraction, cs'))
    (hexponent : exponentPart cs' = .ok (exponent, rest)) :
    number (signText negative ++ (whole ++ cs)) =
      (match fraction, exponent with
        | none, none => wholeNumber negative (takeDigits 0 whole).1 (takeDigits 0 whole).2.length
        | _, _ => pointed negative whole (fraction.getD []) (exponent.getD 0)).map (·, rest) := by
  rw [number_signText negative]
  · unfold unsigned
    simp only [wholePart_append hwhole hends, bind, Except.bind, hfraction, hexponent]
    split
    · cases wholeNumber negative _ _ <;> rfl
    · rw [pointed]
      cases double negative _ _ <;> rfl
  · intro c hc hminus
    rw [List.head?_append_of_ne_nil _ hwhole.nonempty] at hc
    have hdigit := hwhole.digits c (List.mem_of_mem_head? hc)
    rw [hminus] at hdigit
    exact absurd hdigit (by decide)

/-- What is read as a number begins with a minus or a digit. -/
theorem number_head {cs : List Char} {result : Read Json} (h : number cs = .ok result) :
    ∃ c rest, cs = c :: rest ∧ (c = '-' ∨ c.isDigit = true) := by
  cases cs with
  | nil => cases h
  | cons c rest =>
    refine ⟨c, rest, rfl, ?_⟩
    by_contra hc
    obtain ⟨hminus, hdigit⟩ := not_or.mp hc
    have hspan : spanDigits (c :: rest) = ([], c :: rest) := by
      rw [spanDigits, List.takeWhile_cons_of_neg hdigit, List.dropWhile_cons_of_neg hdigit]
    have hunsigned : number (c :: rest) = unsigned false (c :: rest) :=
      number_signText false fun d hd => Option.some.inj hd ▸ hminus
    have hfail : unsigned false (c :: rest) = fail .invalidNumber := by
      rw [unsigned, wholePart, digits, hspan]
      rfl
    rw [hunsigned, hfail] at h
    cases h

/-! ## 2. Doubles -/

/-- A text is read as a finite double, whatever follows it. -/
def ReadsFinite (cs : List Char) : Prop :=
  ∃ y : Float, y.isFinite = true ∧
    ∀ rest, EndsNumber rest → number (cs ++ rest) = .ok (.float y, rest)

theorem double_of_lt {significand : Nat} {exponent : Int} (negative : Bool)
    (h : scale significand exponent < Format.double.infinity) :
    double negative significand exponent =
      .ok (.float (ofWord negative (scale significand exponent))) :=
  if_neg (Nat.ne_of_lt h)

/-- A whole part that fits leaves all digits of the fraction to be taken. -/
theorem pointed_finite {whole places : List Char} {exponent : Int} (negative : Bool)
    (hfits : digitsValue 0 whole ≤ maxSignificand)
    (h : (⟨digitsValue (digitsValue 0 whole) places, exponent - places.length⟩ :
      Decimal).StaysFinite) :
    ∃ y : Float, y.isFinite = true ∧ pointed negative whole places exponent = .ok (.float y) := by
  have hfinite := h.scale_takeDigits hfits
  rw [pointed, takeDigits_of_le hfits, List.length_nil, Nat.cast_zero, Int.add_zero]
  exact ⟨_, isFinite_ofWord negative hfinite, double_of_lt negative hfinite⟩

section

variable {d : Decimal}

/-- Without an exponent, numbers are below `10 ^ 16`. -/
theorem positional_reads (negative : Bool) (hdigits : 0 < d.digits)
    (hpower : d.exponent + Decimal.digitCount d.digits - 1 < 16) :
    ReadsFinite (signText negative ++ (Layout.json.positional d).toList) := by
  obtain ⟨whole, fraction, htext, hwhole, hfraction, hnonempty, hvalue⟩ :=
    Layout.positional_pointed Layout.json rfl hdigits
  have hten : (10 : ℚ) ≠ 0 := by norm_num
  have hsmall : d.value < 10 ^ 16 := by
    calc d.value < 10 ^ Decimal.digitCount d.digits * 10 ^ d.exponent := by
          rw [Decimal.value]
          gcongr
          exact_mod_cast lt_pow_digitCount d.digits
      _ = 10 ^ (Decimal.digitCount d.digits + d.exponent) := by
          rw [zpow_add₀ hten, zpow_natCast]
      _ ≤ 10 ^ (16 : Int) := zpow_le_zpow_right₀ (by norm_num) (by omega)
  have hwholeValue : (digitsValue 0 whole : ℚ) ≤ d.value := by
    have hle := mul_pow_le_digitsValue (digitsValue 0 whole) fraction
    rw [← hvalue, Decimal.value, zpow_neg, zpow_natCast, ← div_eq_mul_inv,
      le_div_iff₀ (by positivity)]
    exact_mod_cast hle
  have hfits : digitsValue 0 whole ≤ maxSignificand := by
    have hlt : digitsValue 0 whole < 10 ^ 16 := by exact_mod_cast hwholeValue.trans_lt hsmall
    rw [maxSignificand]
    omega
  have hlimit : ((10 ^ 16 : Nat) : ℚ) < scaleLimit := Nat.cast_lt.mpr (by decide +kernel)
  have hstays : (⟨digitsValue (digitsValue 0 whole) fraction, 0 - (fraction.length : Int)⟩ :
      Decimal).StaysFinite := by
    rw [Int.zero_sub]
    refine Or.inl ?_
    rw [hvalue]
    exact hsmall.trans (by exact_mod_cast hlimit)
  obtain ⟨y, hy, hread⟩ := pointed_finite negative hfits hstays
  refine ⟨y, hy, fun rest hrest => ?_⟩
  rw [htext, List.append_assoc, List.append_assoc, List.cons_append, number_parts _ hwhole
    (endsDigits_cons rfl _) (fractionPart_append hfraction hnonempty hrest.endsDigits)
    hrest.exponentPart]
  simp only [Option.getD_some, Option.getD_none]
  rw [hread]
  rfl

theorem scientific_reads (negative : Bool) (hdigits : 0 < d.digits) (hfinite : d.StaysFinite)
    {power : Int} (hpower : power = d.exponent + Decimal.digitCount d.digits - 1) :
    ReadsFinite (signText negative ++ (Layout.scientific d power).toList) := by
  obtain ⟨whole, fraction, htext, hwhole, hfraction, hlength, hvalue⟩ :=
    Layout.scientific_parts hdigits power hpower
  -- Only one digit stands before the point.
  have hfits : digitsValue 0 whole ≤ maxSignificand := by
    have hle := mul_pow_le_digitsValue (digitsValue 0 whole) fraction
    have hlt := lt_pow_digitCount d.digits
    have hdigitsValue : digitsValue (digitsValue 0 whole) fraction = d.digits :=
      congrArg Decimal.digits hvalue
    rw [hdigitsValue] at hle
    rw [← hlength, Nat.pow_succ'] at hlt
    have hdigit := Nat.lt_of_mul_lt_mul_right (hle.trans_lt hlt)
    rw [maxSignificand]
    omega
  obtain ⟨y, hy, hread⟩ := pointed_finite negative hfits (hvalue ▸ hfinite)
  refine ⟨y, hy, fun rest hrest => ?_⟩
  have hexponent := exponentPart_append power hrest.endsDigits
  rw [htext, List.append_assoc, List.append_assoc, List.append_assoc, List.cons_append,
    List.cons_append]
  split
  next hempty =>
    subst hempty
    rw [List.nil_append, number_parts _ hwhole (endsDigits_cons rfl _) rfl hexponent]
    simp only [Option.getD_some, Option.getD_none]
    rw [hread]
    rfl
  next hnonempty =>
    rw [List.cons_append, number_parts _ hwhole (endsDigits_cons rfl _)
      (fractionPart_append hfraction hnonempty (endsDigits_cons rfl _)) hexponent]
    simp only [Option.getD_some]
    rw [hread]
    rfl

theorem decimal_reads (negative : Bool) (hdigits : 0 < d.digits) (hfinite : d.StaysFinite) :
    ReadsFinite (signText negative ++ (Layout.json.decimal d).toList) := by
  rw [Layout.decimal]
  split
  next hpositional =>
    have hpower := (Bool.and_eq_true_iff.mp hpositional).2
    exact positional_reads negative hdigits (of_decide_eq_true hpower)
  next => exact scientific_reads negative hdigits hfinite rfl

end

theorem zero_reads (negative : Bool) : ReadsFinite (signText negative ++ ['0', '.', '0']) := by
  have hstays : (⟨digitsValue (digitsValue 0 ['0']) ['0'], 0 - (['0'].length : Nat)⟩ :
      Decimal).StaysFinite := Or.inr ⟨by decide, by decide +kernel⟩
  obtain ⟨y, hy, hread⟩ := pointed_finite negative (by decide) hstays
  refine ⟨y, hy, fun rest hrest => ?_⟩
  have hfraction := fractionPart_append (allDigits_zeros 1) (by decide) hrest.endsDigits
  have hparts := number_parts negative (isWhole_repr 0) (endsDigits_cons rfl _) hfraction
    hrest.exponentPart
  rw [List.append_assoc]
  refine hparts.trans ?_
  simp only [Option.getD_some, Option.getD_none]
  have hrepr : (Nat.repr 0).toList = ['0'] := rfl
  have hzeros : List.replicate 1 '0' = ['0'] := rfl
  rw [hrepr, hzeros, hread]
  rfl

/-- The text of a finite double is read as a finite double. -/
theorem print_reads {x : Float} (hx : x.isFinite = true) :
    ReadsFinite (Layout.json.print x).toList := by
  have hlt := isFinite_iff.mp hx
  obtain ⟨hword, -⟩ := Format.parts_spec Format.double (magnitude x)
  unfold Layout.print
  rw [ofFloat_of_isFinite hx]
  simp only
  split
  next hzero =>
    have htext :
        (if isNegative x = true then Layout.json.negativeZero else Layout.json.zero).toList =
          signText (isNegative x) ++ ['0', '.', '0'] := by
      cases isNegative x <;> rfl
    rw [htext]
    exact zero_reads _
  next hnonzero =>
    have hpos : 0 < magnitude x :=
      Nat.pos_of_ne_zero fun hzero => hnonzero ((Format.parts_eq_zero_iff _).mpr hzero)
    have hsign : (if isNegative x = true then "-" else "").toList = signText (isNegative x) := by
      cases isNegative x <;> rfl
    rw [hword, String.toList_append, hsign]
    exact decimal_reads _ (Decimal.digits_shortest _ hlt hpos) (Decimal.shortest_staysFinite _ hlt)

/-- A printed double is read whatever follows it. -/
theorem number_print {x : Float} (hx : x.isFinite = true) {rest : List Char}
    (hrest : EndsNumber rest) :
    number ((Layout.json.print x).toList ++ rest) = .ok (.float (rereadDouble x), rest) := by
  obtain ⟨y, -, hread⟩ := print_reads hx
  have hwhole := hread [] nofun
  have hreread : rereadDouble x = y := by
    rw [List.append_nil] at hwhole
    rw [rereadDouble, hwhole]
  rw [hreread]
  exact hread rest hrest

/-- What is not finite is no number in a text. -/
theorem print_of_not_isFinite {x : Float} (hx : ¬ x.isFinite = true) :
    (Layout.json.print x).toList = ['n', 'u', 'l', 'l'] := by
  unfold Layout.print
  rcases ofFloat_of_not_isFinite hx with hnan | ⟨negative, hinfinite⟩
  · rw [hnan]
    rfl
  · rw [hinfinite]
    cases negative <;> rfl

/-! ## 3. Integers -/

/-- An integer of 64 bits is read back. -/
theorem number_integer {n : Int} (hleast : minSigned ≤ n) (hgreatest : n ≤ maxUnsigned)
    {rest : List Char} (hrest : EndsNumber rest) :
    number ((toString n).toList ++ rest) = .ok (.integer n, rest) := by
  rw [Int.toString_eq_repr, Int.repr_eq_if]
  split
  next hnonneg =>
    have hparts := number_parts false (isWhole_repr n.toNat) hrest.endsDigits hrest.fractionPart
      hrest.exponentPart
    refine hparts.trans ?_
    have hvalue : (n.toNat : Int) = n := by omega
    have hfits : digitsValue 0 (Nat.repr n.toNat).toList ≤ maxSignificand := by
      rw [digitsValue_repr, maxSignificand]
      rw [maxUnsigned] at hgreatest
      omega
    rw [takeDigits_of_le hfits, digitsValue_repr, wholeNumber, if_pos ⟨rfl, rfl⟩, hvalue]
    rfl
  next hneg =>
    have hparts := number_parts true (isWhole_repr (-n).toNat) hrest.endsDigits hrest.fractionPart
      hrest.exponentPart
    rw [String.toList_append, List.append_assoc]
    refine hparts.trans ?_
    have hvalue : -((-n).toNat : Int) = n := by omega
    have hfits : digitsValue 0 (Nat.repr (-n).toNat).toList ≤ maxSignificand := by
      rw [digitsValue_repr, maxSignificand]
      rw [minSigned] at hleast
      omega
    rw [takeDigits_of_le hfits, digitsValue_repr, wholeNumber, if_neg (by simp), hvalue,
      if_pos ⟨rfl, by omega, hleast⟩]
    rfl

end Reader

end Templating.Json
