import Mathlib.Data.List.DropRight
import Mathlib.Tactic.Ring
import Templating.Proofs.Number.Digits
import Templating.Toml.DateTime

/-!
# Printed dates and times

A date-time that is read is valid: its parts are within the bounds of the calendar and the clock.
A valid one is read back from its text, whatever ends it.

Results:
1. `digitsValue_lt`, `padded_digits`: numbers of a fixed width.
2. `readNumber?_padded`, `readDate?_print`, `readTime?_print`, `readOffset?_print`: the parts of a
   date-time are read back.
3. `read?_print`: so is the whole.
4. `valid_of_read?`: what is read is valid.
5. `read?_eq_some`: a date-time begins with digits and a separator.
-/

namespace Templating.Toml

open Number Number.Literal

/-! ## Definitions -/

structure Date.Valid (date : Date) : Prop where
  year : date.year ≤ 9999
  month : 1 ≤ date.month ∧ date.month ≤ 12
  day : 1 ≤ date.day ∧ date.day ≤ DateTime.daysInMonth date.year date.month

structure Time.Valid (time : Time) : Prop where
  hour : time.hour ≤ 23
  minute : time.minute ≤ 59
  second : time.second ≤ 60
  nanosecond : time.nanosecond < 10 ^ 9

def Offset.Valid : Offset → Prop
  | .universal => True
  | .minutes value => value.natAbs < 24 * 60

def DateTime.Valid : DateTime → Prop
  | .date d => d.Valid
  | .time t => t.Valid
  | .both d t offset => d.Valid ∧ t.Valid ∧ ∀ o ∈ offset, o.Valid

/-- Neither a time of day nor an offset goes on with these characters. -/
def EndsTime (cs : List Char) : Prop :=
  ∃ c rest, cs = c :: rest ∧ c.isDigit = false ∧ c ≠ '.' ∧ c ≠ 'Z' ∧ c ≠ 'z' ∧ c ≠ '+' ∧ c ≠ '-'

/-- No time of day follows a date. -/
def EndsDate (cs : List Char) : Prop := DateTime.readTimeOfDate? cs = none

/-! ## 1. Numbers of a fixed width -/

theorem digit_le {c : Char} (h : c.isDigit = true) : c.toNat - '0'.toNat ≤ 9 := by
  simp only [Char.isDigit, Bool.and_eq_true, decide_eq_true_eq] at h
  have hle : c.toNat ≤ 57 := h.2
  have hzero : '0'.toNat = 48 := rfl
  omega

theorem digitsValue_lt {ds : List Char} (h : AllDigits ds) (start : Nat) :
    digitsValue start ds < (start + 1) * 10 ^ ds.length := by
  induction ds generalizing start with
  | nil => simp [digitsValue]
  | cons d ds ih =>
    have hdigit := digit_le (h d List.mem_cons_self)
    have hstep : digitsValue start (d :: ds) =
        digitsValue (10 * start + (d.toNat - '0'.toNat)) ds := rfl
    rw [hstep, List.length_cons, Nat.pow_succ']
    calc digitsValue (10 * start + (d.toNat - '0'.toNat)) ds
        < (10 * start + (d.toNat - '0'.toNat) + 1) * 10 ^ ds.length :=
          ih (fun c hc => h c (List.mem_cons_of_mem d hc)) _
      _ ≤ (10 * (start + 1)) * 10 ^ ds.length := Nat.mul_le_mul_right _ (by omega)
      _ = (start + 1) * (10 * 10 ^ ds.length) := by ring

theorem padded_digits (width n : Nat) (hwidth : 0 < width) (h : n < 10 ^ width) :
    AllDigits (padded width n).toList ∧ (padded width n).toList.length = width ∧
      digitsValue 0 (padded width n).toList = n := by
  have hlength : (Nat.repr n).toList.length ≤ width := by
    rw [Nat.toList_repr]
    exact (Nat.length_toDigits_le_iff (by decide) hwidth).mpr h
  rw [padded]
  simp only [String.toList_ofList]
  refine ⟨allDigits_append (allDigits_zeros _) (allDigits_repr n), ?_, ?_⟩
  · rw [List.length_append, List.length_replicate]
    omega
  · rw [digitsValue_append, digitsValue_zeros, Nat.zero_mul, digitsValue_repr]

/-! ## 2. The parts of a date-time -/

theorem EndsTime.endsDigits {cs : List Char} (h : EndsTime cs) : EndsDigits cs := by
  obtain ⟨c, rest, rfl, hdigit, -⟩ := h
  exact endsDigits_cons hdigit rest

theorem EndsTime.head_ne_point {cs : List Char} (h : EndsTime cs) : cs.head? ≠ some '.' := by
  obtain ⟨c, rest, rfl, -, hpoint, -⟩ := h
  exact fun heq => hpoint (Option.some.inj heq)

theorem EndsTime.readOffset? {cs : List Char} (h : EndsTime cs) :
    DateTime.readOffset? cs = none := by
  obtain ⟨c, rest, rfl, -, -, hupper, hlower, hplus, hminus⟩ := h
  rw [DateTime.readOffset?, if_neg (not_or.mpr ⟨hupper, hlower⟩),
    if_neg (not_or.mpr ⟨hplus, hminus⟩)]

namespace DateTime

theorem readDigits?_append {ds : List Char} (h : AllDigits ds) (start : Nat) (rest : List Char) :
    readDigits? ds.length start (ds ++ rest) = some (digitsValue start ds, rest) := by
  induction ds generalizing start with
  | nil => rfl
  | cons d ds ih =>
    rw [List.length_cons, List.cons_append, readDigits?, if_pos (h d List.mem_cons_self),
      ih fun c hc => h c (List.mem_cons_of_mem d hc)]
    rfl

/-- A number of a fixed width is not read where its digits end before. -/
theorem readDigits?_short {ds : List Char} (h : AllDigits ds) {c : Char} (hc : c.isDigit = false)
    (more start : Nat) (rest : List Char) :
    readDigits? (ds.length + (more + 1)) start (ds ++ c :: rest) = none := by
  induction ds generalizing start with
  | nil => rw [List.length_nil, Nat.zero_add, List.nil_append, readDigits?, hc]; rfl
  | cons d ds ih =>
    rw [List.length_cons, List.cons_append, Nat.add_right_comm, readDigits?,
      if_pos (h d List.mem_cons_self), ih fun c hc => h c (List.mem_cons_of_mem d hc)]

theorem readNumber?_padded (width least greatest n : Nat) (hwidth : 0 < width)
    (hlarge : n < 10 ^ width) (h : least ≤ n ∧ n ≤ greatest) (rest : List Char) :
    readNumber? width least greatest ((padded width n).toList ++ rest) = some (n, rest) := by
  obtain ⟨hdigits, hlength, hvalue⟩ := padded_digits width n hwidth hlarge
  have hread := readDigits?_append hdigits 0 rest
  rw [hlength, hvalue] at hread
  rw [readNumber?, hread]
  exact if_pos h

theorem readChar?_cons (c : Char) (cs : List Char) : readChar? c (c :: cs) = some cs := if_pos rfl

theorem daysInMonth_le (year month : Nat) : daysInMonth year month ≤ 31 := by
  unfold daysInMonth
  split_ifs <;> decide

theorem toList_date (date : Date) (rest : List Char) :
    date.print.toList ++ rest = (padded 4 date.year).toList ++
      '-' :: ((padded 2 date.month).toList ++ '-' :: ((padded 2 date.day).toList ++ rest)) := by
  simp [Date.print]

theorem readDate?_print {date : Date} (h : date.Valid) (rest : List Char) :
    readDate? (date.print.toList ++ rest) = some (date, rest) := by
  have hdays := daysInMonth_le date.year date.month
  obtain ⟨hyear, hmonth, hday⟩ := h
  rw [toList_date, readDate?,
    readNumber?_padded _ _ _ _ (by decide) (by omega) ⟨Nat.zero_le _, hyear⟩]
  simp only [bind, Option.bind, readChar?_cons]
  rw [readNumber?_padded _ _ _ _ (by decide) (by omega) hmonth]
  simp only [readChar?_cons]
  rw [readNumber?_padded _ _ _ _ (by decide) (by omega) hday]

/-- The digits of a fraction without the zeros at their end have the value of the fraction. -/
theorem nanoseconds_trimmed {n : Nat} (h : n < 10 ^ 9) :
    nanoseconds ((padded 9 n).toList.rdropWhile (· == '0')) = n := by
  obtain ⟨hdigits, hlength, hvalue⟩ := padded_digits 9 n (by decide) h
  generalize (padded 9 n).toList = ds at hdigits hlength hvalue
  have hsplit := List.rdropWhile_append_rtakeWhile (p := (· == '0')) (l := ds)
  have hzeros : ds.rtakeWhile (· == '0') =
      List.replicate (ds.rtakeWhile (· == '0')).length '0' :=
    List.eq_replicate_iff.mpr ⟨rfl, fun c hc => by simpa using List.mem_rtakeWhile_imp hc⟩
  have hparts := congrArg List.length hsplit
  rw [List.length_append] at hparts
  rw [← hsplit, hzeros, digitsValue_append, digitsValue_zeros] at hvalue
  rw [nanoseconds, List.take_of_length_le (by omega)]
  have hplaces : 9 - (ds.rdropWhile (· == '0')).length = (ds.rtakeWhile (· == '0')).length := by
    omega
  rw [hplaces]
  exact hvalue

theorem readFraction_print {n : Nat} (h : n < 10 ^ 9) {rest : List Char}
    (hdigit : EndsDigits rest) (hpoint : rest.head? ≠ some '.') :
    readFraction ((fractionText n).toList ++ rest) = (n, rest) := by
  unfold fractionText
  split_ifs with hzero
  · subst hzero
    unfold readFraction
    split
    · next heq => exact absurd (congrArg List.head? heq) hpoint
    · rfl
  · have htext : ("." ++ String.ofList
        ((padded 9 n).toList.reverse.dropWhile (· == '0')).reverse).toList ++ rest =
        '.' :: ((padded 9 n).toList.rdropWhile (· == '0') ++ rest) := by
      simp [List.rdropWhile]
    have hvalue := nanoseconds_trimmed h
    have hdigits : AllDigits ((padded 9 n).toList.rdropWhile (· == '0')) := fun c hc =>
      (padded_digits 9 n (by decide) h).1 c ((List.rdropWhile_prefix _ _).subset hc)
    have hnonempty : (padded 9 n).toList.rdropWhile (· == '0') ≠ [] := by
      intro hempty
      rw [hempty] at hvalue
      exact hzero hvalue.symm
    obtain ⟨d, ds, hcons⟩ := List.exists_cons_of_ne_nil hnonempty
    rw [hcons] at hvalue hdigits htext
    rw [htext, readFraction, spanDigits_append hdigits hdigit]
    exact congrArg (·, rest) hvalue

theorem toList_time (time : Time) (rest : List Char) :
    time.print.toList ++ rest = (padded 2 time.hour).toList ++
      ':' :: ((padded 2 time.minute).toList ++ ':' :: ((padded 2 time.second).toList ++
        ((fractionText time.nanosecond).toList ++ rest))) := by
  simp [Time.print]

theorem readTime?_print {time : Time} (h : time.Valid) {rest : List Char}
    (hdigit : EndsDigits rest) (hpoint : rest.head? ≠ some '.') :
    readTime? (time.print.toList ++ rest) = some (time, rest) := by
  obtain ⟨hhour, hminute, hsecond, hnanosecond⟩ := h
  rw [toList_time, readTime?,
    readNumber?_padded _ _ _ _ (by decide) (by omega) ⟨Nat.zero_le _, hhour⟩]
  simp only [bind, Option.bind, readChar?_cons]
  rw [readNumber?_padded _ _ _ _ (by decide) (by omega) ⟨Nat.zero_le _, hminute⟩]
  simp only [readChar?_cons]
  rw [readNumber?_padded _ _ _ _ (by decide) (by omega) ⟨Nat.zero_le _, hsecond⟩]
  simp only [readFraction_print hnanosecond hdigit hpoint]

theorem toList_minutes (value : Int) (rest : List Char) :
    (Offset.minutes value).print.toList ++ rest = (if value < 0 then '-' else '+') ::
      ((padded 2 (value.natAbs / 60)).toList ++
        ':' :: ((padded 2 (value.natAbs % 60)).toList ++ rest)) := by
  rw [Offset.print]
  split_ifs <;> simp

theorem readOffset?_print {offset : Offset} (h : offset.Valid) (rest : List Char) :
    readOffset? (offset.print.toList ++ rest) = some (offset, rest) := by
  cases offset with
  | universal => rfl
  | minutes value =>
    have hvalue : value.natAbs < 24 * 60 := h
    have hsum : ((value.natAbs / 60 * 60 + value.natAbs % 60 : Nat) : Int) = value.natAbs := by
      rw [Nat.div_add_mod']
    have hhours := readNumber?_padded 2 0 23 (value.natAbs / 60) (by decide) (by omega) (by omega)
    have hminutes := readNumber?_padded 2 0 59 (value.natAbs % 60) (by decide) (by omega) (by omega)
    rw [toList_minutes]
    by_cases hnegative : value < 0
    · rw [if_pos hnegative, readOffset?, if_neg (by decide), if_pos (.inr rfl), hhours]
      simp only [bind, Option.bind, readChar?_cons, hminutes, hsum, ↓reduceIte]
      congr 3
      omega
    · rw [if_neg hnegative, readOffset?, if_neg (by decide), if_pos (.inl rfl), hhours]
      simp only [bind, Option.bind, readChar?_cons, hminutes, hsum, Char.reduceEq, ↓reduceIte]
      congr 3
      omega

/-! ## 3. Date-times -/

/-- A time of day has too few digits before its separator for a year. -/
theorem readDate?_time {time : Time} (h : time.Valid) (rest : List Char) :
    readDate? (time.print.toList ++ rest) = none := by
  obtain ⟨hdigits, hlength, -⟩ := padded_digits 2 time.hour (by decide)
    (by have := h.hour; omega)
  have hshort := readDigits?_short hdigits (c := ':') rfl 1 0 ((padded 2 time.minute).toList ++
      ':' :: ((padded 2 time.second).toList ++ ((fractionText time.nanosecond).toList ++ rest)))
  rw [hlength] at hshort
  rw [toList_time, readDate?, readNumber?, hshort]
  rfl

theorem readTimeOfDate?_print {time : Time} (htime : time.Valid) {offset : Option Offset}
    (hoffset : ∀ o ∈ offset, o.Valid) {rest : List Char} (hrest : EndsTime rest) :
    readTimeOfDate?
        ('T' :: (time.print.toList ++ ((offset.map Offset.print).getD "").toList ++ rest)) =
      some ((time, offset), rest) := by
  rw [readTimeOfDate?, if_pos (.inl rfl), List.append_assoc]
  cases offset with
  | none =>
    have hread := readTime?_print htime hrest.endsDigits hrest.head_ne_point
    simp only [Option.map_none, Option.getD_none, String.toList_empty, List.nil_append, hread, bind,
      Option.bind, hrest.readOffset?]
  | some offset =>
    have hhead : ∃ c cs, offset.print.toList ++ rest = c :: cs ∧ c.isDigit = false ∧ c ≠ '.' := by
      cases offset with
      | universal => exact ⟨_, _, rfl, rfl, by decide⟩
      | minutes value =>
        refine ⟨_, _, toList_minutes value rest, ?_, ?_⟩
        · split_ifs <;> rfl
        · split_ifs <;> decide
    obtain ⟨c, cs, hcons, hdigit, hpoint⟩ := hhead
    have hread : readTime? (time.print.toList ++ (offset.print.toList ++ rest)) =
        some (time, offset.print.toList ++ rest) :=
      readTime?_print htime (hcons ▸ endsDigits_cons hdigit cs)
        (hcons ▸ fun heq => hpoint (Option.some.inj heq))
    simp only [Option.map_some, Option.getD_some, hread, bind, Option.bind,
      readOffset?_print (hoffset offset rfl)]

/-- A valid date-time is read back. -/
theorem read?_print {dateTime : DateTime} (h : dateTime.Valid) {rest : List Char}
    (hdate : EndsDate rest) (htime : EndsTime rest) :
    read? (dateTime.print.toList ++ rest) = some (dateTime, rest) := by
  cases dateTime with
  | date date =>
    have hvalid : date.Valid := h
    have hend : readTimeOfDate? rest = none := hdate
    rw [print, read?, readDate?_print hvalid]
    simp only [hend]
  | time time =>
    have hvalid : time.Valid := h
    rw [print, read?, readDate?_time hvalid,
      readTime?_print hvalid htime.endsDigits htime.head_ne_point]
    rfl
  | both date time offset =>
    obtain ⟨hvalid, htime', hoffset⟩ := h
    have htext : (both date time offset).print.toList ++ rest = date.print.toList ++
        'T' :: (time.print.toList ++ ((offset.map Offset.print).getD "").toList ++ rest) := by
      simp [print]
    rw [htext, read?, readDate?_print hvalid]
    simp only [readTimeOfDate?_print htime' hoffset htime]

/-! ## 4. What is read is valid -/

theorem bounds_of_readNumber? {width least greatest n : Nat} {cs rest : List Char}
    (h : readNumber? width least greatest cs = some (n, rest)) : least ≤ n ∧ n ≤ greatest := by
  unfold readNumber? at h
  split at h
  · split_ifs at h with hbounds
    obtain ⟨rfl, rfl⟩ := Prod.mk.inj (Option.some.inj h)
    exact hbounds
  · cases h

theorem valid_of_readDate? {date : Date} {cs rest : List Char}
    (h : readDate? cs = some (date, rest)) : date.Valid := by
  simp only [readDate?, bind, Option.bind_eq_some_iff, Prod.exists] at h
  obtain ⟨year, _, hyear, _, _, month, _, hmonth, _, _, day, _, hday, hdate⟩ := h
  obtain ⟨rfl, -⟩ := Prod.mk.inj (Option.some.inj hdate)
  exact ⟨(bounds_of_readNumber? hyear).2, bounds_of_readNumber? hmonth, bounds_of_readNumber? hday⟩

theorem nanoseconds_lt {ds : List Char} (h : AllDigits ds) : nanoseconds ds < 10 ^ 9 := by
  have hlength : (ds.take 9).length ≤ 9 := List.length_take_le 9 ds
  have hdigits : AllDigits (ds.take 9) := fun c hc => h c (List.mem_of_mem_take hc)
  have hvalue := digitsValue_lt hdigits 0
  rw [Nat.zero_add, Nat.one_mul] at hvalue
  calc nanoseconds ds = digitsValue 0 (ds.take 9) * 10 ^ (9 - (ds.take 9).length) := rfl
    _ < 10 ^ (ds.take 9).length * 10 ^ (9 - (ds.take 9).length) :=
      Nat.mul_lt_mul_of_pos_right hvalue (Nat.pow_pos (by decide))
    _ = 10 ^ 9 := by rw [← Nat.pow_add, Nat.add_sub_cancel' hlength]

theorem readFraction_lt (cs : List Char) : (readFraction cs).1 < 10 ^ 9 := by
  unfold readFraction
  split
  · split
    · exact Nat.pow_pos (by decide)
    · next digits rest hspan =>
      refine nanoseconds_lt fun c hc => ?_
      rw [spanDigits] at hspan
      exact List.mem_takeWhile_imp ((Prod.mk.inj hspan).1 ▸ hc)
  · exact Nat.pow_pos (by decide)

theorem valid_of_readTime? {time : Time} {cs rest : List Char}
    (h : readTime? cs = some (time, rest)) : time.Valid := by
  simp only [readTime?, bind, Option.bind_eq_some_iff, Prod.exists] at h
  obtain ⟨hour, _, hhour, _, _, minute, _, hminute, _, _, second, after, hsecond, htime⟩ := h
  obtain ⟨rfl, -⟩ := Prod.mk.inj (Option.some.inj htime)
  exact ⟨(bounds_of_readNumber? hhour).2, (bounds_of_readNumber? hminute).2,
    (bounds_of_readNumber? hsecond).2, readFraction_lt after⟩

theorem valid_of_readOffset? {offset : Offset} {cs rest : List Char}
    (h : readOffset? cs = some (offset, rest)) : offset.Valid := by
  cases cs with
  | nil => cases h
  | cons c cs =>
    rw [readOffset?] at h
    by_cases huniversal : c = 'Z' ∨ c = 'z'
    · rw [if_pos huniversal] at h
      obtain ⟨rfl, -⟩ := Prod.mk.inj (Option.some.inj h)
      trivial
    by_cases hsign : c = '+' ∨ c = '-'
    · rw [if_neg huniversal, if_pos hsign] at h
      simp only [bind, Option.bind_eq_some_iff, Prod.exists] at h
      obtain ⟨hours, _, hhours, _, _, minutes, _, hminutes, hoffset⟩ := h
      obtain ⟨rfl, -⟩ := Prod.mk.inj (Option.some.inj hoffset)
      have hhour := (bounds_of_readNumber? hhours).2
      have hminute := (bounds_of_readNumber? hminutes).2
      simp only [Offset.Valid]
      split_ifs <;> omega
    · rw [if_neg huniversal, if_neg hsign] at h
      cases h

theorem valid_of_readTimeOfDate? {time : Time} {offset : Option Offset} {cs rest : List Char}
    (h : readTimeOfDate? cs = some ((time, offset), rest)) :
    time.Valid ∧ ∀ o ∈ offset, o.Valid := by
  unfold readTimeOfDate? at h
  split at h
  · cases h
  · split_ifs at h with hseparator
    simp only [bind, Option.bind_eq_some_iff, Prod.exists] at h
    obtain ⟨time', after, htime, hoffset⟩ := h
    split at hoffset
    · next offset' rest' hread =>
      obtain ⟨hparts, -⟩ := Prod.mk.inj (Option.some.inj hoffset)
      obtain ⟨rfl, rfl⟩ := Prod.mk.inj hparts
      exact ⟨valid_of_readTime? htime, fun o ho => Option.some.inj ho ▸ valid_of_readOffset? hread⟩
    · obtain ⟨hparts, -⟩ := Prod.mk.inj (Option.some.inj hoffset)
      obtain ⟨rfl, rfl⟩ := Prod.mk.inj hparts
      exact ⟨valid_of_readTime? htime, fun o ho => nomatch ho⟩

/-- What is read is valid. -/
theorem valid_of_read? {dateTime : DateTime} {cs rest : List Char}
    (h : read? cs = some (dateTime, rest)) : dateTime.Valid := by
  unfold read? at h
  split at h
  · next date after hdate =>
    split at h
    · next time offset rest' htime =>
      obtain ⟨rfl, -⟩ := Prod.mk.inj (Option.some.inj h)
      exact ⟨valid_of_readDate? hdate, valid_of_readTimeOfDate? htime⟩
    · obtain ⟨rfl, -⟩ := Prod.mk.inj (Option.some.inj h)
      have hvalid : date.Valid := valid_of_readDate? hdate
      exact hvalid
  · obtain ⟨⟨time, rest'⟩, htime, heq⟩ := Option.map_eq_some_iff.mp h
    obtain ⟨rfl, -⟩ := Prod.mk.inj heq
    have hvalid : time.Valid := valid_of_readTime? htime
    exact hvalid

theorem valid_of_parse? {text : String} {dateTime : DateTime} (h : parse? text = some dateTime) :
    dateTime.Valid := by
  unfold parse? at h
  split at h
  · next hread => exact Option.some.inj h ▸ valid_of_read? hread
  · cases h

/-! ## 5. What is no date-time -/

theorem readDigits?_eq_some {width start n : Nat} {cs rest : List Char}
    (h : readDigits? width start cs = some (n, rest)) :
    ∃ ds, cs = ds ++ rest ∧ AllDigits ds ∧ ds.length = width := by
  induction width generalizing start cs with
  | zero =>
    obtain ⟨-, rfl⟩ := Prod.mk.inj (Option.some.inj h)
    exact ⟨[], rfl, fun _ hc => absurd hc List.not_mem_nil, rfl⟩
  | succ width ih =>
    cases cs with
    | nil => cases h
    | cons c cs =>
      rw [readDigits?] at h
      split_ifs at h with hc
      obtain ⟨ds, rfl, hdigits, hlength⟩ := ih h
      refine ⟨c :: ds, rfl, fun d hd => ?_, by rw [List.length_cons, hlength]⟩
      rcases List.mem_cons.mp hd with rfl | hd
      · exact hc
      · exact hdigits d hd

/-- A number of a fixed width is followed by a separator. -/
theorem separated_of_readNumber? {width least greatest n : Nat} {separator : Char}
    {cs after rest : List Char} (hnumber : readNumber? width least greatest cs = some (n, after))
    (hseparator : readChar? separator after = some rest) :
    ∃ ds, cs = ds ++ separator :: rest ∧ AllDigits ds ∧ ds.length = width := by
  have hafter : after = separator :: rest := by
    unfold readChar? at hseparator
    split at hseparator
    · cases hseparator
    · split_ifs at hseparator with hc
      rw [hc, Option.some.inj hseparator]
  unfold readNumber? at hnumber
  split at hnumber
  · next hdigits =>
    split_ifs at hnumber
    obtain ⟨rfl, rfl⟩ := Prod.mk.inj (Option.some.inj hnumber)
    rw [← hafter]
    exact readDigits?_eq_some hdigits
  · cases hnumber

/-- A date-time begins with digits and a separator. -/
theorem read?_eq_some {dateTime : DateTime} {cs rest : List Char}
    (h : read? cs = some (dateTime, rest)) :
    ∃ ds c after, cs = ds ++ c :: after ∧ AllDigits ds ∧ ds ≠ [] ∧ (c = '-' ∨ c = ':') := by
  unfold read? at h
  split at h
  · next date after hdate =>
    simp only [readDate?, bind, Option.bind_eq_some_iff, Prod.exists] at hdate
    obtain ⟨year, _, hyear, _, hseparator, -⟩ := hdate
    obtain ⟨ds, rfl, hdigits, hlength⟩ := separated_of_readNumber? hyear hseparator
    exact ⟨ds, '-', _, rfl, hdigits, List.ne_nil_of_length_eq_add_one hlength, .inl rfl⟩
  · obtain ⟨⟨time, rest'⟩, htime, -⟩ := Option.map_eq_some_iff.mp h
    simp only [readTime?, bind, Option.bind_eq_some_iff, Prod.exists] at htime
    obtain ⟨hour, _, hhour, _, hseparator, -⟩ := htime
    obtain ⟨ds, rfl, hdigits, hlength⟩ := separated_of_readNumber? hhour hseparator
    exact ⟨ds, ':', _, rfl, hdigits, List.ne_nil_of_length_eq_add_one hlength, .inr rfl⟩

/-- Digits that nothing separates are no date-time. -/
theorem read?_number (ds rest : List Char) (hdigits : AllDigits ds) (hrest : EndsDigits rest)
    (hdate : rest.head? ≠ some '-' ∨ ds = []) (htime : rest.head? ≠ some ':') :
    read? (ds ++ rest) = none := by
  rw [Option.eq_none_iff_forall_not_mem]
  rintro ⟨dateTime, after⟩ hread
  obtain ⟨ds', c, after', hcs, hdigits', hnonempty, hc⟩ := read?_eq_some hread
  have hend : c.isDigit = false := by rcases hc with rfl | rfl <;> rfl
  have hspan := spanDigits_append hdigits hrest
  rw [hcs, spanDigits_append hdigits' (endsDigits_cons hend after')] at hspan
  obtain ⟨rfl, rfl⟩ := Prod.mk.inj hspan
  rcases hc with rfl | rfl
  · rcases hdate with hdate | hempty
    · exact hdate rfl
    · exact hnonempty hempty
  · exact htime rfl

end DateTime

end Templating.Toml
