import Templating.Proofs.Text.Words
import Templating.Text.Case

/-!
# Case forms

A table of case forms says what some characters become, and all others stay as they are. What the
tables for upper and lower case have in common is stated of a table as a whole. No number stands on
both sides of a table: the two sides are compared as bit sets, in one step.

* `sources`, `forms`: the numbers that a table maps, and those it maps to.
* `CaseTable`: the forms in a table are characters, not blank and not mapped again.
* `CaseForm`: the forms of characters are not empty, hold no new blanks, and are their own forms.

Results:
1. `CaseForm.flatMap_eq_self_iff`: which texts are their own case forms.
2. `not_mem_of_bits`: lists with disjoint bit sets are disjoint.
3. `mapCase_of_not_mem`, `CaseTable.mapCase_cases`: what a table makes of a character.
   `CaseTable.caseForm`: it is a case form.
4. `caseForm_upperChar`, `caseForm_lowerChar`: upper case and lower case are case forms.
-/

namespace Templating.Text

/-! ## Definitions -/

/-- The numbers that a run maps. -/
def CaseRun.numbers (run : CaseRun) : List Nat :=
  List.range' run.first ((run.last - run.first) / run.step + 1) run.step

/-- The numbers that a run maps to. -/
def CaseRun.images (run : CaseRun) : List Nat :=
  run.numbers.map fun n : Nat => (n + run.shift).toNat

def sources (runs : List CaseRun) (special : List (Nat × List Nat)) : List Nat :=
  runs.flatMap CaseRun.numbers ++ special.map Prod.fst

def forms (runs : List CaseRun) (special : List (Nat × List Nat)) : List Nat :=
  runs.flatMap CaseRun.images ++ special.flatMap Prod.snd

/-- The numbers of the blank characters. -/
def blanks : List Nat :=
  List.range' 9 5 ++ [0x20, 0x85, 0xA0, 0x1680] ++ List.range' 0x2000 11 ++
    [0x2028, 0x2029, 0x202F, 0x205F, 0x3000]

/-- The set of the numbers in a list, with one bit for each. -/
def bits (ns : List Nat) : Nat := ns.foldr (fun n set => 1 <<< n ||| set) 0

/-- A table whose forms are characters, not blank and not mapped again. On ASCII characters it does
what `ascii` does. -/
structure CaseTable (ascii : Char → Char) (runs : List CaseRun) (special : List (Nat × List Nat)) :
    Prop where
  nonempty : ∀ entry ∈ special, entry.2 ≠ []
  valid : ∀ n ∈ forms runs special, n.isValidChar
  /-- What a character becomes is neither mapped nor blank. -/
  fresh : bits (forms runs special) &&& bits (sources runs special ++ blanks) = 0
  /-- The table maps no other ASCII characters than `ascii`, -/
  mapped : ∀ n ∈ sources runs special, n < 128 → ascii (Char.ofNat n) ≠ Char.ofNat n
  /-- and maps those in the same way. -/
  agrees : ∀ n < 128, ascii (Char.ofNat n) ≠ Char.ofNat n →
    mapCase runs special (Char.ofNat n) = [ascii (Char.ofNat n)]

/-- What holds of the case forms of all characters. -/
structure CaseForm (form : Char → List Char) : Prop where
  ne_nil (c : Char) : form c ≠ []
  blankFree {c : Char} (hc : isBlank c = false) : BlankFree (form c)
  /-- A second time nothing changes. -/
  settled {c d : Char} (hd : d ∈ form c) : form d = [d]

/-! ## 1. Case forms of texts -/

theorem CaseForm.settled_flatMap {form : Char → List Char} (h : CaseForm form) {cs : List Char}
    {d : Char} (hd : d ∈ cs.flatMap form) : form d = [d] := by
  obtain ⟨c, -, hd⟩ := List.mem_flatMap.mp hd
  exact h.settled hd

/-- A text is its own case form if and only if all its characters are. -/
theorem CaseForm.flatMap_eq_self_iff {form : Char → List Char} (h : CaseForm form)
    {cs : List Char} : cs.flatMap form = cs ↔ ∀ c ∈ cs, form c = [c] := by
  constructor
  · intro hsame c hc
    rw [← hsame] at hc
    exact h.settled_flatMap hc
  · intro hall
    rw [List.flatMap_congr hall, List.flatMap_singleton']

/-! ## 2. Bit sets -/

theorem testBit_bits (ns : List Nat) (n : Nat) : (bits ns).testBit n = true ↔ n ∈ ns := by
  induction ns with
  | nil => simp [bits]
  | cons m ns ih =>
    have hcons : bits (m :: ns) = 1 <<< m ||| bits ns := rfl
    rw [hcons, Nat.testBit_or, Bool.or_eq_true, Nat.one_shiftLeft, Nat.testBit_two_pow,
      decide_eq_true_iff, ih, List.mem_cons, eq_comm]

/-- Lists whose bit sets have no bit in common have no number in common. -/
theorem not_mem_of_bits {ms ns : List Nat} (h : bits ms &&& bits ns = 0) {n : Nat} (hn : n ∈ ms) :
    n ∉ ns := by
  intro hmem
  have hboth : (bits ms &&& bits ns).testBit n = true := by
    rw [Nat.testBit_and, (testBit_bits ms n).mpr hn, (testBit_bits ns n).mpr hmem, Bool.and_self]
  rw [h, Nat.zero_testBit] at hboth
  exact Bool.false_ne_true hboth

theorem mem_blanks {c : Char} (h : isBlank c = true) : c.toNat ∈ blanks := by
  simp only [isBlank, Bool.or_eq_true, Bool.and_eq_true, decide_eq_true_eq, beq_iff_eq] at h
  simp only [blanks, List.mem_append, List.mem_range'_1, List.mem_cons, List.not_mem_nil, or_false]
  omega

/-! ## 3. What a table makes of a character -/

variable {runs : List CaseRun} {special : List (Nat × List Nat)}

theorem CaseRun.image?_eq_some {run : CaseRun} {n m : Nat} (h : run.image? n = some m) :
    n ∈ run.numbers ∧ m ∈ run.images := by
  rw [image?] at h
  split at h
  next hrun =>
    obtain ⟨hfirst, hlast, hstep⟩ := hrun
    have hnumber : n ∈ run.numbers := by
      refine List.mem_range'.mpr ⟨(n - run.first) / run.step, ?_, ?_⟩
      · exact Nat.lt_succ_of_le (Nat.div_le_div_right (Nat.sub_le_sub_right hlast _))
      · rw [Nat.mul_div_cancel' (Nat.dvd_of_mod_eq_zero hstep)]
        omega
    exact ⟨hnumber, List.mem_map.mpr ⟨n, hnumber, Option.some.inj h⟩⟩
  next => exact absurd h nofun

/-- A character that a table does not map stays as it is. -/
theorem mapCase_of_not_mem {c : Char} (h : c.toNat ∉ sources runs special) :
    mapCase runs special c = [c] := by
  rw [sources, List.mem_append, not_or] at h
  have hspecial : special.lookup c.toNat = none := by
    refine List.lookup_eq_none_iff.mpr fun entry hentry => ?_
    rw [bne_iff_ne]
    intro hname
    exact h.2 (List.mem_map.mpr ⟨entry, hentry, hname.symm⟩)
  have hruns : runs.findSome? (·.image? c.toNat) = none := by
    refine List.findSome?_eq_none_iff.mpr fun run hrun => Option.eq_none_iff_forall_ne_some.mpr ?_
    intro m himage
    exact h.1 (List.mem_flatMap.mpr ⟨run, hrun, (CaseRun.image?_eq_some himage).1⟩)
  rw [mapCase, hspecial, hruns]

namespace CaseTable

variable {ascii : Char → Char} (table : CaseTable ascii runs special)

include table

theorem toNat_ofNat {n : Nat} (hn : n ∈ forms runs special) : (Char.ofNat n).toNat = n := by
  rw [Char.ofNat, dif_pos (table.valid n hn)]
  rfl

/-- A character stays as it is or becomes one or more forms of the table. -/
theorem mapCase_cases (c : Char) :
    mapCase runs special c = [c] ∨ mapCase runs special c ≠ [] ∧
      ∀ d ∈ mapCase runs special c, d.toNat ∈ forms runs special := by
  rw [mapCase]
  split
  next form hform =>
    have hentry : (c.toNat, form) ∈ special := by
      obtain ⟨before, after, rfl, -⟩ := List.lookup_eq_some_iff.mp hform
      exact List.mem_append_right _ List.mem_cons_self
    refine .inr ⟨fun hnil => table.nonempty _ hentry (List.map_eq_nil_iff.mp hnil), fun d hd => ?_⟩
    obtain ⟨n, hn, rfl⟩ := List.mem_map.mp hd
    have hmem : n ∈ forms runs special :=
      List.mem_append_right _ (List.mem_flatMap.mpr ⟨_, hentry, hn⟩)
    rwa [table.toNat_ofNat hmem]
  next =>
    split
    next n hn =>
      obtain ⟨run, hrun, himage⟩ := List.exists_of_findSome?_eq_some hn
      have hmem : n ∈ forms runs special := List.mem_append_left _
        (List.mem_flatMap.mpr ⟨run, hrun, (CaseRun.image?_eq_some himage).2⟩)
      refine .inr ⟨List.cons_ne_nil _ _, fun d hd => ?_⟩
      rwa [List.mem_singleton.mp hd, table.toNat_ofNat hmem]
    next => exact .inl rfl

/-- On ASCII characters a table does what it is said to do. -/
theorem mapCase_ascii {c : Char} (hc : c.toNat < 128) : mapCase runs special c = [ascii c] := by
  rw [← Char.ofNat_toNat c]
  by_cases hsame : ascii (Char.ofNat c.toNat) = Char.ofNat c.toNat
  · rw [hsame]
    refine mapCase_of_not_mem fun hmem => ?_
    rw [Char.ofNat_toNat] at hmem
    exact table.mapped _ hmem hc hsame
  · exact table.agrees _ hc hsame

/-- What is done apart for ASCII characters is in the table as well. -/
theorem shortcut (c : Char) :
    (if c.toNat < 128 then [ascii c] else mapCase runs special c) = mapCase runs special c := by
  split
  next hc => rw [table.mapCase_ascii hc]
  next => rfl

/-- A table gives a case form. -/
theorem caseForm : CaseForm (mapCase runs special) where
  ne_nil c := by
    rcases table.mapCase_cases c with hsame | ⟨hne, -⟩
    · rw [hsame]
      exact List.cons_ne_nil _ _
    · exact hne
  blankFree {c} hc := by
    rcases table.mapCase_cases c with hsame | ⟨-, hforms⟩
    · rw [hsame]
      exact blankFree_cons.mpr ⟨hc, nofun⟩
    · intro d hd
      have hfresh := not_mem_of_bits table.fresh (hforms d hd)
      exact Bool.eq_false_iff.mpr fun hblank =>
        hfresh (List.mem_append_right _ (mem_blanks hblank))
  settled {c d} hd := by
    rcases table.mapCase_cases c with hsame | ⟨-, hforms⟩
    · rw [hsame] at hd
      rw [List.mem_singleton.mp hd, hsame]
    · have hfresh := not_mem_of_bits table.fresh (hforms d hd)
      exact mapCase_of_not_mem fun hmem => hfresh (List.mem_append_left _ hmem)

end CaseTable

/-! ## 4. Upper and lower case -/

theorem upperTable : CaseTable Char.toUpper upperRuns upperSpecial where
  nonempty := by decide +kernel
  valid := by decide +kernel
  fresh := by decide +kernel
  mapped := by decide +kernel
  agrees := by decide +kernel

theorem lowerTable : CaseTable Char.toLower lowerRuns lowerSpecial where
  nonempty := by decide +kernel
  valid := by decide +kernel
  fresh := by decide +kernel
  mapped := by decide +kernel
  agrees := by decide +kernel

theorem caseForm_upperChar : CaseForm upperChar := by
  have htable : upperChar = mapCase upperRuns upperSpecial := funext upperTable.shortcut
  rw [htable]
  exact upperTable.caseForm

theorem caseForm_lowerChar : CaseForm lowerChar := by
  have htable : lowerChar = mapCase lowerRuns lowerSpecial := funext lowerTable.shortcut
  rw [htable]
  exact lowerTable.caseForm

end Templating.Text
