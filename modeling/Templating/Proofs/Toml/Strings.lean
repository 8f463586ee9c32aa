import Mathlib.Data.List.Basic
import Templating.Toml.Printer
import Templating.Toml.Reader

/-!
# Printed TOML strings and keys

A string is printed in one of four forms. Each of them is read back, whatever the characters of the
string: what a form cannot hold is escaped, or the form is not chosen.

Results:
1. `escapeChar_cases`: a character is escaped, or stands for itself.
2. `basicBody_text`, `literalBody_text`: strings on one line.
3. `longBasicBody_text`, `longLiteralBody_text`: strings between three quotes, which may hold up to
   two quotes in a row, also at their end.
4. `string?_stringText`: a printed string is read back.
5. `simpleKey?_keyText`, `key?_pathText`: so are keys of less than `limit` parts.
-/

namespace Templating.Toml

open Reader

/-! ## Definitions -/

/-- A text is an escape of a character. -/
def Escapes (c : Char) (text : List Char) : Prop :=
  ∃ letter digits, text = '\\' :: letter :: digits ∧ isBlank letter = false ∧
    letter ≠ '\n' ∧ letter ≠ '\r' ∧
    ∀ rest, escape? letter (digits ++ rest) = some (c, digits.length)

/-! ## 1. Characters -/

theorem isPlain_of_not_isControl {c : Char} (h : isControl c = false) (hnewline : c ≠ '\n') :
    isPlain c = true := by
  simp only [isControl, Bool.or_eq_false_iff, Bool.and_eq_false_iff, decide_eq_false_iff_not,
    bne_eq_false_iff_eq, beq_eq_false_iff_ne] at h
  simp only [isPlain, Bool.or_eq_true, beq_iff_eq, Bool.and_eq_true, decide_eq_true_eq, bne_iff_ne]
  obtain ⟨(hlarge | htab) | hline, hdelete⟩ := h
  · exact .inr ⟨Nat.le_of_not_lt hlarge, hdelete⟩
  · exact .inl htab
  · exact absurd hline hnewline

theorem hexNumber?_append {width : Nat} {ds : List Char} (h : ds.length = width) (n : Nat)
    (rest : List Char) : hexNumber? width n (ds ++ rest) = hexNumber? width n ds := by
  induction ds generalizing width n with
  | nil =>
    subst h
    cases rest <;> rfl
  | cons d ds ih =>
    subst h
    rw [List.cons_append, List.length_cons, hexNumber?, hexNumber?]
    cases Number.Literal.hexValue? d with
    | some value => exact ih rfl _
    | none => rfl

/-- The code points of control characters have four digits, which are read back. -/
theorem hexNumber?_hexCode : ∀ n < 128, (hexCode (Char.ofNat n)).length = 4 ∧
    hexNumber? 4 0 (hexCode (Char.ofNat n)) = some n := by
  decide

theorem escapes_letter {c letter : Char} (hblank : isBlank letter = false)
    (hnewline : letter ≠ '\n') (hreturn : letter ≠ '\r')
    (h : ∀ rest, escape? letter rest = some (c, 0)) : Escapes c ['\\', letter] :=
  ⟨letter, [], rfl, hblank, hnewline, hreturn, h⟩

theorem escapes_control {c : Char} (h : isControl c = true) :
    Escapes c (['\\', 'u'] ++ hexCode c) := by
  have hsmall : c.toNat < 128 := by
    simp only [isControl, Bool.or_eq_true, Bool.and_eq_true, decide_eq_true_eq, beq_iff_eq] at h
    rcases h with ⟨⟨hlt, -⟩, -⟩ | hdelete
    · omega
    · omega
  obtain ⟨hlength, hvalue⟩ := hexNumber?_hexCode c.toNat hsmall
  rw [Char.ofNat_toNat] at hlength hvalue
  refine ⟨'u', hexCode c, rfl, rfl, by decide, by decide, fun rest => ?_⟩
  have hchar : charOf? c.toNat = some c := by
    rw [charOf?, if_pos (Or.inl (by omega)), Char.ofNat_toNat]
  have hread : escape? 'u' (hexCode c ++ rest) = (do
      some (← charOf? (← hexNumber? 4 0 (hexCode c ++ rest)), 4)) := rfl
  rw [hread, hexNumber?_append hlength, hvalue, hlength]
  simp [hchar]

/-- A character is escaped or stands for itself. -/
theorem escapeChar_cases (c : Char) :
    Escapes c (escapeChar c) ∨ escapeChar c = [c] ∧ c ≠ '\\' ∧ isControl c = false := by
  unfold escapeChar
  split_ifs with hbackspace htab hfeed hreturn hbackslash hcontrol
  · exact hbackspace ▸ .inl (escapes_letter rfl (by decide) (by decide) fun _ => rfl)
  · exact htab ▸ .inl (escapes_letter rfl (by decide) (by decide) fun _ => rfl)
  · exact hfeed ▸ .inl (escapes_letter rfl (by decide) (by decide) fun _ => rfl)
  · exact hreturn ▸ .inl (escapes_letter rfl (by decide) (by decide) fun _ => rfl)
  · subst hbackslash
    exact .inl (escapes_letter rfl (by decide) (by decide) fun _ => rfl)
  · exact .inl (escapes_control hcontrol)
  · exact .inr ⟨rfl, hbackslash, by simpa using hcontrol⟩

theorem escapes_quote : Escapes '"' ['\\', '"'] :=
  escapes_letter rfl (by decide) (by decide) fun _ => rfl

theorem escapes_newline : Escapes '\n' ['\\', 'n'] :=
  escapes_letter rfl (by decide) (by decide) fun _ => rfl

/-! ## 2. Strings on one line -/

theorem basicBody_skip (used rest : List Char) :
    basicBody used.length (used ++ rest) = basicBody 0 rest := by
  induction used with
  | nil => rfl
  | cons c used ih =>
    rw [List.length_cons, List.cons_append, basicBody.eq_def]
    exact ih

theorem basicBody_escape {c : Char} {text : List Char} (h : Escapes c text) (rest : List Char) :
    basicBody 0 (text ++ rest) = prepend c (basicBody 0 rest) := by
  obtain ⟨letter, digits, rfl, -, -, -, hescape⟩ := h
  rw [List.cons_append, List.cons_append, basicBody.eq_def]
  simp only [Char.reduceEq, ↓reduceIte, hescape, basicBody_skip]

theorem basicBody_plain {c : Char} (hquote : c ≠ '"') (hbackslash : c ≠ '\\')
    (hplain : isPlain c = true) (rest : List Char) :
    basicBody 0 (c :: rest) = prepend c (basicBody 0 rest) := by
  rw [basicBody.eq_def]
  simp only [hquote, hbackslash, hplain, ↓reduceIte]

theorem basicBody_text (run : Nat) (cs rest : List Char) :
    basicBody 0 (basicText false 0 run cs ++ '"' :: rest) = some (cs, rest) := by
  induction cs generalizing run with
  | nil =>
    rw [basicText, List.nil_append, basicBody.eq_def]
    simp only [↓reduceIte]
  | cons c cs ih =>
    rw [basicText, if_neg (Nat.not_lt_zero run), if_neg Bool.false_ne_true]
    split_ifs with hquote hnewline
    · subst hquote
      rw [List.append_assoc, basicBody_escape escapes_quote, ih]
      rfl
    · subst hnewline
      rw [List.append_assoc, basicBody_escape escapes_newline, ih]
      rfl
    · rw [List.append_assoc]
      rcases escapeChar_cases c with hescape | ⟨hself, hbackslash, hcontrol⟩
      · rw [basicBody_escape hescape, ih]
        rfl
      · rw [hself, List.singleton_append, basicBody_plain hquote hbackslash
          (isPlain_of_not_isControl hcontrol hnewline), ih]
        rfl

theorem literalBody_text {cs : List Char} (h : ∀ c ∈ cs, c ≠ '\'' ∧ isPlain c = true)
    (rest : List Char) : literalBody (cs ++ '\'' :: rest) = some (cs, rest) := by
  induction cs with
  | nil => rfl
  | cons c cs ih =>
    obtain ⟨hquote, hplain⟩ := h c List.mem_cons_self
    rw [List.cons_append, literalBody, if_neg hquote, if_pos hplain,
      ih fun d hd => h d (List.mem_cons_of_mem c hd)]
    rfl

/-! ## 3. Strings between three quotes -/

theorem runLength_cons (c d : Char) (cs : List Char) :
    runLength c (d :: cs) = if d = c then runLength c cs + 1 else 0 := by
  unfold runLength
  rw [List.takeWhile_cons]
  by_cases h : d = c
  · rw [if_pos (beq_iff_eq.mpr h), if_pos h, List.length_cons]
  · rw [if_neg (by simpa using h), if_neg h, List.length_nil]

theorem runLength_replicate {c : Char} {rest : List Char} (h : rest.head? ≠ some c) (n : Nat) :
    runLength c (List.replicate n c ++ rest) = n := by
  induction n with
  | zero =>
    cases rest with
    | nil => rfl
    | cons d rest => exact (runLength_cons c d rest).trans (if_neg fun heq => h (congrArg some heq))
  | succ n ih => rw [List.replicate_succ, List.cons_append, runLength_cons, if_pos rfl, ih]

theorem quoteRun_content {n : Nat} (h : n ≤ 2) : quoteRun n = .content := if_pos (by omega)

theorem quoteRun_close {n : Nat} (h : n ≤ 2) : quoteRun (n + 3) = .close n := by
  rw [quoteRun, if_neg (by omega), Nat.add_sub_cancel, Nat.min_eq_right h]

theorem longBasicBody_close {n : Nat} (hn : n ≤ 2) {rest : List Char}
    (hrest : rest.head? ≠ some '"') (fuel : Nat) :
    longBasicBody (fuel + 1) (List.replicate (n + 3) '"' ++ rest) =
      some (List.replicate n '"', rest) := by
  have hrun := runLength_replicate hrest (n + 3)
  rw [List.replicate_succ, List.cons_append] at hrun ⊢
  rw [longBasicBody.eq_def]
  simp only [↓reduceIte, hrun, quoteRun_close hn]
  rw [List.drop_left' (by simp)]

theorem longBasicBody_content {cs : List Char} (h : runLength '"' ('"' :: cs) ≤ 2) (fuel : Nat) :
    longBasicBody (fuel + 1) ('"' :: cs) = prepend '"' (longBasicBody fuel cs) := by
  rw [longBasicBody.eq_def]
  simp only [↓reduceIte, quoteRun_content h]

theorem longBasicBody_escape {c : Char} {text : List Char} (h : Escapes c text) (fuel : Nat)
    (rest : List Char) :
    longBasicBody (fuel + 1) (text ++ rest) = prepend c (longBasicBody fuel rest) := by
  obtain ⟨letter, digits, rfl, hblank, hnewline, hreturn, hescape⟩ := h
  have hskip : skipBlank (letter :: (digits ++ rest)) = letter :: (digits ++ rest) :=
    List.dropWhile_cons_of_neg (by simp [hblank])
  have hline : newline? (letter :: (digits ++ rest)) = none := by
    unfold newline?
    split <;> simp_all
  rw [List.cons_append, List.cons_append, longBasicBody.eq_def]
  simp only [Char.reduceEq, ↓reduceIte, hskip, hline, hescape, List.drop_left]

theorem longBasicBody_plain {c : Char} (hquote : c ≠ '"') (hbackslash : c ≠ '\\')
    (hplain : isPlain c = true) (fuel : Nat) (rest : List Char) :
    longBasicBody (fuel + 1) (c :: rest) = prepend c (longBasicBody fuel rest) := by
  rw [longBasicBody.eq_def]
  simp only [hquote, hbackslash, hplain, ↓reduceIte]

theorem longBasicBody_newline (fuel : Nat) (rest : List Char) :
    longBasicBody (fuel + 1) ('\n' :: rest) = prepend '\n' (longBasicBody fuel rest) := by
  rw [longBasicBody.eq_def]
  rfl

theorem runLength_escapeChar {c : Char} (h : c ≠ '"') (rest : List Char) :
    runLength '"' (escapeChar c ++ rest) = 0 := by
  rcases escapeChar_cases c with ⟨letter, digits, htext, -⟩ | ⟨hself, -, -⟩
  · rw [htext]
    exact runLength_cons _ _ _
  · rw [hself]
    exact (runLength_cons _ _ _).trans (if_neg h)

/-- The quotes at the beginning of a printed text: it consists of them, or something follows before
there are three. -/
theorem basicText_quotes {run : Nat} (hrun : run ≤ 2) (cs : List Char) :
    (∃ n, run + n ≤ 2 ∧ cs = List.replicate n '"' ∧
      basicText true 2 run cs = List.replicate n '"') ∨
    ∀ rest, run + runLength '"' (basicText true 2 run cs ++ rest) ≤ 2 := by
  induction cs generalizing run with
  | nil => exact .inl ⟨0, hrun, rfl, rfl⟩
  | cons c cs ih =>
    rw [basicText, if_pos (show true = true from rfl)]
    split_ifs with hquote hfree hnewline
    · subst hquote
      rcases @ih (run + 1) hfree with ⟨n, hn, hcs, htext⟩ | hshort
      · refine .inl ⟨n + 1, by omega, ?_, ?_⟩
        · rw [hcs, List.replicate_succ]
        · rw [htext, List.replicate_succ]
      · refine .inr fun rest => ?_
        have hrest := hshort rest
        rw [List.cons_append, runLength_cons, if_pos rfl]
        omega
    · exact .inr fun rest => by simpa [runLength_cons] using hrun
    · exact .inr fun rest => by simpa [runLength_cons] using hrun
    · refine .inr fun rest => ?_
      rw [List.append_assoc, runLength_escapeChar hquote]
      exact hrun

theorem longBasicBody_text {fuel run : Nat} {cs rest : List Char} (hrun : run ≤ 2)
    (hrest : rest.head? ≠ some '"') (hfuel : cs.length < fuel) :
    longBasicBody fuel (basicText true 2 run cs ++ (List.replicate 3 '"' ++ rest)) =
      some (cs, rest) := by
  induction cs generalizing fuel run with
  | nil =>
    obtain ⟨fuel, rfl⟩ := Nat.exists_eq_add_one_of_ne_zero (Nat.ne_zero_of_lt hfuel)
    exact longBasicBody_close (Nat.zero_le 2) hrest fuel
  | cons c cs ih =>
    obtain ⟨fuel, rfl⟩ := Nat.exists_eq_add_one_of_ne_zero (Nat.ne_zero_of_lt hfuel)
    have hfuel' : cs.length < fuel := Nat.lt_of_succ_lt_succ hfuel
    rcases basicText_quotes hrun (c :: cs) with ⟨n, hn, hcs, htext⟩ | hshort
    · rw [htext, hcs, ← List.append_assoc, List.replicate_append_replicate]
      exact longBasicBody_close (by omega) hrest fuel
    · have hquotes := hshort (List.replicate 3 '"' ++ rest)
      rw [basicText, if_pos (show true = true from rfl)] at hquotes ⊢
      split_ifs at hquotes ⊢ with hquote hfree hnewline
      · subst hquote
        rw [List.cons_append] at hquotes ⊢
        rw [longBasicBody_content (by omega), ih hfree hfuel']
        rfl
      · subst hquote
        rw [List.append_assoc, longBasicBody_escape escapes_quote, ih (Nat.zero_le 2) hfuel']
        rfl
      · subst hnewline
        rw [List.append_assoc, List.singleton_append, longBasicBody_newline,
          ih (Nat.zero_le 2) hfuel']
        rfl
      · rw [List.append_assoc]
        rcases escapeChar_cases c with hescape | ⟨hself, hbackslash, hcontrol⟩
        · rw [longBasicBody_escape hescape, ih (Nat.zero_le 2) hfuel']
          rfl
        · rw [hself, List.singleton_append, longBasicBody_plain hquote hbackslash
            (isPlain_of_not_isControl hcontrol hnewline), ih (Nat.zero_le 2) hfuel']
          rfl

theorem longLiteralBody_close {n : Nat} (hn : n ≤ 2) {rest : List Char}
    (hrest : rest.head? ≠ some '\'') (fuel : Nat) :
    longLiteralBody (fuel + 1) (List.replicate (n + 3) '\'' ++ rest) =
      some (List.replicate n '\'', rest) := by
  have hrun := runLength_replicate hrest (n + 3)
  rw [List.replicate_succ, List.cons_append] at hrun ⊢
  rw [longLiteralBody]
  simp only [↓reduceIte, hrun, quoteRun_close hn]
  rw [List.drop_left' (by simp)]

/-- The quotes at the beginning of a text are all of it, or something else follows them. -/
theorem runLength_append_cases (c : Char) (cs : List Char) :
    cs = List.replicate cs.length c ∨ ∀ rest, runLength c (cs ++ rest) = runLength c cs := by
  induction cs with
  | nil => exact .inl rfl
  | cons d cs ih =>
    by_cases h : d = c
    · rcases ih with hall | hrun
      · exact .inl (by rw [List.length_cons, List.replicate_succ, ← hall, h])
      · refine .inr fun rest => ?_
        rw [List.cons_append, runLength_cons, runLength_cons, hrun]
    · refine .inr fun rest => ?_
      rw [List.cons_append, runLength_cons, runLength_cons, if_neg h, if_neg h]

theorem runLength_all {c : Char} {cs : List Char} (h : cs = List.replicate cs.length c) :
    runLength c cs = cs.length := by
  have hrun := @runLength_replicate c [] (by simp) cs.length
  rwa [← h, List.append_nil] at hrun

theorem longLiteralBody_text {fuel : Nat} {cs rest : List Char}
    (hcs : ∀ before after, cs = before ++ after → runLength '\'' after ≤ 2)
    (hcontrol : ∀ c ∈ cs, isControl c = false) (hrest : rest.head? ≠ some '\'')
    (hfuel : cs.length < fuel) :
    longLiteralBody fuel (cs ++ (List.replicate 3 '\'' ++ rest)) = some (cs, rest) := by
  induction cs generalizing fuel with
  | nil =>
    obtain ⟨fuel, rfl⟩ := Nat.exists_eq_add_one_of_ne_zero (Nat.ne_zero_of_lt hfuel)
    exact longLiteralBody_close (Nat.zero_le 2) hrest fuel
  | cons c cs ih =>
    obtain ⟨fuel, rfl⟩ := Nat.exists_eq_add_one_of_ne_zero (Nat.ne_zero_of_lt hfuel)
    have hafter := @ih fuel (fun before after h => hcs (c :: before) after (h ▸ rfl))
      (fun d hd => hcontrol d (List.mem_cons_of_mem c hd)) (Nat.lt_of_succ_lt_succ hfuel)
    have hshort := hcs [] (c :: cs) rfl
    rcases runLength_append_cases '\'' (c :: cs) with hall | hrun
    · rw [runLength_all hall] at hshort
      rw [hall, ← List.append_assoc, List.replicate_append_replicate]
      exact longLiteralBody_close hshort hrest fuel
    · have hquotes := hrun (List.replicate 3 '\'' ++ rest)
      rw [List.cons_append] at hquotes ⊢
      rw [longLiteralBody, hafter]
      split_ifs with hquote hplain
      · simp only [hquotes, quoteRun_content hshort]
        rfl
      · rfl
      · have hnewline : c = '\n' := by
          by_contra hne
          exact hplain (isPlain_of_not_isControl (hcontrol c List.mem_cons_self) hne)
        subst hnewline
        simp only [newline?, hafter]
        rfl

/-! ## 4. Strings in any form -/

/-- One step of `longestRun`: the length of the present run and that of the longest. -/
def countRun (c : Char) (runs : Nat × Nat) (d : Char) : Nat × Nat :=
  let run := if d = c then runs.1 + 1 else 0
  (run, max runs.2 run)

theorem countRun_le (c d : Char) (runs : Nat × Nat) :
    (countRun c runs d).1 ≤ (countRun c runs d).2 := Nat.le_max_right _ _

theorem run_le_foldl {c : Char} {cs : List Char} {runs : Nat × Nat} (h : runs.1 ≤ runs.2) :
    runs.1 + runLength c cs ≤ (cs.foldl (countRun c) runs).2 ∧
      runs.2 ≤ (cs.foldl (countRun c) runs).2 := by
  induction cs generalizing runs with
  | nil => exact ⟨h, Nat.le_refl _⟩
  | cons d cs ih =>
    obtain ⟨hrun, hlongest⟩ := ih (countRun_le c d runs)
    have hmax : runs.2 ≤ (countRun c runs d).2 := Nat.le_max_left _ _
    rw [List.foldl_cons, runLength_cons]
    refine ⟨?_, Nat.le_trans hmax hlongest⟩
    by_cases hd : d = c
    · have hstep : (countRun c runs d).1 = runs.1 + 1 := if_pos hd
      rw [if_pos hd]
      omega
    · rw [if_neg hd]
      omega

theorem runLength_le_longestRun (c : Char) (before after : List Char) :
    runLength c after ≤ longestRun c (before ++ after) := by
  have hstart : ∀ runs : Nat × Nat, runs.1 ≤ runs.2 →
      runLength c after ≤ ((before ++ after).foldl (countRun c) runs).2 := by
    induction before with
    | nil =>
      intro runs h
      exact Nat.le_trans (Nat.le_add_left _ _) (run_le_foldl h).1
    | cons d before ih => exact fun runs _ => ih (countRun c runs d) (countRun_le c d runs)
  exact hstart (0, 0) (Nat.le_refl 0)

theorem not_mem_of_longestRun {c : Char} {cs : List Char} (h : longestRun c cs = 0) : c ∉ cs := by
  intro hmem
  obtain ⟨before, after, rfl⟩ := List.append_of_mem hmem
  have hrun := runLength_le_longestRun c before (c :: after)
  rw [runLength_cons, if_pos rfl] at hrun
  omega

/-- One quote begins a string on one line if two more do not follow. -/
theorem string?_line {body : List Char} (h : ∀ more, body ≠ '"' :: '"' :: more) :
    string? ('"' :: body) = (basicBody 0 body).map fun (cs, rest) => (String.ofList cs, rest) := by
  unfold string?
  dsimp only
  split
  · next heq => exact absurd (List.cons.inj heq).2 (h _)
  · next heq => rw [(List.cons.inj heq).2]
  · next heq => exact absurd (List.cons.inj heq).1 (by decide)
  · next heq => exact absurd (List.cons.inj heq).1 (by decide)
  · next hquote _ _ => exact absurd rfl (hquote body)

theorem string?_literalLine {body : List Char} (h : ∀ more, body ≠ '\'' :: '\'' :: more) :
    string? ('\'' :: body) =
      (literalBody body).map fun (cs, rest) => (String.ofList cs, rest) := by
  unfold string?
  dsimp only
  split
  · next heq => exact absurd (List.cons.inj heq).1 (by decide)
  · next heq => exact absurd (List.cons.inj heq).1 (by decide)
  · next heq => exact absurd (List.cons.inj heq).2 (h _)
  · next heq => rw [(List.cons.inj heq).2]
  · next hquote => exact absurd rfl (hquote body)

theorem head_escapeChar {c d : Char} (hd : d ≠ '\\') (hc : c ≠ d) (rest : List Char) :
    (escapeChar c ++ rest).head? ≠ some d := by
  rcases escapeChar_cases c with ⟨letter, digits, htext, -⟩ | ⟨hself, -, -⟩
  · rw [htext]
    exact fun h => hd (Option.some.inj h).symm
  · rw [hself]
    exact fun h => hc (Option.some.inj h)

variable {cs rest : List Char}

theorem string?_basicString (hrest : rest.head? ≠ some '"') :
    string? (basicString cs ++ rest) = some (String.ofList cs, rest) := by
  have htext : basicString cs ++ rest = '"' :: (basicText false 0 0 cs ++ '"' :: rest) := by
    simp [basicString]
  rw [htext, string?_line, basicBody_text]
  · rfl
  intro more hmore
  cases cs with
  | nil => exact hrest (congrArg List.head? (List.cons.inj hmore).2)
  | cons c cs =>
    rw [basicText, if_neg (Nat.not_lt_zero 0), if_neg Bool.false_ne_true] at hmore
    split_ifs at hmore with hquote hnewline
    · exact absurd (List.cons.inj hmore).1 (by decide)
    · exact absurd (List.cons.inj hmore).1 (by decide)
    · rw [List.append_assoc] at hmore
      exact head_escapeChar (by decide) hquote _ (congrArg List.head? hmore)

theorem string?_literalString (hrest : rest.head? ≠ some '\'')
    (h : ∀ c ∈ cs, c ≠ '\'' ∧ isPlain c = true) :
    string? (literalString cs ++ rest) = some (String.ofList cs, rest) := by
  have htext : literalString cs ++ rest = '\'' :: (cs ++ '\'' :: rest) := by
    simp [literalString]
  rw [htext, string?_literalLine, literalBody_text h]
  · rfl
  intro more hmore
  cases cs with
  | nil => exact hrest (congrArg List.head? (List.cons.inj hmore).2)
  | cons c cs => exact (h c List.mem_cons_self).1 (List.cons.inj hmore).1

/-- The line end that `longString` adds is passed over, and nothing else. -/
theorem dropNewline_body {body : List Char} (hreturn : body.head? ≠ some '\r')
    (hnewline : '\n' ∉ cs → body.head? ≠ some '\n') :
    dropNewline ((if cs.contains '\n' then ['\n'] else []) ++ body) = body := by
  split_ifs with hcontains
  · rfl
  · have hnone : newline? body = none := by
      unfold newline?
      split
      · exact absurd rfl (hnewline (by simpa using hcontains))
      · exact absurd rfl hreturn
      · rfl
    rw [List.nil_append, dropNewline, hnone]
    rfl

theorem length_le_basicText (multiline : Bool) (free run : Nat) (cs : List Char) :
    cs.length ≤ (basicText multiline free run cs).length := by
  induction cs generalizing run with
  | nil => exact Nat.zero_le _
  | cons c cs ih =>
    have hchar : 1 ≤ (escapeChar c).length := by
      rcases escapeChar_cases c with ⟨letter, digits, htext, -⟩ | ⟨hself, -, -⟩
      · simp [htext]
      · simp [hself]
    rw [basicText, List.length_cons]
    split_ifs
    all_goals
      simp only [List.length_cons, List.length_append, List.length_nil]
      have hrest := ih 0
      have hnext := ih (run + 1)
      omega

theorem head_basicText {c : Char} (hc : c ≠ '\\') (hquote : c ≠ '"') (hmem : c ∉ cs)
    (free run : Nat) (rest : List Char) :
    (basicText true free run cs ++ '"' :: rest).head? ≠ some c := by
  cases cs with
  | nil => exact fun h => hquote (Option.some.inj h).symm
  | cons d cs =>
    have hd : d ≠ c := fun h => hmem (h ▸ List.mem_cons_self)
    rw [basicText, if_pos (show true = true from rfl)]
    split_ifs with hraw hfree hnewline
    · exact fun h => hquote (Option.some.inj h).symm
    · exact fun h => hc (Option.some.inj h).symm
    · exact fun h => hd (hnewline.trans (Option.some.inj h))
    · rw [List.append_assoc]
      exact head_escapeChar hc hd _

theorem head_basicText_return (free run : Nat) (rest : List Char) :
    (basicText true free run cs ++ '"' :: rest).head? ≠ some '\r' := by
  cases cs with
  | nil => exact fun h => absurd (Option.some.inj h) (by decide)
  | cons d cs =>
    rw [basicText, if_pos (show true = true from rfl)]
    split_ifs with hraw hfree hnewline
    · exact fun h => absurd (Option.some.inj h) (by decide)
    · exact fun h => absurd (Option.some.inj h) (by decide)
    · exact fun h => absurd (Option.some.inj h) (by decide)
    · by_cases hd : d = '\r'
      · subst hd
        exact fun h => absurd (Option.some.inj h) (by decide)
      · rw [List.append_assoc]
        exact head_escapeChar (by decide) hd _

theorem string?_longBasicString (hrest : rest.head? ≠ some '"') :
    string? (longBasicString cs ++ rest) = some (String.ofList cs, rest) := by
  have htext : longBasicString cs ++ rest = '"' :: '"' :: '"' ::
      ((if cs.contains '\n' then ['\n'] else []) ++
        (basicText true 2 0 cs ++ (List.replicate 3 '"' ++ rest))) := by
    simp [longBasicString, longString, List.replicate_succ]
  have hlength := length_le_basicText true 2 0 cs
  have hread : ∀ body, string? ('"' :: '"' :: '"' :: body) =
      (longBasicBody (body.length + 1) (dropNewline body)).map
        fun (cs, rest) => (String.ofList cs, rest) := fun _ => rfl
  have hbody : dropNewline ((if cs.contains '\n' then ['\n'] else []) ++
      (basicText true 2 0 cs ++ (List.replicate 3 '"' ++ rest))) =
      basicText true 2 0 cs ++ (List.replicate 3 '"' ++ rest) :=
    dropNewline_body (head_basicText_return 2 0 _)
      fun hmem => head_basicText (by decide) (by decide) hmem 2 0 _
  rw [htext, hread, hbody, longBasicBody_text (Nat.zero_le 2) hrest
    (by simp only [List.length_append]; omega)]
  rfl

theorem string?_longLiteralString (hrest : rest.head? ≠ some '\'')
    (hcontrol : ∀ c ∈ cs, isControl c = false) (hquotes : longestRun '\'' cs ≤ 2) :
    string? (longLiteralString cs ++ rest) = some (String.ofList cs, rest) := by
  have htext : longLiteralString cs ++ rest = '\'' :: '\'' :: '\'' ::
      ((if cs.contains '\n' then ['\n'] else []) ++ (cs ++ (List.replicate 3 '\'' ++ rest))) := by
    simp [longLiteralString, longString, List.replicate_succ]
  have hread : ∀ body, string? ('\'' :: '\'' :: '\'' :: body) =
      (longLiteralBody (body.length + 1) (dropNewline body)).map
        fun (cs, rest) => (String.ofList cs, rest) := fun _ => rfl
  have hhead : ∀ c, c ≠ '\'' → c ∉ cs →
      (cs ++ (List.replicate 3 '\'' ++ rest)).head? ≠ some c := by
    intro c hc hmem
    cases cs with
    | nil => exact fun h => hc (Option.some.inj h).symm
    | cons d cs => exact fun h => hmem (Option.some.inj h ▸ List.mem_cons_self)
  have hruns : ∀ before after, cs = before ++ after → runLength '\'' after ≤ 2 := by
    intro before after h
    rw [h] at hquotes
    exact Nat.le_trans (runLength_le_longestRun '\'' before after) hquotes
  rw [htext, hread, dropNewline_body
    (hhead '\r' (by decide) fun hmem => absurd (hcontrol '\r' hmem) (by decide))
    (hhead '\n' (by decide)),
    longLiteralBody_text hruns hcontrol hrest (by simp only [List.length_append]; omega)]
  rfl

theorem not_isControl_of_any (h : (!cs.any isControl) = true) :
    ∀ c ∈ cs, isControl c = false := by
  simpa using h

/-- A printed string is read back. -/
theorem string?_stringText (s : String) (hdouble : rest.head? ≠ some '"')
    (hsingle : rest.head? ≠ some '\'') :
    string? (stringText s ++ rest) = some (s, rest) := by
  have hback : String.ofList s.toList = s := String.ofList_toList
  unfold stringText
  dsimp only
  split_ifs with hbasic hliteral hlongBasic hlongLiteral hnewline
  · rw [string?_basicString hdouble, hback]
  · simp only [Bool.and_eq_true] at hliteral
    obtain ⟨⟨hcontrol, hsingles⟩, hline⟩ := hliteral
    rw [string?_literalString hsingle, hback]
    intro c hc
    have hplain := not_isControl_of_any hcontrol c hc
    refine ⟨fun h => not_mem_of_longestRun (beq_iff_eq.mp hsingles) (h ▸ hc),
      isPlain_of_not_isControl hplain fun h => ?_⟩
    subst h
    simp [hc] at hline
  · rw [string?_longBasicString hdouble, hback]
  · simp only [Bool.and_eq_true, decide_eq_true_eq] at hlongLiteral
    rw [string?_longLiteralString hsingle (not_isControl_of_any hlongLiteral.1) hlongLiteral.2,
      hback]
  · rw [string?_longBasicString hdouble, hback]
  · rw [string?_basicString hdouble, hback]

/-! ## 5. Keys -/

theorem isBareKeyChar_eq (c : Char) :
    isBareKeyChar c = (c.isAlphanum || c == '-' || c == '_') := by
  have hlower : ('a' ≤ c && c ≤ 'z') = c.isLower := rfl
  have hupper : ('A' ≤ c && c ≤ 'Z') = c.isUpper := (Bool.decide_and _ _).symm
  rw [isBareKeyChar, hlower, hupper, Bool.or_comm c.isLower]
  rfl

theorem simpleKey?_bare {cs rest : List Char} (h : isBareKey cs = true)
    (hrest : ∀ c, rest.head? = some c → isBareKeyChar c = false) :
    simpleKey? (cs ++ rest) = some (String.ofList cs, rest) := by
  simp only [isBareKey, Bool.and_eq_true, bne_iff_ne, ne_eq, List.all_eq_true,
    ← isBareKeyChar_eq] at h
  obtain ⟨hnonempty, hbare⟩ := h
  obtain ⟨c, cs, rfl⟩ := List.exists_cons_of_ne_nil hnonempty
  have hstop : ∀ p : Char → Bool, (∀ c, rest.head? = some c → p c = false) →
      rest.takeWhile p = [] ∧ rest.dropWhile p = rest := by
    intro p hp
    cases rest with
    | nil => exact ⟨rfl, rfl⟩
    | cons d rest => simp [hp d rfl]
  obtain ⟨htake, hdrop⟩ := hstop isBareKeyChar hrest
  have hdouble : c ≠ '"' := fun heq => absurd (heq ▸ hbare c List.mem_cons_self) (by decide)
  have hsingle : c ≠ '\'' := fun heq => absurd (heq ▸ hbare c List.mem_cons_self) (by decide)
  have hname : (c :: cs ++ rest).takeWhile isBareKeyChar = c :: cs := by
    rw [List.takeWhile_append_of_pos hbare, htake, List.append_nil]
  have hafter : (c :: cs ++ rest).dropWhile isBareKeyChar = rest := by
    rw [List.dropWhile_append_of_pos hbare, hdrop]
  rw [List.cons_append] at hname hafter ⊢
  rw [simpleKey?, if_neg hdouble, if_neg hsingle, hname, hafter]

theorem simpleKey?_keyText (name : String) {rest : List Char}
    (hrest : ∀ c, rest.head? = some c → isBareKeyChar c = false) :
    simpleKey? (keyText name ++ rest) = some (name, rest) := by
  have hback : String.ofList name.toList = name := String.ofList_toList
  have hbasic : simpleKey? (basicString name.toList ++ rest) = some (name, rest) := by
    have htext : basicString name.toList ++ rest =
        '"' :: (basicText false 0 0 name.toList ++ '"' :: rest) := by
      simp [basicString]
    rw [htext, simpleKey?, if_pos rfl, basicBody_text]
    exact congrArg (fun s => some (s, rest)) hback
  unfold keyText
  dsimp only
  split_ifs with hbare hplain hliteral
  · rw [simpleKey?_bare hbare hrest, hback]
  · exact hbasic
  · have htext : literalString name.toList ++ rest = '\'' :: (name.toList ++ '\'' :: rest) := by
      simp [literalString]
    simp only [Bool.and_eq_true, Bool.not_eq_true', Bool.or_eq_false_iff, List.any_eq_false,
      List.contains_eq_mem, decide_eq_false_iff_not, Bool.not_eq_true] at hliteral
    obtain ⟨⟨hcontrol, hnewline⟩, hquote⟩ := hliteral
    rw [htext, simpleKey?, if_neg (by decide), if_pos rfl, literalBody_text fun c hc =>
      ⟨fun h => hquote (h ▸ hc),
        isPlain_of_not_isControl (hcontrol c hc) fun h => hnewline (h ▸ hc)⟩]
    exact congrArg (fun s => some (s, rest)) hback
  · exact hbasic

/-- A printed key begins with a character of a bare key or with a quote. -/
theorem keyText_head (name : String) :
    ∃ c cs, keyText name = c :: cs ∧ (isBareKeyChar c = true ∨ c = '"' ∨ c = '\'') := by
  unfold keyText
  dsimp only
  split_ifs with hbare
  · simp only [isBareKey, Bool.and_eq_true, bne_iff_ne, ne_eq, List.all_eq_true,
      ← isBareKeyChar_eq] at hbare
    obtain ⟨c, cs, hcs⟩ := List.exists_cons_of_ne_nil hbare.1
    exact ⟨c, cs, hcs, .inl (hbare.2 c (hcs ▸ List.mem_cons_self))⟩
  · exact ⟨_, _, rfl, .inr (.inl rfl)⟩
  · exact ⟨_, _, rfl, .inr (.inr rfl)⟩
  · exact ⟨_, _, rfl, .inr (.inl rfl)⟩

theorem skipBlank_keyText (name : String) (rest : List Char) :
    skipBlank (keyText name ++ rest) = keyText name ++ rest := by
  obtain ⟨c, cs, hkey, hc⟩ := keyText_head name
  have hblank : isBlank c = false := by
    by_contra h
    simp only [Bool.not_eq_false, isBlank, Bool.or_eq_true, beq_iff_eq] at h
    rcases h with rfl | rfl <;> exact absurd hc (by decide)
  rw [hkey]
  exact List.dropWhile_cons_of_neg (by simp [hblank])

/-- What stands after a printed key: an equals sign after a blank, or the end of a header. -/
inductive EndsKey : List Char → Prop
  | assignment (rest : List Char) : EndsKey (' ' :: '=' :: rest)
  | header (rest : List Char) : EndsKey (']' :: rest)

theorem EndsKey.head {rest : List Char} (h : EndsKey rest) :
    ∀ c, rest.head? = some c → isBareKeyChar c = false := by
  intro c hc
  cases h with
  | assignment rest => exact Option.some.inj hc ▸ rfl
  | header rest => exact Option.some.inj hc ▸ rfl

theorem pathText_cons (name next : String) (path : List String) :
    pathText (name :: next :: path) = keyText name ++ '.' :: pathText (next :: path) := by
  simp only [pathText, List.map_cons, List.intercalate_cons_cons, List.append_assoc,
    List.singleton_append]

theorem keyParts?_pathText {name : String} {path : List String} {fuel : Nat}
    (hfuel : path.length < fuel) {rest : List Char} (hrest : EndsKey rest) :
    keyParts? fuel (pathText (name :: path) ++ rest) = some (name :: path, skipBlank rest) := by
  induction path generalizing name fuel with
  | nil =>
    obtain ⟨fuel, rfl⟩ := Nat.exists_eq_add_one_of_ne_zero (Nat.ne_zero_of_lt hfuel)
    have hpath : pathText [name] = keyText name := by
      simp only [pathText, List.map_cons, List.map_nil, List.intercalate_singleton]
    rw [hpath, keyParts?, skipBlank_keyText, simpleKey?_keyText name hrest.head]
    cases hrest with
    | assignment rest => rfl
    | header rest => rfl
  | cons next path ih =>
    obtain ⟨fuel, rfl⟩ := Nat.exists_eq_add_one_of_ne_zero (Nat.ne_zero_of_lt hfuel)
    have hpoint : ∀ cs, skipBlank ('.' :: cs) = '.' :: cs := fun _ => rfl
    have hdot : ∀ cs c, ('.' :: cs).head? = some c → isBareKeyChar c = false :=
      fun _ _ hc => Option.some.inj hc ▸ rfl
    rw [pathText_cons, List.append_assoc, List.cons_append, keyParts?, skipBlank_keyText,
      simpleKey?_keyText name (hdot _)]
    simp only [bind, Option.bind, hpoint, ih (Nat.lt_of_succ_lt_succ hfuel)]

theorem length_lt_pathText (name : String) (path : List String) :
    path.length < (pathText (name :: path)).length := by
  have hkey : ∀ name, 0 < (keyText name).length := by
    intro name
    obtain ⟨c, cs, hkey, -⟩ := keyText_head name
    simp [hkey]
  induction path generalizing name with
  | nil =>
    simp only [pathText, List.map_cons, List.map_nil, List.intercalate_singleton]
    exact hkey name
  | cons next path ih =>
    have hname := hkey name
    have hpath := ih next
    rw [pathText_cons]
    simp only [List.length_append, List.length_cons]
    omega

/-- Blanks before a key are passed over. -/
theorem keyParts?_blank {lead : List Char} (hlead : ∀ c ∈ lead, isBlank c = true) (fuel : Nat)
    (cs : List Char) : keyParts? fuel (lead ++ cs) = keyParts? fuel cs := by
  cases fuel with
  | zero => rfl
  | succ fuel =>
    have hskip : skipBlank (lead ++ cs) = skipBlank cs := List.dropWhile_append_of_pos hlead
    rw [keyParts?, keyParts?, hskip]

/-- A printed path of less than `limit` parts is read back; a longer one is refused. -/
theorem key?_pathText (path : List String) (name : String) (lead : List Char) {rest : List Char}
    (hlead : ∀ c ∈ lead, isBlank c = true) (hrest : EndsKey rest) :
    key? (lead ++ (pathText (path ++ [name]) ++ rest)) =
      if path.length + 1 < limit then some ((path, name), skipBlank rest) else none := by
  have hparts : keyParts? ((lead ++ (pathText (path ++ [name]) ++ rest)).length + 1)
      (lead ++ (pathText (path ++ [name]) ++ rest)) = some (path ++ [name], skipBlank rest) := by
    obtain ⟨first, more, hcons⟩ := List.exists_cons_of_ne_nil
      (List.append_ne_nil_of_right_ne_nil path (List.cons_ne_nil name []))
    have hlength := length_lt_pathText first more
    rw [keyParts?_blank hlead, hcons]
    exact keyParts?_pathText (by simp only [List.length_append]; omega) hrest
  rw [key?, hparts]
  simp only [bind, Option.bind, List.length_append, List.length_singleton, List.getLast?_concat,
    List.dropLast_concat]
  by_cases h : path.length + 1 < limit
  · rw [if_neg (by omega), if_pos h]
  · rw [if_pos (by omega), if_neg h]

end Templating.Toml
