import Templating.Proofs.Text.CaseForms
import Templating.Value.Members

/-!
# Title case

Title case goes through a text with a flag, which tells whether a word may begin. The flag after a
part of a text depends on the last character of the part, and a blank sets it whatever came before.
So a text can be cut at its blanks, and each word is titled on its own.

A titled text need not be capitalised. The upper-case form of a first character may be several
letters, and only one of them is still first when the result is titled again.

* `startsAfter`: the flag after a part of a text.
* `titleWord`: title case of a word.
* `Capitalised`: nothing after the first character of a word has another lower-case form.
* `PlainInitial`: the first character of a word has a capitalised upper-case form.

Results:
1. `titleFrom_append`: a text can be cut anywhere if the flag is handed on.
2. `filter_titleFrom`, `splitOnP_titleFrom`: the blanks stay, and the pieces between them are titled
   one by one.
3. `trimList_titleFrom`: trimming commutes with title case.
4. `title_word_by_word`: title case of a text from that of its parts and of its words.
5. `capitalised_titleWord_iff`, `titleWord_titleWord_iff`: when a titled word is capitalised, and
   when it can be titled again.
6. `title_eq_self_iff`: which texts are titled already. `title_title_iff`: when a titled text is.
-/

namespace Templating.Text

/-! ## Definitions -/

/-- Whether a word may begin after a text. -/
def startsAfter (atStart : Bool) (cs : List Char) : Bool := cs.foldl (fun _ c => isBlank c) atStart

/-- What title case makes of one character. -/
def titleForm (atStart : Bool) (c : Char) : List Char :=
  if isBlank c then [c] else if atStart then upperChar c else lowerChar c

/-- Title case of a text without blanks. -/
def titleWord : List Char → List Char
  | [] => []
  | c :: cs => upperChar c ++ cs.flatMap lowerChar

/-- No character after the first has a lower-case form other than itself. -/
def Capitalised (word : List Char) : Prop := ∀ c ∈ word.tail, lowerChar c = [c]

/-- The first character of a word has a capitalised upper-case form. -/
def PlainInitial (word : List Char) : Prop := ∀ c ∈ word.head?, Capitalised (upperChar c)

-- Only the characters of the word are to be looked at, not all there are.
instance (word : List Char) : Decidable (Capitalised word) :=
  List.decidableBAll (fun c => lowerChar c = [c]) word.tail

instance (word : List Char) : Decidable (PlainInitial word) :=
  Option.decidableForallMem word.head?

variable {atStart : Bool} {c : Char} {cs ds : List Char}

/-! ## 1. Cutting a text -/

theorem titleFrom_cons (atStart : Bool) (c : Char) (cs : List Char) :
    titleFrom atStart (c :: cs) = titleForm atStart c ++ titleFrom (isBlank c) cs := by
  rw [titleFrom, titleForm]
  cases hc : isBlank c with
  | true => rfl
  | false => cases atStart <;> rfl

theorem titleForm_blank (hc : isBlank c = true) : titleForm atStart c = [c] := if_pos hc

theorem titleForm_ne_nil (atStart : Bool) (c : Char) : titleForm atStart c ≠ [] := by
  rw [titleForm]
  split
  · exact List.cons_ne_nil _ _
  · split
    · exact caseForm_upperChar.ne_nil c
    · exact caseForm_lowerChar.ne_nil c

theorem blankFree_titleForm (hc : isBlank c = false) : BlankFree (titleForm atStart c) := by
  rw [titleForm, hc]
  cases atStart with
  | true => exact caseForm_upperChar.blankFree hc
  | false => exact caseForm_lowerChar.blankFree hc

/-- A text can be cut anywhere: the second part is titled with the flag after the first. -/
theorem titleFrom_append (atStart : Bool) (cs ds : List Char) :
    titleFrom atStart (cs ++ ds) =
      titleFrom atStart cs ++ titleFrom (startsAfter atStart cs) ds := by
  induction cs generalizing atStart with
  | nil => rfl
  | cons c cs ih =>
    rw [List.cons_append, titleFrom_cons, titleFrom_cons, ih, List.append_assoc]
    rfl

theorem startsAfter_concat (atStart : Bool) (cs : List Char) (c : Char) :
    startsAfter atStart (cs ++ [c]) = isBlank c := by
  rw [startsAfter, List.foldl_append]
  rfl

theorem titleFrom_concat (atStart : Bool) (cs : List Char) (c : Char) :
    titleFrom atStart (cs ++ [c]) =
      titleFrom atStart cs ++ titleForm (startsAfter atStart cs) c := by
  rw [titleFrom_append, titleFrom_cons, titleFrom, List.append_nil]

/-- Blanks stay as they are. -/
theorem titleFrom_blanks (h : ∀ c ∈ cs, isBlank c = true) : titleFrom atStart cs = cs := by
  induction cs generalizing atStart with
  | nil => rfl
  | cons c cs ih =>
    obtain ⟨hc, hcs⟩ := List.forall_mem_cons.mp h
    rw [titleFrom_cons, titleForm_blank hc, ih hcs]
    rfl

/-- A text is cut at a blank, with a new word after it. -/
theorem titleFrom_append_blank (hc : isBlank c = true) :
    titleFrom atStart (cs ++ c :: ds) = titleFrom atStart cs ++ c :: titleFrom true ds := by
  rw [titleFrom_append, titleFrom_cons, titleForm_blank hc, hc]
  rfl

/-- Parts with blanks between them are titled one by one. -/
theorem titleFrom_between {between : List Char} (hne : between ≠ [])
    (hblank : ∀ c ∈ between, isBlank c = true) :
    titleFrom atStart (cs ++ between ++ ds) =
      titleFrom atStart cs ++ between ++ titleFrom true ds := by
  obtain ⟨front, last, rfl⟩ := (List.eq_nil_or_concat' between).resolve_left hne
  have hlast : isBlank last = true := hblank last (by simp)
  rw [titleFrom_append, titleFrom_append, titleFrom_blanks hblank, ← List.append_assoc cs,
    startsAfter_concat, hlast]

theorem titleFrom_inWord (h : BlankFree cs) : titleFrom false cs = cs.flatMap lowerChar := by
  induction cs with
  | nil => rfl
  | cons c cs ih =>
    obtain ⟨hc, hcs⟩ := blankFree_cons.mp h
    rw [titleFrom_cons, hc, ih hcs, titleForm, hc]
    rfl

/-- Title case of a text without blanks is that of a word. -/
theorem titleFrom_word (h : BlankFree cs) : titleFrom true cs = titleWord cs := by
  cases cs with
  | nil => rfl
  | cons c cs =>
    obtain ⟨hc, hcs⟩ := blankFree_cons.mp h
    rw [titleFrom_cons, hc, titleFrom_inWord hcs, titleForm, hc]
    rfl

/-! ## 2. Blanks and words -/

/-- Title case keeps the blanks, each in its place among the others. -/
theorem filter_titleFrom (atStart : Bool) (cs : List Char) :
    (titleFrom atStart cs).filter isBlank = cs.filter isBlank := by
  induction cs generalizing atStart with
  | nil => rfl
  | cons c cs ih =>
    rw [titleFrom_cons, List.filter_append, ih]
    cases hc : isBlank c with
    | true =>
      rw [titleForm_blank hc, List.filter_cons_of_pos hc, List.filter_cons_of_pos hc]
      rfl
    | false =>
      have hform : (titleForm atStart c).filter isBlank = [] :=
        List.filter_eq_nil_iff.mpr fun d hd => by simp [blankFree_titleForm hc d hd]
      rw [hform, List.filter_cons_of_neg (by simp [hc])]
      rfl

theorem blankFree_titleWord (h : BlankFree cs) : BlankFree (titleWord cs) := by
  cases cs with
  | nil => exact nofun
  | cons c cs =>
    obtain ⟨hc, hcs⟩ := blankFree_cons.mp h
    refine (caseForm_upperChar.blankFree hc).append fun d hd => ?_
    obtain ⟨e, he, hd⟩ := List.mem_flatMap.mp hd
    exact caseForm_lowerChar.blankFree (hcs e he) d hd

/-- The pieces between the blanks are titled one by one. -/
theorem splitOnP_titleFrom (cs : List Char) :
    (titleFrom true cs).splitOnP isBlank = (cs.splitOnP isBlank).map titleWord := by
  induction cs using blank_induction with
  | last piece hpiece =>
    rw [titleFrom_word hpiece, List.splitOnP_eq_singleton hpiece,
      List.splitOnP_eq_singleton (blankFree_titleWord hpiece)]
    rfl
  | next piece c rest hpiece hc ih =>
    rw [titleFrom_append_blank hc, titleFrom_word hpiece,
      List.splitOnP_append_cons_of_forall_mem hpiece c hc,
      List.splitOnP_append_cons_of_forall_mem (blankFree_titleWord hpiece) c hc, ih]
    rfl

theorem titleWord_isEmpty (word : List Char) : (titleWord word).isEmpty = word.isEmpty := by
  cases word with
  | nil => rfl
  | cons c cs => simp [titleWord, caseForm_upperChar.ne_nil c]

theorem toList_title (text : String) : (title text).toList = titleFrom true text.toList :=
  String.toList_ofList

/-- The words of a titled text are the titled words. -/
theorem words_title (text : String) : words (title text) = (words text).map titleWord := by
  have hkept : (fun piece => !(titleWord piece).isEmpty) = fun piece => !piece.isEmpty :=
    funext fun piece => by rw [titleWord_isEmpty]
  rw [words, words, toList_title, splitOnP_titleFrom, List.filter_map, Function.comp_def, hkept]

/-! ## 3. Trimming -/

theorem dropWhile_titleFrom (cs : List Char) :
    (titleFrom true cs).dropWhile isBlank = titleFrom true (cs.dropWhile isBlank) := by
  induction cs with
  | nil => rfl
  | cons c cs ih =>
    cases hc : isBlank c with
    | true =>
      rw [titleFrom_cons, titleForm_blank hc, hc, List.singleton_append,
        List.dropWhile_cons_of_pos hc, List.dropWhile_cons_of_pos hc, ih]
    | false =>
      -- Nothing is dropped, as the form is not empty and has no blank in front either.
      rw [List.dropWhile_cons_of_neg (by simp [hc]), titleFrom_cons,
        (blankFree_titleForm hc).dropWhile_append (titleForm_ne_nil true c)]

theorem rdropWhile_titleFrom (atStart : Bool) (cs : List Char) :
    (titleFrom atStart cs).rdropWhile isBlank = titleFrom atStart (cs.rdropWhile isBlank) := by
  induction cs using List.reverseRecOn with
  | nil => rfl
  | append_singleton cs c ih =>
    cases hc : isBlank c with
    | true =>
      rw [titleFrom_concat, titleForm_blank hc, List.rdropWhile_concat_pos _ _ _ hc,
        List.rdropWhile_concat_pos _ _ _ hc, ih]
    | false =>
      rw [List.rdropWhile_concat_neg _ _ _ (by simp [hc]), titleFrom_concat,
        (blankFree_titleForm hc).append_rdropWhile (titleForm_ne_nil _ c)]

/-- Trimming before title case or after it gives the same text. -/
theorem trimList_titleFrom (cs : List Char) :
    trimList (titleFrom true cs) = titleFrom true (trimList cs) := by
  rw [trimList_eq, trimList_eq, dropWhile_titleFrom, rdropWhile_titleFrom]

/-! ## 4. Word by word -/

/-- Parts of a text with blanks between them are titled one by one. Title case keeps all blanks in
their order and titles each word on its own, so that there are as many as before. It commutes with
trimming, and so do the two methods. -/
theorem title_word_by_word (text : String) :
    (∀ between rest : String, between ≠ "" → (∀ c ∈ between.toList, isBlank c = true) →
        title (text ++ between ++ rest) = title text ++ between ++ title rest) ∧
      (title text).toList.filter isBlank = text.toList.filter isBlank ∧
      words (title text) = (words text).map titleWord ∧
      (words (title text)).length = (words text).length ∧
      trim (title text) = title (trim text) ∧
      (Method.title.invoke (.string text) [] >>= fun titled => Method.strip.invoke titled []) =
        (Method.strip.invoke (.string text) [] >>= fun stripped =>
          Method.title.invoke stripped []) := by
  have htrim : trim (title text) = title (trim text) := by
    rw [trim, toList_title, trimList_titleFrom, title, trim, String.toList_ofList]
  refine ⟨fun between rest hne hblank => ?_, ?_, words_title text, ?_, htrim, ?_⟩
  · have hlist : between.toList ≠ [] := fun hnil => hne (String.toList_eq_nil_iff.mp hnil)
    rw [← String.toList_inj]
    simp only [String.toList_append, toList_title, titleFrom_between hlist hblank]
  · rw [toList_title, filter_titleFrom]
  · rw [words_title, List.length_map]
  · change Except.ok (Value.string (trim (title text))) = .ok (.string (title (trim text)))
    rw [htrim]

/-- Blanks that are not ASCII, between words whose first characters have special forms. -/
theorem title_word_by_word_sharpS :
    "\u3000\n" ≠ "" ∧ (∀ c ∈ "\u3000\n".toList, isBlank c = true) ∧
      title " ßaB\u3000\nİX " = title " ßaB" ++ "\u3000\n" ++ title "İX " ∧
      title " ßaB" = " SSab" ∧ title "İX " = "İx " := by
  have hne : "\u3000\n" ≠ "" := by decide
  have hblank : ∀ c ∈ "\u3000\n".toList, isBlank c = true := List.all_eq_true.mp rfl
  obtain ⟨hbetween, -⟩ := title_word_by_word " ßaB"
  refine ⟨hne, hblank, hbetween "\u3000\n" "İX " hne hblank, ?_, ?_⟩
  · decide +kernel
  · decide +kernel

/-! ## 5. Titled words -/

/-- A titled word begins with a character that is its own upper-case form. -/
theorem exists_titleWord (c : Char) (cs : List Char) :
    ∃ d, upperChar d = [d] ∧
      titleWord (c :: cs) = d :: ((upperChar c).tail ++ cs.flatMap lowerChar) := by
  obtain ⟨d, form, hform⟩ := List.exists_cons_of_ne_nil (caseForm_upperChar.ne_nil c)
  refine ⟨d, caseForm_upperChar.settled (hform ▸ List.mem_cons_self : d ∈ upperChar c), ?_⟩
  rw [titleWord, hform]
  rfl

theorem titleWord_eq_self_iff (hc : upperChar c = [c]) :
    titleWord (c :: cs) = c :: cs ↔ Capitalised (c :: cs) := by
  rw [titleWord, hc, List.singleton_append, List.cons_inj_right,
    caseForm_lowerChar.flatMap_eq_self_iff]
  rfl

theorem plainInitial_cons : PlainInitial (c :: cs) ↔ Capitalised (upperChar c) := by
  simp [PlainInitial]

/-- A titled word is capitalised if and only if the upper-case form of its first character is: the
rest is in lower case. -/
theorem capitalised_titleWord_iff (word : List Char) :
    Capitalised (titleWord word) ↔ PlainInitial word := by
  cases word with
  | nil => exact iff_of_true nofun nofun
  | cons c cs =>
    obtain ⟨d, -, hword⟩ := exists_titleWord c cs
    have hrest : ∀ e ∈ cs.flatMap lowerChar, lowerChar e = [e] :=
      fun e he => caseForm_lowerChar.settled_flatMap he
    rw [plainInitial_cons, hword, Capitalised, List.tail_cons, List.forall_mem_append,
      and_iff_left hrest]
    rfl

/-- Titling a titled word changes nothing if and only if it is capitalised. -/
theorem titleWord_titleWord_iff (word : List Char) :
    titleWord (titleWord word) = titleWord word ↔ Capitalised (titleWord word) := by
  cases word with
  | nil => exact iff_of_true rfl nofun
  | cons c cs =>
    obtain ⟨d, hd, hword⟩ := exists_titleWord c cs
    rw [hword, titleWord_eq_self_iff hd]

/-- A word that is titled twice is capitalised. -/
theorem capitalised_titleWord_titleWord (word : List Char) :
    Capitalised (titleWord (titleWord word)) := by
  cases word with
  | nil => exact nofun
  | cons c cs =>
    obtain ⟨d, hd, hword⟩ := exists_titleWord c cs
    rw [capitalised_titleWord_iff, hword, plainInitial_cons, hd]
    exact nofun

/-! ## 6. Titled texts -/

/-- Titling a text changes nothing if and only if it changes no piece between blanks. -/
theorem titleFrom_eq_self_iff (cs : List Char) :
    titleFrom true cs = cs ↔ ∀ piece ∈ cs.splitOnP isBlank, titleWord piece = piece := by
  have hpieces : (cs.splitOnP isBlank).map titleWord = cs.splitOnP isBlank ↔
      ∀ piece ∈ cs.splitOnP isBlank, titleWord piece = piece := by
    simpa using List.map_inj_left (l := cs.splitOnP isBlank) (f := titleWord) (g := id)
  rw [← hpieces, ← splitOnP_titleFrom]
  -- The blanks are the same anyway, so that equal pieces make equal texts.
  exact ⟨fun h => by rw [h], fun h => eq_of_splitOnP h (filter_titleFrom true cs)⟩

theorem title_eq_self_iff (text : String) :
    title text = text ↔ ∀ word ∈ words text, titleWord word = word := by
  rw [← String.toList_inj, toList_title, titleFrom_eq_self_iff,
    forall_mem_words_iff (p := fun word => titleWord word = word) rfl]

theorem forall_mem_words_title {p : List Char → Prop} (text : String) :
    (∀ word ∈ words (title text), p word) ↔ ∀ word ∈ words text, p (titleWord word) := by
  rw [words_title, List.forall_mem_map]

theorem capitalised_title_iff (text : String) :
    (∀ word ∈ words (title text), Capitalised word) ↔ ∀ word ∈ words text, PlainInitial word := by
  simp only [forall_mem_words_title, capitalised_titleWord_iff]

theorem title_title_eq_iff (text : String) :
    title (title text) = title text ↔ ∀ word ∈ words (title text), Capitalised word := by
  simp only [title_eq_self_iff, forall_mem_words_title, titleWord_titleWord_iff]

theorem capitalised_title_title (text : String) :
    ∀ word ∈ words (title (title text)), Capitalised word := by
  simp only [forall_mem_words_title]
  exact fun word _ => capitalised_titleWord_titleWord word

/-- A titled text is capitalised, and titling it again changes nothing, if and only if the first
character of each word has a capitalised upper-case form. Titled twice, every text is capitalised,
and titling it a third time changes nothing. -/
theorem title_title_iff (text : String) :
    (title (title text) = title text ↔ ∀ word ∈ words text, PlainInitial word) ∧
      ((∀ word ∈ words (title text), Capitalised word) ↔ ∀ word ∈ words text, PlainInitial word) ∧
      (∀ word ∈ words (title (title text)), Capitalised word) ∧
      title (title (title text)) = title (title text) := by
  have htwice := capitalised_title_title text
  exact ⟨(title_title_eq_iff text).trans (capitalised_title_iff text), capitalised_title_iff text,
    htwice, (title_title_eq_iff (title text)).mpr htwice⟩

/-- A ligature has two capitals as its upper-case form, and the second does not stay one. -/
theorem title_title_ligature :
    title "ﬁne day" = "FIne Day" ∧ title (title "ﬁne day") = "Fine Day" ∧
      title (title "ﬁne day") ≠ title "ﬁne day" ∧
      ¬ ∀ word ∈ words (title "ﬁne day"), Capitalised word := by
  decide +kernel

-- The upper-case form of ǰ is two characters as well, but the second is an accent.
example : ∀ word ∈ words "ǰa l'été ΣΑΣ Straße", PlainInitial word := by decide +kernel

end Templating.Text
