import Mathlib.Data.List.DropRight
import Templating.Text.Blank

/-!
# Words and blanks

Blanks divide a text into pieces. A text is its pieces and its blanks, each in their order, and its
words are the pieces that are not empty.

* `BlankFree`: there are no blanks in a text.
* `words`: the words of a text.

Results:
1. `blank_induction`: a text is a piece, or a piece, a blank and a text.
2. `eq_of_splitOnP`: the pieces and the blanks of a text determine it.
3. `trim_between`: blanks around a text are trimmed if it holds none itself.
-/

namespace Templating.Text

/-! ## Definitions -/

def BlankFree (cs : List Char) : Prop := ∀ c ∈ cs, isBlank c = false

/-- What stands between the blanks of a text, but for the empty pieces between two of them and at
both ends. -/
def words (text : String) : List (List Char) :=
  (text.toList.splitOnP isBlank).filter fun piece => !piece.isEmpty

/-! ## 1. Texts without blanks -/

theorem blankFree_of_all {cs : List Char} (h : (cs.all fun c => !isBlank c) = true) :
    BlankFree cs :=
  fun c hc => by simpa using List.all_eq_true.mp h c hc

theorem BlankFree.append {cs ds : List Char} (hcs : BlankFree cs) (hds : BlankFree ds) :
    BlankFree (cs ++ ds) := by
  intro c hc
  rcases List.mem_append.mp hc with hc | hc
  · exact hcs c hc
  · exact hds c hc

theorem blankFree_cons {c : Char} {cs : List Char} :
    BlankFree (c :: cs) ↔ isBlank c = false ∧ BlankFree cs :=
  List.forall_mem_cons

theorem BlankFree.dropWhile {cs : List Char} (h : BlankFree cs) : cs.dropWhile isBlank = cs := by
  cases cs with
  | nil => rfl
  | cons c cs => exact List.dropWhile_cons_of_neg (by simp [h c List.mem_cons_self])

/-- What begins with a piece without blanks keeps its front. -/
theorem BlankFree.dropWhile_append {cs : List Char} (h : BlankFree cs) (hne : cs ≠ [])
    (ds : List Char) : (cs ++ ds).dropWhile isBlank = cs ++ ds := by
  obtain ⟨c, cs, rfl⟩ := List.exists_cons_of_ne_nil hne
  exact List.dropWhile_cons_of_neg (by simp [h c List.mem_cons_self])

/-- What ends with a piece without blanks keeps its end. -/
theorem BlankFree.append_rdropWhile {ds : List Char} (h : BlankFree ds) (hne : ds ≠ [])
    (cs : List Char) : (cs ++ ds).rdropWhile isBlank = cs ++ ds := by
  have hreverse : BlankFree ds.reverse := fun c hc => h c (List.mem_reverse.mp hc)
  rw [List.rdropWhile, List.reverse_append,
    hreverse.dropWhile_append (List.reverse_ne_nil_iff.mpr hne), ← List.reverse_append,
    List.reverse_reverse]

theorem isBlank_of_isDigit {c : Char} (h : c.isDigit = true) : isBlank c = false := by
  simp only [Char.isDigit, Bool.and_eq_true, decide_eq_true_eq, UInt32.le_iff_toNat_le] at h
  have hleast : 48 ≤ c.toNat := h.1
  have hgreatest : c.toNat ≤ 57 := h.2
  simp only [isBlank, Bool.or_eq_false_iff, Bool.and_eq_false_iff, decide_eq_false_iff_not,
    beq_eq_false_iff_ne]
  omega

/-- A text is a piece without blanks, or such a piece, a blank and a text. -/
theorem blank_induction {motive : List Char → Prop}
    (last : ∀ piece, BlankFree piece → motive piece)
    (next : ∀ piece c rest, BlankFree piece → isBlank c = true → motive rest →
      motive (piece ++ c :: rest)) (cs : List Char) : motive cs := by
  -- The piece that has begun is carried along, as a whole text may still follow it.
  have hafter : ∀ piece, BlankFree piece → motive (piece ++ cs) := by
    induction cs with
    | nil =>
      intro piece hpiece
      rw [List.append_nil]
      exact last piece hpiece
    | cons c cs ih =>
      intro piece hpiece
      cases hc : isBlank c with
      | true => exact next piece c cs hpiece hc (ih [] nofun)
      | false =>
        rw [List.append_cons]
        exact ih (piece ++ [c]) (hpiece.append (blankFree_cons.mpr ⟨hc, nofun⟩))
  exact hafter [] nofun

/-! ## 2. Pieces and words -/

/-- Texts with the same pieces and the same blanks are equal. -/
theorem eq_of_splitOnP {cs ds : List Char}
    (hpieces : cs.splitOnP isBlank = ds.splitOnP isBlank)
    (hblanks : cs.filter isBlank = ds.filter isBlank) : cs = ds := by
  rw [← List.splitOnP_spec (p := isBlank) cs, hpieces, hblanks, List.splitOnP_spec]

/-- What holds of the empty text holds of all pieces of a text if it holds of its words. -/
theorem forall_mem_words_iff {p : List Char → Prop} (hempty : p []) (text : String) :
    (∀ word ∈ words text, p word) ↔ ∀ piece ∈ text.toList.splitOnP isBlank, p piece := by
  constructor
  · intro h piece hpiece
    cases piece with
    | nil => exact hempty
    | cons c cs => exact h (c :: cs) (List.mem_filter.mpr ⟨hpiece, rfl⟩)
  · exact fun h word hword => h word (List.mem_filter.mp hword).1

/-! ## 3. Trimming -/

theorem trimList_eq (cs : List Char) :
    trimList cs = (cs.dropWhile isBlank).rdropWhile isBlank := rfl

/-- Blanks around a text are trimmed if it holds none itself. -/
theorem trim_between {before text after : String} (hbefore : ∀ c ∈ before.toList, isBlank c = true)
    (hafter : ∀ c ∈ after.toList, isBlank c = true) (htext : BlankFree text.toList) :
    trim (before ++ text ++ after) = text := by
  have hreverse : BlankFree text.toList.reverse := fun c hc => htext c (List.mem_reverse.mp hc)
  have hend : ∀ c ∈ after.toList.reverse, isBlank c = true :=
    fun c hc => hafter c (List.mem_reverse.mp hc)
  rw [trim, trimList, String.toList_append, String.toList_append, List.append_assoc,
    List.dropWhile_append_of_pos hbefore]
  -- What is left begins with the text, unless there is none.
  have hfront : ((text.toList ++ after.toList).dropWhile isBlank).reverse.dropWhile isBlank =
      text.toList.reverse := by
    cases hcs : text.toList with
    | nil =>
      have hdrop : after.toList.dropWhile isBlank = [] := List.dropWhile_eq_nil_iff.mpr hafter
      rw [List.nil_append, hdrop]
      rfl
    | cons c cs =>
      have hc : isBlank c = false := htext c (hcs ▸ List.mem_cons_self)
      rw [List.cons_append, List.dropWhile_cons_of_neg (by simp [hc]), ← List.cons_append, ← hcs,
        List.reverse_append, List.dropWhile_append_of_pos hend, hreverse.dropWhile]
  rw [hfront, List.reverse_reverse, String.ofList_toList]

end Templating.Text
