import Templating.CommandLine.Run
import Templating.Proofs.Contract
import Templating.Proofs.Json.RoundTrip

/-!
# Printed diagnostics

A diagnostic that is printed as JSON is one line, whatever its texts hold, and is read back from it.
Where it has no notes, the member for them is not printed and comes back as none.

Results:
1. `oneLine_toJson`: a printed diagnostic holds no line break.
2. `readNotes_text`, `readMember_code` and its siblings: the parts of a diagnostic are read back.
   `parse_toJson`: so is the whole.
3. `run_fails`: a command that fails reports the diagnostic of its failure.
4. `diagnostics_read_back`: diagnostics are lines that are read back, those of failed commands too.
-/

namespace Templating

/-- There is no control character in a text, and so no line break. -/
def OneLine (cs : List Char) : Prop := ∀ c ∈ cs, 0x20 ≤ c.toNat

theorem OneLine.append {cs ds : List Char} (hcs : OneLine cs) (hds : OneLine ds) :
    OneLine (cs ++ ds) := by
  intro c hc
  rcases List.mem_append.mp hc with hc | hc
  · exact hcs c hc
  · exact hds c hc

theorem oneLine_singleton {c : Char} (hc : 0x20 ≤ c.toNat) : OneLine [c] :=
  List.forall_mem_singleton.mpr hc

theorem oneLine_cons {c : Char} {cs : List Char} (hc : 0x20 ≤ c.toNat) (hcs : OneLine cs) :
    OneLine (c :: cs) :=
  (oneLine_singleton hc).append hcs

theorem oneLine_flatMap {α : Type} {text : α → List Char} (h : ∀ x, OneLine (text x))
    (xs : List α) : OneLine (xs.flatMap text) := by
  intro c hc
  obtain ⟨x, -, hc⟩ := List.mem_flatMap.mp hc
  exact h x c hc

namespace Json

theorem oneLine_hexDigit : ∀ d < 16, 0x20 ≤ (hexDigit d).toNat := by decide

/-- Control characters are escaped. -/
theorem oneLine_escapeChar (c : Char) : OneLine (escapeChar c) := by
  have hletter : ∀ letter, 0x20 ≤ letter.toNat → OneLine ['\\', letter] :=
    fun letter h => oneLine_cons (by decide) (oneLine_singleton h)
  rw [escapeChar]
  split_ifs with hquote hbackslash hbackspace hfeed hline hreturn htab hcontrol
  · exact hletter '"' (by decide)
  · exact hletter '\\' (by decide)
  · exact hletter 'b' (by decide)
  · exact hletter 'f' (by decide)
  · exact hletter 'n' (by decide)
  · exact hletter 'r' (by decide)
  · exact hletter 't' (by decide)
  · exact (hletter 'u' (by decide)).append (oneLine_cons (by decide) (oneLine_cons (by decide)
      (oneLine_cons (oneLine_hexDigit _ (by omega))
        (oneLine_singleton (oneLine_hexDigit _ (by omega))))))
  · exact oneLine_singleton (Nat.le_of_not_lt hcontrol)

theorem oneLine_stringText (s : String) : OneLine (stringText s) :=
  (oneLine_cons (by decide) (oneLine_flatMap oneLine_escapeChar s.toList)).append
    (oneLine_singleton (by decide))

end Json

namespace Diagnostic

open Json (stringText)

/-! ## 1. One line -/

/-- A member whose value is a string. -/
def fieldText (name value : String) : List Char := stringText name ++ ':' :: stringText value

theorem oneLine_fieldText (name value : String) : OneLine (fieldText name value) :=
  (Json.oneLine_stringText name).append
    (oneLine_cons (by decide) (Json.oneLine_stringText value))

def noteText (note : String) : List Char := '\x7b' :: (fieldText "message" note ++ ['\x7d'])

theorem oneLine_noteText (note : String) : OneLine (noteText note) :=
  oneLine_cons (by decide) ((oneLine_fieldText "message" note).append
    (oneLine_singleton (by decide)))

/-- The notes after the first one, each with the comma before it. -/
def moreNotesText (notes : List String) : List Char :=
  notes.flatMap fun note => ',' :: noteText note

/-- The member of the notes with the comma before it, if there are any. -/
def notesText : List String → List Char
  | [] => []
  | note :: notes =>
    ',' :: (stringText "notes" ++ ':' :: '[' :: (noteText note ++ (moreNotesText notes ++ [']'])))

theorem oneLine_notesText (notes : List String) : OneLine (notesText notes) := by
  cases notes with
  | nil => exact nofun
  | cons note notes =>
    have hmore : OneLine (moreNotesText notes) :=
      oneLine_flatMap (fun note => oneLine_cons (by decide) (oneLine_noteText note)) notes
    exact oneLine_cons (by decide) ((Json.oneLine_stringText "notes").append
      (oneLine_cons (by decide) (oneLine_cons (by decide) ((oneLine_noteText note).append
        (hmore.append (oneLine_singleton (by decide)))))))

theorem text_noteJson (note : String) :
    (Json.object [("message", .string note)]).text = noteText note := by
  simp [Json.text, Json.membersText, noteText, fieldText]

/-- The text of a diagnostic by its parts. -/
theorem text_json (diagnostic : Diagnostic) :
    diagnostic.json.text = '\x7b' :: (fieldText "code" diagnostic.code ++
      ',' :: (fieldText "severity" diagnostic.severity.name ++
      ',' :: (fieldText "message" diagnostic.message ++
      (notesText diagnostic.notes ++ ['\x7d'])))) := by
  obtain ⟨code, severity, message, notes⟩ := diagnostic
  cases notes with
  | nil => simp [json, Json.text, Json.membersText, fieldText, notesText]
  | cons note notes =>
    have hitems : Json.itemsText (Json.object [("message", .string note)] ::
        notes.map fun note => Json.object [("message", .string note)]) =
          noteText note ++ moreNotesText notes := by
      rw [Json.Reader.itemsText_eq, List.map_cons, Json.Reader.partsText, text_noteJson, List.map_map,
        Json.Reader.moreText, List.flatMap_map]
      simp only [Function.comp_apply, text_noteJson]
      rfl
    rw [json, if_neg (List.cons_ne_nil note notes), List.map_cons]
    simp [Json.text, Json.membersText, fieldText, notesText, hitems]

/-- A printed diagnostic holds no line break. -/
theorem oneLine_toJson (diagnostic : Diagnostic) : OneLine diagnostic.toJson.toList := by
  rw [toJson, Json.print, String.toList_ofList, text_json]
  exact oneLine_cons (by decide) ((oneLine_fieldText _ _).append (oneLine_cons (by decide)
    ((oneLine_fieldText _ _).append (oneLine_cons (by decide) ((oneLine_fieldText _ _).append
      ((oneLine_notesText _).append (oneLine_singleton (by decide))))))))

/-! ## 2. Reading back -/

open Json.Reader

theorem readString_text (expected s : String) (rest : List Char) :
    readString expected (stringText s ++ rest) = .ok (s, rest) := by
  have hstring := string_text s rest
  simp only [stringText, List.cons_append, List.nil_append, List.append_assoc]
  exact hstring

theorem severityOfName_name (severity : Severity) :
    severityOfName severity.name = .ok severity := by
  cases severity <;> rfl

theorem readSeverity_text (severity : Severity) (rest : List Char) :
    readSeverity (stringText severity.name ++ rest) = .ok (severity, rest) := by
  have hstring := string_text severity.name rest
  have hquote : ∀ cs, skipBlank ('"' :: cs) = '"' :: cs := fun _ => rfl
  simp only [stringText, List.cons_append, List.nil_append, List.append_assoc, readSeverity,
    hquote, if_true, hstring, bind, Except.bind, severityOfName_name]

theorem colon_cons (cs : List Char) : colon (':' :: cs) = .ok cs := rfl

theorem fieldText_append (name value : String) (rest : List Char) :
    fieldText name value ++ rest = stringText name ++ ':' :: (stringText value ++ rest) := by
  simp [fieldText]

/-- The only member of a note is its message. -/
theorem readNote_text (note : String) (rest : List Char) :
    readNote (noteText note ++ rest) = .ok (note, rest) := by
  have htext : noteText note ++ rest = '\x7b' :: (fieldText "message" note ++ '\x7d' :: rest) := by
    simp [noteText]
  have hbrace : ∀ cs, readNote ('\x7b' :: cs) = noteMembers (cs.length + 1) true none cs :=
    fun _ => rfl
  obtain ⟨fuel, hfuel⟩ : ∃ fuel,
      (fieldText "message" note ++ '\x7d' :: rest).length + 1 = fuel + 2 :=
    ⟨(fieldText "message" note ++ rest).length, by
      simp only [List.length_append, List.length_cons]
      omega⟩
  rw [htext, hbrace, hfuel, fieldText_append, noteMembers, nextMember_first]
  simp only [bind, Except.bind, ↓reduceIte, colon_cons, readString_text]
  rfl

theorem listItems_more {notes : List String} {fuel : Nat} (rest : List Char)
    (hfuel : (moreNotesText notes ++ ']' :: rest).length < fuel) :
    listItems readNote fuel false (moreNotesText notes ++ ']' :: rest) = .ok (notes, rest) := by
  -- Each note takes at least its comma from the text, so the fuel lasts.
  induction notes generalizing fuel with
  | nil =>
    obtain ⟨fuel, rfl⟩ := Nat.exists_eq_add_one_of_ne_zero (Nat.ne_zero_of_lt hfuel)
    rfl
  | cons note notes ih =>
    obtain ⟨fuel, rfl⟩ := Nat.exists_eq_add_one_of_ne_zero (Nat.ne_zero_of_lt hfuel)
    have htext : moreNotesText (note :: notes) ++ ']' :: rest =
        ',' :: (noteText note ++ (moreNotesText notes ++ ']' :: rest)) := by
      simp [moreNotesText]
    have hnext : nextItem false (',' :: (noteText note ++ (moreNotesText notes ++ ']' :: rest))) =
        .ok (.item (noteText note ++ (moreNotesText notes ++ ']' :: rest))) := rfl
    rw [htext] at hfuel ⊢
    have hrest := @ih fuel (by
      simp only [List.length_cons, List.length_append] at hfuel ⊢
      omega)
    rw [listItems, hnext]
    simp only [bind, Except.bind, readNote_text, hrest]

theorem readNotes_text (note : String) (notes : List String) (rest : List Char) :
    readNotes ('[' :: (noteText note ++ (moreNotesText notes ++ ']' :: rest))) =
      .ok (note :: notes, rest) := by
  have hbracket : ∀ cs, readNotes ('[' :: cs) = listItems readNote (cs.length + 1) true cs :=
    fun _ => rfl
  have hnext : nextItem true (noteText note ++ (moreNotesText notes ++ ']' :: rest)) =
      .ok (.item (noteText note ++ (moreNotesText notes ++ ']' :: rest))) := rfl
  have hfuel : (moreNotesText notes ++ ']' :: rest).length <
      (noteText note ++ (moreNotesText notes ++ ']' :: rest)).length := by
    simp only [noteText, List.length_cons, List.length_append]
    omega
  rw [hbracket, listItems, hnext]
  simp only [bind, Except.bind, readNote_text, listItems_more rest hfuel]

variable {draft : Draft}

theorem readMember_code (h : draft.code = none) (code : String) (rest : List Char) :
    readMember draft "code" (':' :: (stringText code ++ rest)) =
      .ok ({ draft with code := some code }, rest) := by
  simp [readMember, h, once, colon_cons, readString_text, bind, Except.bind]

theorem readMember_severity (h : draft.severity = none) (severity : Severity) (rest : List Char) :
    readMember draft "severity" (':' :: (stringText severity.name ++ rest)) =
      .ok ({ draft with severity := some severity }, rest) := by
  simp [readMember, h, once, colon_cons, readSeverity_text, bind, Except.bind]

theorem readMember_message (h : draft.message = none) (message : String) (rest : List Char) :
    readMember draft "message" (':' :: (stringText message ++ rest)) =
      .ok ({ draft with message := some message }, rest) := by
  simp [readMember, h, once, colon_cons, readString_text, bind, Except.bind]

theorem readMember_notes (h : draft.notes = none) (note : String) (notes : List String)
    (rest : List Char) :
    readMember draft "notes"
        (':' :: '[' :: (noteText note ++ (moreNotesText notes ++ ']' :: rest))) =
      .ok ({ draft with notes := some (note :: notes) }, rest) := by
  simp [readMember, h, once, colon_cons, readNotes_text, bind, Except.bind]

/-- One member is read, then those after it. -/
theorem readMembers_step {fuel : Nat} {first : Bool} {next : Draft} {name : String}
    {cs tail rest : List Char} (hnext : nextMember first cs = .ok (.member name tail))
    (hmember : readMember draft name tail = .ok (next, rest)) :
    readMembers (fuel + 1) first draft cs = readMembers fuel false next rest := by
  rw [readMembers, hnext]
  simp only [bind, Except.bind, hmember]

/-- The end of the object comes after the notes, or where they would stand. -/
theorem readMembers_notes (fuel : Nat) (code : String) (severity : Severity) (message : String)
    (notes : List String) (rest : List Char) :
    readMembers (fuel + 2) false ⟨some code, some severity, some message, none⟩
        (notesText notes ++ '\x7d' :: rest) =
      .ok (⟨code, severity, message, notes⟩, rest) := by
  cases notes with
  | nil => rfl
  | cons note notes =>
    have htext : notesText (note :: notes) ++ '\x7d' :: rest = ',' :: (stringText "notes" ++
        ':' :: '[' :: (noteText note ++ (moreNotesText notes ++ ']' :: '\x7d' :: rest))) := by
      simp [notesText]
    rw [htext, readMembers_step (nextMember_comma _ _) (readMember_notes rfl note notes _)]
    rfl

/-- A printed diagnostic is read back. -/
theorem parse_toJson (diagnostic : Diagnostic) : parse diagnostic.toJson = .ok diagnostic := by
  obtain ⟨code, severity, message, notes⟩ := diagnostic
  have hbrace : ∀ cs, read ('\x7b' :: cs) = readMembers (cs.length + 1) true Draft.empty cs :=
    fun _ => rfl
  have hread : read (json ⟨code, severity, message, notes⟩).text =
      .ok (⟨code, severity, message, notes⟩, []) := by
    rw [text_json, hbrace]
    simp only [fieldText_append]
    obtain ⟨fuel, hfuel⟩ : ∃ fuel, (stringText "code" ++ ':' :: (stringText code ++
        ',' :: (stringText "severity" ++ ':' :: (stringText severity.name ++
        ',' :: (stringText "message" ++ ':' :: (stringText message ++
        (notesText notes ++ ['\x7d']))))))).length + 1 = fuel + 5 := by
      refine ⟨_, (Nat.sub_add_cancel ?_).symm⟩
      simp only [List.length_append, List.length_cons]
      omega
    rw [hfuel, readMembers_step (nextMember_first _ _) (readMember_code rfl code _),
      readMembers_step (nextMember_comma _ _) (readMember_severity rfl severity _),
      readMembers_step (nextMember_comma _ _) (readMember_message rfl message _)]
    exact readMembers_notes fuel code severity message notes []
  rw [parse, toJson, Json.print, String.toList_ofList, hread]
  rfl

end Diagnostic

/-! ## 3. Failed commands -/

namespace CommandLine

variable {σ : Type} {files : FileSystem (StateM σ)}

/-- A rendering or a check fails, and leaves a state behind. -/
inductive Arguments.Fails (files : FileSystem (StateM σ)) (state : σ) :
    Arguments → LoadError → σ → Prop
  | render {ast : String} {data config output : Option String} {json quiet : Bool}
      {error : LoadError} {after : σ} :
      (renderFile files ast data config output).run.run state = (.error error, after) →
      Fails files state ⟨.render ast data config output, json, quiet⟩ error after
  | check {ast : String} {json quiet : Bool} {error : LoadError} {after : σ} :
      (loadAst files ast).run.run state = (.error error, after) →
      Fails files state ⟨.check ast, json, quiet⟩ error after

/-- A command that fails reports its failure. -/
theorem run_fails {arguments : Arguments} {state after : σ} {error : LoadError}
    (h : arguments.Fails files state error after) :
    (arguments.run files).run state = (failed arguments.json arguments.quiet error, after) := by
  cases h with
  | render hrun =>
    rw [Arguments.run, StateT.run_bind, hrun]
    rfl
  | check hrun =>
    rw [Arguments.run, StateT.run_bind, hrun]
    rfl

/-! ## 4. Diagnostics as lines -/

/-- A diagnostic is printed as one line and read back from it, whatever its code, its severity, its
message and its notes. So a command that fails and reports this as JSON writes one line, from which
the diagnostic of its failure is read back. -/
theorem diagnostics_read_back :
    (∀ diagnostic : Diagnostic, OneLine diagnostic.toJson.toList ∧
      Diagnostic.parse diagnostic.toJson = .ok diagnostic) ∧
    ∀ {σ : Type} {files : FileSystem (StateM σ)} {state after : σ} {command : Command}
      {error : LoadError}, (⟨command, true, false⟩ : Arguments).Fails files state error after →
      ∃ line, ((⟨command, true, false⟩ : Arguments).run files).run state =
          (⟨1, "", line ++ "\n"⟩, after) ∧
        OneLine line.toList ∧ Diagnostic.parse line = .ok (Diagnostic.ofLoadError error) := by
  have hprinted : ∀ diagnostic : Diagnostic, OneLine diagnostic.toJson.toList ∧
      Diagnostic.parse diagnostic.toJson = .ok diagnostic :=
    fun diagnostic => ⟨diagnostic.oneLine_toJson, diagnostic.parse_toJson⟩
  exact ⟨hprinted, fun hfails =>
    ⟨(Diagnostic.ofLoadError _).toJson, run_fails hfails, hprinted _⟩⟩

/-- A template that is not there, under a path with a quote, a backslash and a line break. -/
theorem diagnostics_read_back_missing_file :
    let files : FileSystem (StateM Unit) :=
      ⟨fun _ => pure (.error .notFound), fun _ _ => pure (.error .notFound),
        fun _ => pure false, pure none, fun _ => pure (.ok ())⟩
    (⟨.check "a\"\\\n", true, false⟩ : Arguments).Fails files ()
        (.file "a\"\\\n" .notFound) () ∧
      ∃ line, ((⟨.check "a\"\\\n", true, false⟩ : Arguments).run files).run () =
          (⟨1, "", line ++ "\n"⟩, ()) ∧ OneLine line.toList ∧
        Diagnostic.parse line = .ok ⟨"E6001", .error,
          "failed to read a\"\\\n: No such file or directory (os error 2)", []⟩ := by
  intro files
  have hfails : (⟨.check "a\"\\\n", true, false⟩ : Arguments).Fails files ()
      (.file "a\"\\\n" .notFound) () := .check rfl
  exact ⟨hfails, diagnostics_read_back.2 hfails⟩

end CommandLine

end Templating
