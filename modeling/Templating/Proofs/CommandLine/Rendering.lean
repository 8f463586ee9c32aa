import Templating.Proofs.CommandLine.Inputs
import Templating.Proofs.Loading.DataOnly

/-!
# Rendering files

A rendering reads its inputs one after the other and writes its text at the end.

* `Renders` says what the result is, by a rule for each stage that can fail and one for the text.
* `Finishes` says what a result leaves behind, and `Reports` what is said of a failure.

Results:
1. `exists_overlay`, `Overlay.eq`: data over defaults make up exactly one global scope.
2. `renders_iff`, `run_renderFile`: a rendering has exactly one result, and only a text is written.
   `reports_failed`: a failure is reported.
3. `render_all_or_nothing`: what a rendering leaves behind, be it a text or a failure.
-/

namespace Templating

/-! ## Definitions -/

/-- A global scope of data over defaults: it binds each name of the data to its value and each
further name of the defaults to its value. -/
structure Chain.Overlay (defaults data : Data) (globals : Chain) : Prop where
  single : globals.outer = []
  sorted : Fields.Sorted globals.current
  bound : ∀ name, globals.current.find? name =
    ((Fields.find? data name).or (Fields.find? defaults name)).map Value.ofJson

/-- The results of a rendering. Its inputs are looked at in a fixed order, and the first failure is
the result; if there is none, then the program is evaluated in the global scope of the data over the
globals of the configuration. -/
inductive Renders (view : View) (ast : String) (data config : Option String) :
    Except LoadError String → Prop
  | config {error : LoadError} : view.Settings ast config (.error error) →
      Renders view ast data config (.error error)
  | program {settings : Config} {error : LoadError} : view.Settings ast config (.ok settings) →
      view.program ast = .error error → Renders view ast data config (.error error)
  | data {settings : Config} {program : Node} {error : LoadError} :
      view.Settings ast config (.ok settings) → view.program ast = .ok program →
      view.Members data (.error error) → Renders view ast data config (.error error)
  | evaluation {settings : Config} {program : Node} {members : Data} {globals : Chain}
      {error : RuntimeError} :
      view.Settings ast config (.ok settings) → view.program ast = .ok program →
      view.Members data (.ok members) → globals.Overlay settings.globalsJson members →
      ((program.render Natives.none).start globals).1 = .error error →
      Renders view ast data config (.error (.runtime error))
  | text {settings : Config} {program : Node} {members : Data} {globals : Chain} {text : String} :
      view.Settings ast config (.ok settings) → view.program ast = .ok program →
      view.Members data (.ok members) → globals.Overlay settings.globalsJson members →
      ((program.render Natives.none).start globals).1 = .ok text →
      Renders view ast data config (.ok (if settings.trailingNewline then text ++ "\n" else text))

namespace CommandLine

/-- What is written to standard error for a failure, as JSON or as text and quietly or not.

* `quiet`: nothing.
* `text`, `advice`: a line with the code and the message, and one more for an advice.
* `json`, `jsonAdvice`: a line of JSON with the same content. -/
inductive Reports (error : LoadError) : Bool → Bool → String → Prop
  | quiet {json : Bool} : Reports error json true ""
  | text : error.help? = none →
      Reports error false false ("error[" ++ error.code ++ "]: " ++ error.message ++ "\n")
  | advice {help : String} : error.help? = some help →
      Reports error false false
        ("error[" ++ error.code ++ "]: " ++ error.message ++ "\n" ++
          ("   = note: " ++ help ++ "\n"))
  | json : error.help? = none →
      Reports error true false
        ((Json.object [("code", .string error.code), ("severity", .string "error"),
          ("message", .string error.message)]).print ++ "\n")
  | jsonAdvice {help : String} : error.help? = some help →
      Reports error true false
        ((Json.object [("code", .string error.code), ("severity", .string "error"),
          ("message", .string error.message),
          ("notes", .array [.object [("message", .string help)]])]).print ++ "\n")

/-- What a rendering with a given result comes to, by the path for its text.

* `fails`: a failure is reported. Nothing has been written.
* `prints`: without a path, the text has been written to standard output, and nothing else.
* `unprinted`: it could not be written there, which is reported. Nothing has been written.
* `writes`: the text has been written to the path, and nothing to standard output.
* `refused`: it could not be written there, which is reported. Nothing has been written. -/
inductive Finishes {σ : Type} (files : FileSystem (StateM σ)) (json quiet : Bool) (state : σ) :
    Option String → Except LoadError String → Outcome × σ → Prop
  | fails {output : Option String} {error : LoadError} {errors : String} :
      Reports error json quiet errors →
      Finishes files json quiet state output (.error error) (⟨1, "", errors⟩, state)
  | prints {text : String} {after : σ} :
      (files.print text).run state = (.ok (), after) →
      Finishes files json quiet state none (.ok text) (⟨0, "", ""⟩, after)
  | unprinted {text errors : String} {error : FileError} :
      (files.print text).run state = (.error error, state) →
      Reports (.file "<stdout>" error) json quiet errors →
      Finishes files json quiet state none (.ok text) (⟨1, "", errors⟩, state)
  | writes {path text : String} {after : σ} :
      (files.write path text).run state = (.ok (), after) →
      Finishes files json quiet state (some path) (.ok text) (⟨0, "", ""⟩, after)
  | refused {path text errors : String} {error : FileError} :
      (files.write path text).run state = (.error error, state) →
      Reports (.file path error) json quiet errors →
      Finishes files json quiet state (some path) (.ok text) (⟨1, "", errors⟩, state)

end CommandLine

/-! ## 1. Global scopes -/

theorem View.loaded_config {view : View} {ast : String} {given : Option String} {settings : Config}
    (h : view.Settings ast given (.ok settings)) : Data.Loaded settings.globalsJson := by
  generalize hresult : Except.ok settings = result at h
  cases h with
  | read =>
    obtain ⟨text, -, hparse⟩ := bind_eq_ok.mp hresult.symm
    exact .globals hparse
  | empty =>
    cases hresult
    exact .none

theorem View.loaded_data {view : View} {path : Option String} {members : Data}
    (h : view.Members path (.ok members)) : Data.Loaded members := by
  generalize hresult : Except.ok members = result at h
  cases h with
  | none =>
    cases hresult
    exact .none
  | toml =>
    obtain ⟨text, -, hparse⟩ := bind_eq_ok.mp hresult.symm
    exact .text hparse
  | json =>
    obtain ⟨text, -, hparse⟩ := bind_eq_ok.mp hresult.symm
    exact .text hparse

namespace Chain.Overlay

variable {defaults data : Data} {globals other : Chain}

/-- There is only one such scope. -/
theorem eq (h : globals.Overlay defaults data) (hother : other.Overlay defaults data) :
    other = globals := by
  have hcurrent : other.current = globals.current :=
    hother.sorted.eq_of_find? h.sorted fun name => (hother.bound name).trans (h.bound name).symm
  cases globals
  cases other
  exact congr (congrArg Chain.mk hcurrent) (hother.single.trans h.single.symm)

end Chain.Overlay

/-- The global scope in which a program is rendered is that of the data over the defaults. -/
theorem exists_overlay {defaults data : Data} (hdefaults : Data.Loaded defaults)
    (hdata : Data.Loaded data) :
    ∃ globals, (Renderer.empty.insertAll (mergeData defaults data)).globals = .ok globals ∧
      globals.Overlay defaults data := by
  obtain ⟨globals, hglobals, hdepth, hbinding⟩ :=
    (Renderer.empty.insertAll (mergeData defaults data)).globals_of_nodup
      (Renderer.names_insertAll _ ▸ (hdefaults.merge hdata).sorted.nodup)
  refine ⟨globals, hglobals, ?_, Chain.sorted_declareAll hglobals Fields.sorted_nil, fun name => ?_⟩
  · exact List.length_eq_zero_iff.mp (Nat.succ.inj hdepth)
  · have hcurrent : globals.current.find? name = _ := hbinding 0 name
    rw [hcurrent, if_pos rfl, Renderer.find?_insertAll, mergeData,
      Fields.find?_insertAll hdata.sorted.nodup]

theorem renderConfigured_overlay {settings : Config} {members : Data} {globals : Chain}
    (hsettings : Data.Loaded settings.globalsJson) (hmembers : Data.Loaded members)
    (h : globals.Overlay settings.globalsJson members) (program : Node) :
    renderConfigured settings members program =
      match ((program.render Natives.none).start globals).1 with
      | .ok text => .ok (if settings.trailingNewline then text ++ "\n" else text)
      | .error error => .error (.runtime error) := by
  obtain ⟨other, hother, hoverlay⟩ := exists_overlay hsettings hmembers
  obtain rfl := h.eq hoverlay
  have hrender : renderData program (mergeData settings.globalsJson members) =
      orRuntimeError ((program.render Natives.none).start other).1 := by
    rw [renderData, Renderer.render, hother]
    rfl
  rw [renderConfigured, Option.getD_some, hrender]
  cases ((program.render Natives.none).start other).1 with
  | ok text => rfl
  | error error => rfl

/-! ## 2. Results -/

/-- The inputs in the order in which they are looked at. -/
def View.result (view : View) (ast : String) (data config : Option String) :
    Except LoadError String := do
  let settings ← view.config ast config
  let program ← view.program ast
  let members ← view.data data
  renderConfigured settings members program

theorem renders_iff {view : View} {ast : String} {data config : Option String}
    {result : Except LoadError String} :
    Renders view ast data config result ↔ view.result ast data config = result := by
  rw [View.result]
  constructor
  · intro h
    cases h with
    | config hconfig =>
      rw [View.settings_iff.mp hconfig]
      rfl
    | program hconfig hprogram =>
      rw [View.settings_iff.mp hconfig, hprogram]
      rfl
    | data hconfig hprogram hdata =>
      rw [View.settings_iff.mp hconfig, hprogram, View.members_iff.mp hdata]
      rfl
    | evaluation hconfig hprogram hdata hoverlay hfails =>
      rw [View.settings_iff.mp hconfig, hprogram, View.members_iff.mp hdata]
      refine (renderConfigured_overlay (View.loaded_config hconfig) (View.loaded_data hdata)
        hoverlay _).trans ?_
      rw [hfails]
    | text hconfig hprogram hdata hoverlay htext =>
      rw [View.settings_iff.mp hconfig, hprogram, View.members_iff.mp hdata]
      refine (renderConfigured_overlay (View.loaded_config hconfig) (View.loaded_data hdata)
        hoverlay _).trans ?_
      rw [htext]
  · rintro rfl
    cases hconfig : view.config ast config with
    | error error => exact .config (View.settings_iff.mpr hconfig)
    | ok settings =>
      have hsettings := View.settings_iff.mpr hconfig
      cases hprogram : view.program ast with
      | error error => exact .program hsettings hprogram
      | ok program =>
        cases hdata : view.data data with
        | error error => exact .data hsettings hprogram (View.members_iff.mpr hdata)
        | ok members =>
          have hmembers := View.members_iff.mpr hdata
          have hglobals := View.loaded_config hsettings
          obtain ⟨globals, -, hoverlay⟩ := exists_overlay hglobals (View.loaded_data hmembers)
          have hrender :=
            renderConfigured_overlay hglobals (View.loaded_data hmembers) hoverlay program
          show Renders view ast data config (renderConfigured settings members program)
          rw [hrender]
          cases hrun : ((program.render Natives.none).start globals).1 with
          | error error => exact .evaluation hsettings hprogram hmembers hoverlay hrun
          | ok text => exact .text hsettings hprogram hmembers hoverlay hrun

namespace CommandLine

section

variable {σ : Type} {files : FileSystem (StateM σ)}

theorem ofLoadError_eq (error : LoadError) :
    Diagnostic.ofLoadError error =
      ⟨error.code, .error, error.message, error.help?.toList⟩ := by
  cases error with
  | _ => rfl

/-- A failed command reports its failure. -/
theorem reports_failed (json quiet : Bool) (error : LoadError) :
    Reports error json quiet (failed json quiet error).errors := by
  cases quiet with
  | true => exact .quiet
  | false =>
    have hfailed : (failed json false error).errors =
        diagnosticText json ⟨error.code, .error, error.message, error.help?.toList⟩ := by
      rw [← ofLoadError_eq]
      rfl
    rw [hfailed]
    cases json with
    | true =>
      cases hhelp : error.help? with
      | none => exact .json hhelp
      | some help => exact .jsonAdvice hhelp
    | false =>
      cases hhelp : error.help? with
      | none =>
        have htext : diagnosticText false ⟨error.code, .error, error.message, []⟩ =
            "error[" ++ error.code ++ "]: " ++ error.message ++ "\n" := by
          simp [diagnosticText, Diagnostic.toText, Severity.name]
        rw [Option.toList_none, htext]
        exact .text hhelp
      | some help =>
        have htext : diagnosticText false ⟨error.code, .error, error.message, [help]⟩ =
            "error[" ++ error.code ++ "]: " ++ error.message ++ "\n" ++
              ("   = note: " ++ help ++ "\n") := by
          simp [diagnosticText, Diagnostic.toText, Severity.name, String.append_assoc]
        rw [Option.toList_some, htext]
        exact .advice hhelp

/-- What becomes of a result, by the path for its text. -/
def deliver (files : FileSystem (StateM σ)) (output : Option String) (state : σ) :
    Except LoadError String → Except LoadError Unit × σ
  | .ok text => (writeText files output text).run.run state
  | .error error => (.error error, state)

theorem run_deliver (files : FileSystem (StateM σ)) (output : Option String) (state : σ)
    (result : Except LoadError String) :
    (ExceptT.mk (pure result) >>= writeText files output).run.run state =
      deliver files output state result := by
  cases result with
  | ok text => rfl
  | error error => rfl

theorem run_writeText_path (files : FileSystem (StateM σ)) (path text : String) (state : σ) :
    (writeText files (some path) text).run.run state =
      match (files.write path text).run state with
      | (.ok (), after) => (.ok (), after)
      | (.error error, after) => (.error (.file path error), after) := by
  rw [writeText, run_bind, run_liftM]
  obtain ⟨written, after⟩ := (files.write path text).run state
  cases written with
  | ok => rfl
  | error error => rfl

theorem run_writeText_none (files : FileSystem (StateM σ)) (text : String) (state : σ) :
    (writeText files none text).run.run state =
      match (files.print text).run state with
      | (.ok (), after) => (.ok (), after)
      | (.error error, after) => (.error (.file "<stdout>" error), after) := by
  rw [writeText, run_bind, run_liftM]
  obtain ⟨written, after⟩ := (files.print text).run state
  cases written with
  | ok => rfl
  | error error => rfl

theorem run_renderFile (h : files.Steady) (ast : String) (data config output : Option String)
    (state : σ) :
    (renderFile files ast data config output).run.run state =
      deliver files output state ((files.view state).result ast data config) := by
  rw [renderFile, run_bind, run_configFor h, View.result]
  cases (files.view state).config ast config with
  | error error => rfl
  | ok settings =>
    simp only
    rw [run_bind, run_loadAst h]
    cases (files.view state).program ast with
    | error error => rfl
    | ok program =>
      cases data with
      | none => exact run_deliver files output state (renderConfigured settings none program)
      | some path =>
        have hdata : (some <$> loadData files path).run.run state =
            (((files.view state).data (some path)).map some, state) := by
          rw [map_eq_pure_bind, run_bind, run_loadData h]
          cases (files.view state).data (some path) with
          | error error => rfl
          | ok members => rfl
        simp only
        rw [run_bind, hdata]
        cases (files.view state).data (some path) with
        | error error => rfl
        | ok members =>
          exact run_deliver files output state (renderConfigured settings (some members) program)

theorem run_render (h : files.Steady) (json quiet : Bool) (ast : String)
    (data config output : Option String) (state : σ) :
    Finishes files json quiet state output ((files.view state).result ast data config)
      (((⟨.render ast data config output, json, quiet⟩ : Arguments).run files).run state) := by
  rw [Arguments.run, StateT.run_bind, run_renderFile h]
  cases (files.view state).result ast data config with
  | error error => exact .fails (reports_failed json quiet error)
  | ok text =>
    rw [deliver]
    cases output with
    | none =>
      rw [run_writeText_none]
      cases hprint : (files.print text).run state with
      | mk printed after =>
        cases printed with
        | ok => exact .prints hprint
        | error error =>
          obtain rfl := h.print text state error after hprint
          exact .unprinted hprint (reports_failed json quiet _)
    | some path =>
      rw [run_writeText_path]
      cases hwrite : (files.write path text).run state with
      | mk written after =>
        cases written with
        | ok => exact .writes hwrite
        | error error =>
          obtain rfl := h.write path text state error after hwrite
          exact .refused hwrite (reports_failed json quiet _)

end

/-! ## 3. Renderings -/

/-- A rendering is all or nothing, on any file system that is steady. It has exactly one result. A
failure leaves everything as it is. A text goes to the path for it, or else to standard output; if
it cannot be written, then everything is as it was. On a directory, what can be seen of the files is
what is in them, and a text that is written changes what the path leads to and nothing else. A text
that is printed goes to the device of standard output. -/
theorem render_all_or_nothing (json quiet : Bool) (ast : String)
    (data config output : Option String) :
    (∀ {σ : Type} {files : FileSystem (StateM σ)}, files.Steady → ∀ state, ∃ result,
      (∀ other, Renders (files.view state) ast data config other ↔ other = result) ∧
        Finishes files json quiet state output result
          (((⟨.render ast data config output, json, quiet⟩ : Arguments).run files).run state)) ∧
    Directory.fileSystem.Steady ∧
    (∀ directory : Directory, directory.Shows (Directory.fileSystem.view directory)) ∧
    (∀ before after path text,
      (Directory.fileSystem.write path text).run before = (.ok (), after) →
      before.Receives path text after) ∧
    ∀ before after text, (Directory.fileSystem.print text).run before = (.ok (), after) ↔
      before.Takes text before.console after :=
  ⟨fun hsteady state => ⟨_, fun _ => renders_iff.trans eq_comm,
      run_render hsteady json quiet ast data config output state⟩,
    Directory.fileSystem_steady, Directory.fileSystem_shows,
    fun _ _ _ _ => Directory.receives_of_run, fun _ _ _ => Directory.run_print_iff⟩

/-- The configuration is found beside the template. It asks for a newline, and the data hide one of
its globals. The text makes a new file. -/
theorem render_all_or_nothing_new_file :
    let program := Node.program [.identifier "a", .identifier "b"]
    let settings := "[globals]\na=\"1\"\nb=\"2\"\n[output]\ntrailing_newline=true"
    let members := "\x7b\"a\":\"x\"\x7d"
    let directory : Directory :=
      { path := "/w", entries := [(["p"], .file program.print.toUTF8),
          (["stencil.toml"], .file settings.toUTF8), (["d"], .file members.toUTF8)] }
    let arguments : Arguments := ⟨.render "p" (some "d") none (some "o"), false, false⟩
    Directory.fileSystem.Steady ∧ ∃ after,
      (arguments.run Directory.fileSystem).run directory = (⟨0, "", ""⟩, after) ∧
        directory.Receives "o" "x2\n" after := by
  have hsettings : parseConfig "[globals]\na=\"1\"\nb=\"2\"\n[output]\ntrailing_newline=true"
      "stencil.toml" = .ok ⟨[("a", .string "1"), ("b", .string "2")], true⟩ := by cbv
  have hmembers : parseData "\x7b\"a\":\"x\"\x7d" (Path.hasExtension "d" "toml") "d" =
      .ok [("a", .string "x")] := by cbv
  have hprogram : parseAst (Node.program [.identifier "a", .identifier "b"]).print "p" =
      .ok (.program [.identifier "a", .identifier "b"]) := by cbv
  intro program settings members directory arguments
  change parseConfig settings _ = _ at hsettings
  change parseData members _ "d" = _ at hmembers
  change parseAst program.print "p" = .ok program at hprogram
  clear_value settings members
  have hnamed : ∀ name ∈ ["p", "stencil.toml", "d", "o"], directory.Named name := by
    intro name hname
    simp only [List.mem_cons, List.not_mem_nil, or_false] at hname
    rcases hname with rfl | rfl | rfl | rfl <;>
      exact ⟨⟨by simp [Path.Trivial], by decide⟩, by decide, by cbv, by decide,
        by change _ ≠ "/w"; decide, rfl⟩
  have hrenders : Renders (Directory.fileSystem.view directory) "p" (some "d") none
      (.ok "x2\n") := by
    let globals : Chain := ⟨[("a", .string "x"), ("b", .string "2")], []⟩
    have hfile : (Directory.fileSystem.view directory).HasConfig "" "stencil.toml" :=
      ⟨.here, ((Directory.fileSystem_shows directory).isFile "stencil.toml").mpr
        ⟨_, _, (hnamed "stencil.toml" (by simp)).locate, rfl⟩⟩
    have hpath : (Directory.fileSystem.view directory).ConfigPath "p" none (some "stencil.toml") :=
      .beside (.plain (by decide) (by decide)) hfile
    have hread : ((Directory.fileSystem.view directory).text "stencil.toml" >>=
        (parseConfig · "stencil.toml")) = .ok ⟨[("a", .string "1"), ("b", .string "2")], true⟩ :=
      bind_eq_ok.mpr ⟨settings, (hnamed "stencil.toml" (by simp)).text rfl, hsettings⟩
    have hconfig : (Directory.fileSystem.view directory).Settings "p" none
        (.ok ⟨[("a", .string "1"), ("b", .string "2")], true⟩) :=
      hread ▸ .read hpath
    have hast : (Directory.fileSystem.view directory).program "p" = .ok program :=
      bind_eq_ok.mpr ⟨program.print, (hnamed "p" (by simp)).text rfl, hprogram⟩
    have hdata : (Directory.fileSystem.view directory).Members (some "d")
        (.ok [("a", .string "x")]) :=
      View.members_iff.mpr (bind_eq_ok.mpr ⟨members, (hnamed "d" (by simp)).text rfl, hmembers⟩)
    have hoverlay : globals.Overlay [("a", .string "1"), ("b", .string "2")]
        [("a", .string "x")] := by
      refine ⟨rfl, by decide, fun name => ?_⟩
      simp only [globals, Scope.find?, Fields.find?_cons]
      split
      · rfl
      · split <;> rfl
    exact .text hconfig hast hdata hoverlay rfl
  obtain ⟨hcomplete, hsteady, -, hreceives, -⟩ :=
    render_all_or_nothing false false "p" (some "d") none (some "o")
  obtain ⟨result, hresult, hfinishes⟩ := hcomplete hsteady directory
  obtain rfl := (hresult _).mp hrenders
  refine ⟨hsteady, ?_⟩
  generalize (arguments.run Directory.fileSystem).run directory = run at hfinishes ⊢
  cases hfinishes with
  | writes hwrite => exact ⟨_, rfl, hreceives _ _ _ _ hwrite⟩
  | refused hwrite _ =>
    have hnew : directory.entry? ["o"] ≠ some .directory := fun hentry => by cases hentry
    have hput := (hnamed "o" (by simp)).write hnew "x2\n"
    have hwritten : (Directory.fileSystem.write "o" "x2\n").run directory = (.ok (), _) :=
      Directory.run_keep_eq_ok.mpr hput
    rw [hwritten] at hwrite
    cases hwrite

end CommandLine

end Templating
