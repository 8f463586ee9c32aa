import Templating.CommandLine.Run
import Templating.Proofs.Evaluation.Course
import Templating.Proofs.Json.RoundTrip
import Templating.Proofs.Renderer.Globals

/-!
# Rendering with data only

Data that come from files hold no functions. So the only functions that a template can meet are
methods that it takes from strings itself, and what only native functions and repeated bindings
bring about cannot happen.

Results:
1. `Data.Loaded.sorted`: loaded data are sorted by name, so no two members share one.
2. `globals_of_loaded`: loaded data make up a global scope of data.
3. `renderData_error`, `renderFile_meets`: no rendering of such data fails on the side of the host,
   be it of given texts or of files.
4. `loaded_rendering_has_no_host_failure`: this together with the reason, which is that all values
   on the way are plain.
-/

namespace Templating

/-! ## Definitions -/

/-- The errors that only come from native functions, from the embedding program or from methods of
other values than strings. -/
def RuntimeError.IsHostSide : RuntimeError → Prop
  | .duplicateDeclaration _ => True
  | .conversion _ => True
  | .hostCall _ _ => True
  | .typeMismatch (.receiver _) _ => True
  | _ => False

def LoadError.IsHostSide : LoadError → Prop
  | .runtime error => error.IsHostSide
  | _ => False

/-- Data that a rendering may start from: those of a text and the globals of a configuration, and
such data laid over each other. -/
inductive Data.Loaded : Data → Prop
  | text {text origin : String} {isToml : Bool} {data : Data} :
      parseData text isToml origin = .ok data → Loaded data
  | none : Loaded []
  | globals {text origin : String} {config : Config} :
      parseConfig text origin = .ok config → Loaded config.globalsJson
  | merge {base top : Data} : Loaded base → Loaded top → Loaded (mergeData base top)

/-! ## 1. Names -/

theorem Toml.names_fieldsJson (fields : List (String × Toml)) :
    (Toml.fieldsJson fields).map Prod.fst = fields.map Prod.fst := by
  induction fields with
  | nil => rfl
  | cons field rest ih =>
    obtain ⟨name, value⟩ := field
    rw [Toml.fieldsJson, List.map_cons, List.map_cons, ih]

theorem Toml.sorted_fieldsJson {fields : List (String × Toml)} (h : Fields.Sorted fields) :
    Fields.Sorted (Toml.fieldsJson fields) := by
  rw [Fields.Sorted, Toml.names_fieldsJson]
  exact h

theorem sorted_parseJsonData {text : String} {data : Data} (h : parseJsonData text = .ok data) :
    Fields.Sorted data := by
  unfold parseJsonData at h
  split at h
  next => cases h
  next json hjson =>
    split at h
    next members hmembers =>
      cases h
      cases json with
      | object entries =>
        rw [Json.canonical] at hmembers
        cases hmembers
        exact Fields.sorted_ofList _
      | _ => cases hmembers
    next => cases h

theorem sorted_parseTomlData {text : String} {data : Data} (h : parseTomlData text = .ok data) :
    Fields.Sorted data := by
  unfold parseTomlData at h
  split at h
  next => cases h
  next fields hfields =>
    cases h
    refine Toml.sorted_fieldsJson ?_
    rw [Toml.parse] at hfields
    obtain ⟨entries, -, hentries⟩ := bind_eq_ok.mp hfields
    obtain ⟨values, -, hvalues⟩ := bind_eq_ok.mp hentries
    cases hvalues
    exact Fields.sorted_ofList _

theorem sorted_parseData {text origin : String} {isToml : Bool} {data : Data}
    (h : parseData text isToml origin = .ok data) : Fields.Sorted data := by
  unfold parseData at h
  split at h
  next found hfound =>
    cases h
    cases isToml with
    | true => exact sorted_parseTomlData hfound
    | false => exact sorted_parseJsonData hfound
  next => cases h

theorem sorted_globalsOf {item : Option Toml.Item} {globals : List (String × Toml)}
    (h : Config.globalsOf item = .ok globals) : Fields.Sorted globals := by
  unfold Config.globalsOf at h
  split at h
  next =>
    cases h
    exact Fields.sorted_nil
  next =>
    obtain ⟨values, -, hvalues⟩ := bind_eq_ok.mp h
    cases hvalues
    exact Fields.sorted_ofList _
  next =>
    cases h
    exact List.pairwise_singleton _ _
  next => cases h

theorem sorted_globals {text origin : String} {config : Config}
    (h : parseConfig text origin = .ok config) : Fields.Sorted config.globals := by
  unfold parseConfig at h
  split at h
  next found hfound =>
    cases h
    rw [Config.parse] at hfound
    obtain ⟨entries, -, hentries⟩ := bind_eq_ok.mp hfound
    obtain ⟨globals, hglobals, hrest⟩ := bind_eq_ok.mp hentries
    obtain ⟨newline, -, hconfig⟩ := bind_eq_ok.mp hrest
    cases hconfig
    exact sorted_globalsOf hglobals
  next => cases h

theorem Data.Loaded.sorted {data : Data} (h : Data.Loaded data) : Fields.Sorted data := by
  induction h with
  | text hdata => exact sorted_parseData hdata
  | none => exact Fields.sorted_nil
  | globals hconfig => exact Toml.sorted_fieldsJson (sorted_globals hconfig)
  | merge _ _ ihbase _ => exact ihbase.insertAll _

/-! ## 2. Global scopes -/

/-- Loaded data make up a global scope, and no function is in any value of it. -/
theorem globals_of_loaded {data : Data} (h : Data.Loaded data) :
    ∃ chain, (Renderer.empty.insertAll data).globals = .ok chain ∧
      chain.Holds Value.IsData := by
  obtain ⟨chain, hchain, -, hbinding⟩ := (Renderer.empty.insertAll data).globals_of_nodup
    (Renderer.names_insertAll data ▸ h.sorted.nodup)
  refine ⟨chain, hchain, fun i name value hvalue => ?_⟩
  rw [hbinding, Renderer.find?_insertAll] at hvalue
  split at hvalue
  next =>
    obtain ⟨json, -, rfl⟩ := Option.map_eq_some_iff.mp hvalue
    exact Value.isData_ofJson json
  next => cases hvalue

/-- The global scope of loaded data holds plain values. -/
theorem plain_globals_of_loaded {data : Data} (h : Data.Loaded data) :
    ∃ chain, (Renderer.empty.insertAll data).globals = .ok chain ∧ chain.Holds Value.Plain := by
  obtain ⟨chain, hchain, hdata⟩ := globals_of_loaded h
  refine ⟨chain, hchain, fun i name value hvalue => ?_⟩
  exact Value.admissible_plain.data value (hdata i name value hvalue)

/-! ## 3. Failures -/

/-- Where all values are plain, no node fails on the side of the host: there are no native functions
to call, and a method belongs to a string. -/
theorem Node.Raises.not_isHostSide {natives : Natives} {node : Node} {error : RuntimeError}
    (h : node.Raises natives Value.Plain error) : ¬ error.IsHostSide := by
  intro hhost
  cases h with
  | receiver hplain hkind => exact hkind hplain.receiver
  | native hplain => exact Value.not_plain_native _ _ hplain
  | _ => exact hhost

theorem renderData_error {program : Node} {data : Data} {error : LoadError}
    (hdata : Data.Loaded data) (h : renderData program data = .error error) :
    ¬ error.IsHostSide := by
  obtain ⟨chain, hchain, hplain⟩ := plain_globals_of_loaded hdata
  have hkeep := Natives.none.keep_of_not_admitted Value.not_plain_native
  have hmeets := evaluate_meets Value.admissible_plain hkeep program
  -- Printing the value of the program adds no failure.
  have hrender : Meets (Chain.Holds Value.Plain) (program.Fails Natives.none Value.Plain)
      (fun _ => True) (program.render Natives.none) :=
    hmeets.bind fun _ _ => Meets.pure trivial
  rw [renderData, Renderer.render, hchain] at h
  unfold orRuntimeError at h
  split at h
  next => cases h
  next failure hfailure =>
    cases h
    obtain ⟨part, -, hraises⟩ := hrender.error hplain hfailure
    exact hraises.not_isHostSide

theorem parseAst_error {text origin : String} {error : LoadError}
    (h : parseAst text origin = .error error) : ¬ error.IsHostSide := by
  unfold parseAst at h
  split at h
  next => cases h
  next =>
    cases h
    exact id

theorem parseData_error {text origin : String} {isToml : Bool} {error : LoadError}
    (h : parseData text isToml origin = .error error) : ¬ error.IsHostSide := by
  unfold parseData at h
  split at h
  next => cases h
  next =>
    cases h
    exact id

theorem parseConfig_error {text origin : String} {error : LoadError}
    (h : parseConfig text origin = .error error) : ¬ error.IsHostSide := by
  unfold parseConfig at h
  split at h
  next => cases h
  next =>
    cases h
    exact id

theorem renderJson_error {ast data : String} {error : LoadError}
    (h : renderJson ast data = .error error) : ¬ error.IsHostSide := by
  rcases bind_eq_error.mp h with hast | ⟨program, -, hrest⟩
  · exact parseAst_error hast
  · rcases bind_eq_error.mp hrest with hdata | ⟨loaded, hloaded, hrender⟩
    · exact parseData_error hdata
    · exact renderData_error (.text hloaded) hrender

theorem renderConfigured_error {config : Config} {data : Option Data} {program : Node}
    {error : LoadError} (hconfig : Data.Loaded config.globalsJson)
    (hdata : ∀ top, data = some top → Data.Loaded top)
    (h : renderConfigured config data program = .error error) : ¬ error.IsHostSide := by
  have htop : Data.Loaded (data.getD []) := by
    cases data with
    | none => exact .none
    | some top => exact hdata top rfl
  rcases bind_eq_error.mp h with hrender | ⟨text, -, hfinal⟩
  · exact renderData_error (hconfig.merge htop) hrender
  · cases hfinal

namespace CommandLine

section

variable {σ : Type} (files : FileSystem (StateM σ))

/-- A step of a command does not fail on the side of the host, and what it gives is good. -/
abbrev Gives {α : Type} (good : α → Prop) (step : ExceptT LoadError (StateM σ) α) : Prop :=
  Meets (fun _ => True) (fun error => ¬ error.IsHostSide) good step

theorem loadText_meets (path : String) : Gives (fun _ => True) (loadText files path) := by
  refine Meets.seq (Meets.lift fun _ _ => trivial) fun result => ?_
  cases result with
  | ok text => exact Meets.pure trivial
  | error error => exact Meets.throw id

theorem loadAst_meets (path : String) : Gives (fun _ => True) (loadAst files path) :=
  (loadText_meets files path).seq fun _ =>
    Meets.ofExcept (fun _ _ => trivial) fun _ herror => parseAst_error herror

theorem loadData_meets (path : String) : Gives Data.Loaded (loadData files path) :=
  (loadText_meets files path).seq fun _ =>
    Meets.ofExcept (fun _ hdata => .text hdata) fun _ herror => parseData_error herror

theorem loadConfig_meets (path : String) :
    Gives (fun config => Data.Loaded config.globalsJson) (loadConfig files path) :=
  (loadText_meets files path).seq fun _ =>
    Meets.ofExcept (fun _ hconfig => .globals hconfig) fun _ herror => parseConfig_error herror

theorem configFor_meets (ast : String) (given : Option String) :
    Gives (fun config => Data.Loaded config.globalsJson) (configFor files ast given) := by
  cases given with
  | some path => exact loadConfig_meets files path
  | none =>
    refine Meets.seq (Meets.lift fun _ _ => trivial) fun found => ?_
    cases found with
    | some path => exact loadConfig_meets files path
    | none => exact Meets.pure .none

theorem writeText_meets (output : Option String) (text : String) :
    Gives (fun _ => True) (writeText files output text) := by
  cases output with
  | some path =>
    refine Meets.seq (Meets.lift fun _ _ => trivial) fun result => ?_
    cases result with
    | ok => exact Meets.pure trivial
    | error error => exact Meets.throw id
  | none =>
    refine Meets.seq (Meets.lift fun _ _ => trivial) fun result => ?_
    cases result with
    | ok => exact Meets.pure trivial
    | error error => exact Meets.throw id

/-- Rendering files does not fail on the side of the host, whatever the files are. -/
theorem renderFile_meets (ast : String) (data config output : Option String) :
    Gives (fun _ => True) (renderFile files ast data config output) := by
  refine (configFor_meets files ast config).bind fun config hconfig => ?_
  refine (loadAst_meets files ast).seq fun program => ?_
  -- What is left to do is the same with and without further data.
  extract_lets rest
  have hrest : ∀ loaded, (∀ top, loaded = some top → Data.Loaded top) →
      Gives (fun _ => True) (rest loaded) := by
    intro loaded hloaded
    refine Meets.seq (Meets.ofExcept (fun _ _ => trivial) fun error herror => ?_) fun text => ?_
    · exact renderConfigured_error hconfig hloaded herror
    · exact writeText_meets files output text
  cases data with
  | none => exact Meets.bind (Meets.pure fun top htop => nomatch htop) hrest
  | some path =>
    refine ((loadData_meets files path).map fun loaded hloaded top htop => ?_).bind hrest
    obtain rfl := Option.some.inj htop
    exact hloaded

end

end CommandLine

/-! ## 4. Renderings -/

/-- Rendering with data only does not fail on the side of the host, neither from texts nor from
files. Every chain that such a rendering comes through holds plain values, and every value that it
computes on the way is plain: a function is a method of a string, and there is none inside of
another value. -/
theorem loaded_rendering_has_no_host_failure :
    (∀ ast data error, renderJson ast data = .error error → ¬ error.IsHostSide) ∧
    (∀ (σ : Type) (files : FileSystem (StateM σ)) (state : σ) (ast : String)
      (data config output : Option String) (error : LoadError),
      ((CommandLine.renderFile files ast data config output).run.run state).1 = .error error →
        ¬ error.IsHostSide) ∧
    (∀ (program : Node) (data : Data), Data.Loaded data →
      ∃ globals, (Renderer.empty.insertAll data).globals = .ok globals ∧
        ∀ part there, program.Reaches Natives.none globals part there →
          there.Holds Value.Plain ∧
          ((part.evaluate Natives.none).start there).2.Holds Value.Plain ∧
          ∀ value, ((part.evaluate Natives.none).start there).1 = .ok value → value.Plain) := by
  refine ⟨fun _ _ _ herror => renderJson_error herror, ?_, ?_⟩
  · intro σ files state ast data config output error herror
    exact (CommandLine.renderFile_meets files ast data config output).error trivial herror
  · intro program data hdata
    obtain ⟨globals, hglobals, hplain⟩ := plain_globals_of_loaded hdata
    have hkeep := Natives.none.keep_of_not_admitted Value.not_plain_native
    refine ⟨globals, hglobals, fun part there hreaches => ?_⟩
    have hthere := hreaches.holds Value.admissible_plain hkeep hplain
    have hmeets := evaluate_keeps Value.admissible_plain hkeep part
    exact ⟨hthere, hmeets.after hthere, fun value hvalue => hmeets.value hthere hvalue⟩

/-- A loop over loaded data that keeps a method of each item in a variable: where the call evaluates
its callee, the variable holds a method of a string, and all other values are plain as well. -/
theorem loaded_rendering_has_no_host_failure_stored_method :
    let data : Data := [("names", .array [.string "ab"])]
    let program := Node.program [
      .loop (.identifier "name") (.identifier "names") [
        .set (.identifier "shout") (.field (.identifier "name") "upper"),
        .call (.identifier "shout") []]]
    let globals : Chain := ⟨[("names", .array [.string "ab"])], []⟩
    parseData (Json.object data).print false "<data>" = .ok data ∧
      (Renderer.empty.insertAll data).globals = .ok globals ∧
      ∃ there, program.Reaches Natives.none globals (.identifier "shout") there ∧
        there.lookup "shout" = .bound (.string "ab") .upper ∧ there.Holds Value.Plain := by
  intro data program globals
  have hrange : (Json.object data).InRange fun _ => True := by
    refine .object fun member hmember => ?_
    rw [List.mem_singleton.mp hmember]
    refine .array fun item hitem => ?_
    rw [List.mem_singleton.mp hitem]
    exact .string "ab"
  have hparse : parseData (Json.object data).print false "<data>" = .ok data := by
    simp only [parseData, parseJsonData, Json.parse_print_of_inRange hrange]
    rfl
  have hglobals : (Renderer.empty.insertAll data).globals = .ok globals := rfl
  have hreaches : program.Reaches Natives.none globals (.identifier "shout") _ :=
    .down (.statement .head) (.down (.loopBody rfl (.pass (.tail rfl .head)))
      (.down (.callee rfl) (.here _ _)))
  refine ⟨hparse, hglobals, _, hreaches, rfl, ?_⟩
  obtain ⟨-, -, hruns⟩ := loaded_rendering_has_no_host_failure
  obtain ⟨chain, hchain, hplain⟩ := hruns program data (.text hparse)
  obtain rfl := Except.ok.inj (hglobals.symm.trans hchain)
  exact (hplain _ _ hreaches).1

end Templating
