import Templating.CommandLine.Run
import Templating.Proofs.CommandLine.Files

/-!
# Inputs of a rendering

A rendering has a configuration, a template and data. Where they come from is said by rules on what
can be seen of the files.

* `View.ConfigPath` is the path of the configuration, with a rule for each place where it may be.
* `View.Settings` and `View.Members` are the configuration and the data that are read, or the failure
  to read them.

Results:
1. `configPath_iff`, `settings_iff`: a template has exactly one configuration. `members_iff`: the
   form of the data is known from the path.
2. `run_loadText` and its siblings: an input is read from what can be seen of the files, and reading
   it changes nothing.
-/

namespace Templating

/-! ## Definitions -/

namespace View

variable (view : View)

def text (path : String) : Except LoadError String :=
  match view.read path with
  | .ok text => .ok text
  | .error error => .error (.file path error)

/-- There is a configuration file in a directory. -/
structure HasConfig (directory path : String) : Prop where
  within : Path.Within "stencil.toml" directory path
  isFile : view.isFile path = true

/-- No configuration file is in the directory of a template. -/
def NoneBeside (ast : String) : Prop :=
  ∀ directory path, Path.Parent ast directory → ¬ view.HasConfig directory path

/-- The path of a template's configuration, by the path that is given for it.

* `given`: a path that is given is taken, whatever is there.
* `beside`: without one, the file in the directory of the template is taken.
* `working`: if there is none, then the one in the working directory is taken.
* `absent`: there is no configuration file. -/
inductive ConfigPath (ast : String) : Option String → Option String → Prop
  | given {path : String} : ConfigPath ast (some path) (some path)
  | beside {directory path : String} : Path.Parent ast directory →
      view.HasConfig directory path → ConfigPath ast none (some path)
  | working {directory path : String} : view.NoneBeside ast →
      view.workingDirectory = some directory → view.HasConfig directory path →
      ConfigPath ast none (some path)
  | absent : view.NoneBeside ast →
      (∀ directory path, view.workingDirectory = some directory →
        ¬ view.HasConfig directory path) →
      ConfigPath ast none none

/-- The configuration of a template, which is read from its path. Without a path it is empty. -/
inductive Settings (ast : String) (given : Option String) : Except LoadError Config → Prop
  | read {path : String} : view.ConfigPath ast given (some path) →
      Settings ast given (do parseConfig (← view.text path) path)
  | empty : view.ConfigPath ast given none → Settings ast given (.ok ⟨[], false⟩)

def program (ast : String) : Except LoadError Node := do
  parseAst (← view.text ast) ast

/-- The data of a rendering, none if no file is given. A file holds TOML if the end of its name says
so, JSON otherwise. -/
inductive Members : Option String → Except LoadError Data → Prop
  | none : Members none (.ok [])
  | toml {path : String} : Path.Extension "toml" path →
      Members (some path) (do parseData (← view.text path) true path)
  | json {path : String} : ¬ Path.Extension "toml" path →
      Members (some path) (do parseData (← view.text path) false path)

end View

/-! ## 1. Configurations and data -/

namespace View

variable {view : View} {ast : String}

/-- The places in which a template's configuration is looked for. -/
def candidates (view : View) (ast : String) : List String :=
  ((Path.parent? ast).toList ++ view.workingDirectory.toList).map (Path.join · Config.fileName)

/-- The configuration file of a template: the given one, else the first candidate that is there. -/
def configPath? (view : View) (ast : String) : Option String → Option String
  | some path => some path
  | none => (view.candidates ast).find? view.isFile

def config (view : View) (ast : String) (given : Option String) : Except LoadError Config :=
  match view.configPath? ast given with
  | some path => do parseConfig (← view.text path) path
  | none => .ok Config.default

/-- The configuration file in a directory, if there is a directory. -/
def configIn? (view : View) (directory : Option String) : Option String :=
  (directory.toList.map (Path.join · Config.fileName)).find? view.isFile

theorem configIn?_eq_some_iff {directory : Option String} {path : String} :
    view.configIn? directory = some path ↔
      ∃ found, directory = some found ∧ view.HasConfig found path := by
  rw [configIn?]
  cases directory with
  | none => exact ⟨nofun, nofun⟩
  | some found =>
    rw [Option.toList_some, List.map_singleton, List.find?_singleton, Option.ite_none_right_eq_some,
      Option.some_inj]
    constructor
    · rintro ⟨hfile, rfl⟩
      exact ⟨found, rfl, Path.join_eq_iff.mp rfl, hfile⟩
    · rintro ⟨other, hsame, hwithin, hfile⟩
      cases hsame
      obtain rfl := Path.join_eq_iff.mpr hwithin
      exact ⟨hfile, rfl⟩

theorem configIn?_eq_none_iff {directory : Option String} :
    view.configIn? directory = none ↔
      ∀ found path, directory = some found → ¬ view.HasConfig found path := by
  rw [Option.eq_none_iff_forall_not_mem]
  constructor
  · intro h found path hfound hconfig
    exact h path (configIn?_eq_some_iff.mpr ⟨found, hfound, hconfig⟩)
  · intro h path hpath
    obtain ⟨found, hfound, hconfig⟩ := configIn?_eq_some_iff.mp hpath
    exact h found path hfound hconfig

theorem noneBeside_iff : view.NoneBeside ast ↔ view.configIn? (Path.parent? ast) = none := by
  rw [configIn?_eq_none_iff]
  simp only [NoneBeside, Path.parent?_eq_some_iff]

/-- The two directories are looked at one after the other. -/
theorem configPath?_none (view : View) (ast : String) :
    view.configPath? ast none =
      (view.configIn? (Path.parent? ast)).or (view.configIn? view.workingDirectory) := by
  rw [configPath?, candidates, List.map_append, List.find?_append, configIn?, configIn?]

theorem configPath_iff {given path : Option String} :
    view.ConfigPath ast given path ↔ view.configPath? ast given = path := by
  constructor
  · intro h
    cases h with
    | given => rfl
    | beside hparent hconfig =>
      rw [configPath?_none, configIn?_eq_some_iff.mpr
        ⟨_, Path.parent?_eq_some_iff.mpr hparent, hconfig⟩, Option.some_or]
    | working hbeside hworking hconfig =>
      rw [configPath?_none, noneBeside_iff.mp hbeside, Option.none_or]
      exact configIn?_eq_some_iff.mpr ⟨_, hworking, hconfig⟩
    | absent hbeside hworking =>
      rw [configPath?_none, noneBeside_iff.mp hbeside, Option.none_or]
      exact configIn?_eq_none_iff.mpr hworking
  · rintro rfl
    cases given with
    | some path => exact .given
    | none =>
      rw [configPath?_none]
      cases hbeside : view.configIn? (Path.parent? ast) with
      | some path =>
        obtain ⟨directory, hparent, hconfig⟩ := configIn?_eq_some_iff.mp hbeside
        exact .beside (Path.parent?_eq_some_iff.mp hparent) hconfig
      | none =>
        rw [Option.none_or]
        cases hworking : view.configIn? view.workingDirectory with
        | some path =>
          obtain ⟨directory, hdirectory, hconfig⟩ := configIn?_eq_some_iff.mp hworking
          exact .working (noneBeside_iff.mpr hbeside) hdirectory hconfig
        | none =>
          exact .absent (noneBeside_iff.mpr hbeside) (configIn?_eq_none_iff.mp hworking)

/-- A template has exactly one configuration, or fails to have one for exactly one reason. -/
theorem settings_iff {given : Option String} {result : Except LoadError Config} :
    view.Settings ast given result ↔ view.config ast given = result := by
  rw [config]
  constructor
  · intro h
    cases h with
    | read hpath => rw [configPath_iff.mp hpath]
    | empty hpath =>
      rw [configPath_iff.mp hpath]
      rfl
  · rintro rfl
    cases hpath : view.configPath? ast given with
    | some path => exact .read (configPath_iff.mpr hpath)
    | none => exact .empty (configPath_iff.mpr hpath)

def data (view : View) : Option String → Except LoadError Data
  | some path => do parseData (← view.text path) (Path.hasExtension path "toml") path
  | none => .ok []

theorem members_iff {path : Option String} {result : Except LoadError Data} :
    view.Members path result ↔ view.data path = result := by
  constructor
  · intro h
    cases h with
    | none => rfl
    | toml htoml => rw [data, Path.hasExtension_iff.mpr htoml]
    | json hjson => rw [data, Bool.eq_false_iff.mpr (mt Path.hasExtension_iff.mp hjson)]
  · rintro rfl
    cases path with
    | none => exact .none
    | some path =>
      rw [data]
      cases htoml : Path.hasExtension path "toml" with
      | true => exact .toml (Path.hasExtension_iff.mp htoml)
      | false => exact .json (mt Path.hasExtension_iff.mpr (Bool.eq_false_iff.mp htoml))

end View

/-- The text of a file is read under its name. -/
theorem Directory.Named.text {directory : Directory} {name text : String}
    (h : directory.Named name) (hentry : directory.entry? [name] = some (.file text.toUTF8)) :
    (Directory.fileSystem.view directory).text name = .ok text := by
  have hread : (Directory.fileSystem.view directory).read name = .ok text :=
    ((Directory.fileSystem_shows directory).read name text).mpr (Or.inl ⟨_, h.locate, hentry⟩)
  rw [View.text, hread]

namespace CommandLine

/-! ## 2. Inputs -/

section

variable {σ : Type} {files : FileSystem (StateM σ)}

theorem run_loadText (h : files.Steady) (path : String) (state : σ) :
    (loadText files path).run.run state = ((files.view state).text path, state) := by
  have hview : ((files.read path).run state).1 = (files.view state).read path := rfl
  rw [loadText, run_bind, run_liftM, h.read, hview, View.text]
  cases (files.view state).read path with
  | ok text => rfl
  | error error => rfl

/-- A text is read and then parsed. -/
theorem run_loadText_bind (h : files.Steady) (path : String) (state : σ) {α : Type}
    (parse : String → Except LoadError α) :
    (loadText files path >>= fun text => ExceptT.mk (pure (parse text))).run.run state =
      ((files.view state).text path >>= parse, state) := by
  rw [run_bind, run_loadText h]
  cases (files.view state).text path with
  | ok text => rfl
  | error error => rfl

theorem run_firstFile? (h : files.Steady) (paths : List String) (state : σ) :
    (firstFile? files paths).run state = (paths.find? (files.view state).isFile, state) := by
  induction paths with
  | nil => rfl
  | cons path rest ih =>
    have hfile : (files.isFile path).run state = ((files.view state).isFile path, state) :=
      congrArg (Prod.mk _) (h.isFile path state)
    rw [firstFile?, StateT.run_bind, hfile, List.find?_cons]
    cases (files.view state).isFile path with
    | true => rfl
    | false => exact ih

theorem run_findConfig? (h : files.Steady) (ast : String) (state : σ) :
    (findConfig? files ast).run state =
      (((files.view state).candidates ast).find? (files.view state).isFile, state) := by
  have hworking : files.workingDirectory.run state = ((files.view state).workingDirectory, state) :=
    congrArg (Prod.mk _) (h.workingDirectory state)
  rw [findConfig?, StateT.run_bind, hworking]
  exact run_firstFile? h _ state

theorem run_loadConfig (h : files.Steady) (path : String) (state : σ) :
    (loadConfig files path).run.run state =
      ((files.view state).text path >>= (parseConfig · path), state) :=
  run_loadText_bind h path state (parseConfig · path)

theorem run_configFor (h : files.Steady) (ast : String) (given : Option String) (state : σ) :
    (configFor files ast given).run.run state = ((files.view state).config ast given, state) := by
  cases given with
  | some path => exact run_loadConfig h path state
  | none =>
    have hfind : (ExceptT.lift (findConfig? files ast) :
        ExceptT LoadError (StateM σ) _).run.run state =
        (.ok ((files.view state).configPath? ast none), state) :=
      congrArg (fun run : Option String × σ => (Except.ok run.1, run.2)) (run_findConfig? h ast state)
    rw [configFor, run_bind, hfind, View.config]
    cases (files.view state).configPath? ast none with
    | some path => exact run_loadConfig h path state
    | none => rfl

theorem run_loadAst (h : files.Steady) (ast : String) (state : σ) :
    (loadAst files ast).run.run state = ((files.view state).program ast, state) :=
  run_loadText_bind h ast state (parseAst · ast)

theorem run_loadData (h : files.Steady) (path : String) (state : σ) :
    (loadData files path).run.run state = ((files.view state).data (some path), state) :=
  run_loadText_bind h path state (parseData · (Path.hasExtension path "toml") path)

end

end CommandLine

end Templating
