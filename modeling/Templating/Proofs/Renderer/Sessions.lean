import Mathlib.Data.List.Induction
import Mathlib.Data.List.Nodup
import Templating.Proofs.Renderer.Globals

/-!
# Sessions with a renderer

A session is a run of requests to one renderer: insertions, some of which may fail, and renderings
between them. A renderer keeps nothing but its bindings, so a session comes down to what its
insertions have bound, in their order.

* `Insertion.bound` is what an insertion binds, nothing if it fails.
* `Renderer.serve` runs a session and gives the answers of its renderings.
* `FirstRepeated` is the earliest name in a list that stands in it before.

Results:
1. `bindings_performAll`: the bindings of a renderer are those of the insertions.
2. `exists_firstRepeated_iff`, `FirstRepeated.unique`: a list has a first repeated name if its names
   are not distinct, and only one.
3. `declareAll_of_firstRepeated`: it is the name that cannot be declared.
4. `serve_append_render`: a rendering does not depend on those before it.
5. `session_history`: what a renderer does after any session.
-/

namespace Templating

/-! ## Definitions -/

/-- One insertion into a renderer. -/
inductive Insertion where
  | ofDatum (name : String) (datum : Datum)
  | ofJson (name : String) (json : Json)
  | ofMembers (members : List (String × Json))
  | ofFunction (name : String) (identity : Nat)
  | ofValue (name : String) (value : Value)

/-- What an insertion binds. Host data that cannot be converted bind nothing. -/
def Insertion.bound : Insertion → List (String × Value)
  | .ofDatum name datum =>
    match datum.toValue with
    | .ok value => [(name, value)]
    | .error _ => []
  | .ofJson name json => [(name, Value.ofJson json)]
  | .ofMembers members => members.map fun member => (member.1, Value.ofJson member.2)
  | .ofFunction name identity => [(name, .native name identity)]
  | .ofValue name value => [(name, value)]

/-- One request to a renderer. -/
inductive Request where
  | insert (insertion : Insertion)
  | render (program : Node)

/-- The insertions among some requests. -/
def Request.insertions (requests : List Request) : List Insertion :=
  requests.filterMap fun
    | .insert insertion => some insertion
    | .render _ => none

namespace Renderer

/-- The renderer after an insertion. One that fails leaves it as it was. -/
def perform (renderer : Renderer) : Insertion → Renderer
  | .ofDatum name datum =>
    match renderer.insert name datum with
    | .ok after => after
    | .error _ => renderer
  | .ofJson name json => renderer.insertJson name json
  | .ofMembers members => renderer.insertAll members
  | .ofFunction name identity => renderer.insertFunction name identity
  | .ofValue name value => renderer.insertValue name value

def performAll (renderer : Renderer) (insertions : List Insertion) : Renderer :=
  insertions.foldl perform renderer

/-- Serves requests one after the other. The answers are those of the renderings. -/
def serve (natives : Natives) : Renderer → List Request →
    List (Except RuntimeError String) × Renderer
  | renderer, [] => ([], renderer)
  | renderer, .insert insertion :: rest => serve natives (renderer.perform insertion) rest
  | renderer, .render program :: rest =>
    let (answers, after) := serve natives renderer rest
    (renderer.render natives program :: answers, after)

end Renderer

/-- The name stands in the list before, and it is the first one that does. -/
def FirstRepeated (names : List String) (name : String) : Prop :=
  ∃ before after, names = before ++ name :: after ∧ before.Nodup ∧ name ∈ before

/-! ## 1. Bindings -/

namespace Renderer

theorem bindings_perform (renderer : Renderer) (insertion : Insertion) :
    (renderer.perform insertion).bindings = renderer.bindings ++ insertion.bound := by
  cases insertion with
  | ofDatum name datum =>
    rw [perform, Insertion.bound, insert]
    cases datum.toValue with
    | ok value => rfl
    | error error => exact (List.append_nil _).symm
  | ofMembers members => exact renderer.bindings_insertAll members
  | ofJson name json => rfl
  | ofFunction name identity => rfl
  | ofValue name value => rfl

theorem bindings_performAll (renderer : Renderer) (insertions : List Insertion) :
    (renderer.performAll insertions).bindings =
      renderer.bindings ++ insertions.flatMap Insertion.bound := by
  induction insertions generalizing renderer with
  | nil => exact (List.append_nil _).symm
  | cons insertion rest ih =>
    have hstep : renderer.performAll (insertion :: rest) =
        (renderer.perform insertion).performAll rest := rfl
    rw [hstep, ih, bindings_perform, List.flatMap_cons, List.append_assoc]

end Renderer

/-! ## 2. Repeated names -/

theorem exists_firstRepeated_iff {names : List String} :
    (∃ name, FirstRepeated names name) ↔ ¬ names.Nodup := by
  constructor
  · rintro ⟨name, before, after, rfl, -, hmem⟩ hnodup
    exact (List.nodup_append.mp hnodup).2.2 name hmem name List.mem_cons_self rfl
  · intro hrepeated
    -- The names before the first repeated one are found from the end of the list.
    induction names using List.reverseRecOn with
    | nil => exact absurd List.nodup_nil hrepeated
    | append_singleton names name ih =>
      by_cases hnodup : names.Nodup
      · refine ⟨name, names, [], rfl, hnodup, ?_⟩
        by_contra hmem
        refine hrepeated (List.nodup_append.mpr ⟨hnodup, List.nodup_singleton _, ?_⟩)
        rintro other hother repeated hsingle rfl
        exact hmem (List.mem_singleton.mp hsingle ▸ hother)
      · obtain ⟨first, before, after, rfl, hbefore, hmem⟩ := ih hnodup
        exact ⟨first, before, after ++ [name], by simp, hbefore, hmem⟩

theorem FirstRepeated.unique {names : List String} {name other : String}
    (h : FirstRepeated names name) (hother : FirstRepeated names other) : name = other := by
  obtain ⟨before, after, rfl, hnodup, hmem⟩ := h
  obtain ⟨others, rest, hsplit, hothers, hotherMem⟩ := hother
  -- Otherwise the shorter of the two beginnings would repeat its name in the longer one.
  rcases List.append_eq_append_iff.mp hsplit with ⟨extra, rfl, hrest⟩ | ⟨extra, rfl, hrest⟩
  · cases extra with
    | nil => exact (List.cons.inj hrest).1
    | cons head extra =>
      obtain rfl : name = head := (List.cons.inj hrest).1
      exact absurd rfl ((List.nodup_append.mp hothers).2.2 name hmem name List.mem_cons_self)
  · cases extra with
    | nil => exact (List.cons.inj hrest).1.symm
    | cons head extra =>
      obtain rfl : other = head := (List.cons.inj hrest).1
      exact absurd rfl ((List.nodup_append.mp hnodup).2.2 other hotherMem other List.mem_cons_self)

/-! ## 3. Global scopes -/

theorem Chain.declareAll_append (chain : Chain) (bindings more : List (String × Value)) :
    chain.declareAll (bindings ++ more) =
      match chain.declareAll bindings with
      | .ok after => after.declareAll more
      | .error error => .error error := by
  induction bindings generalizing chain with
  | nil => rfl
  | cons field rest ih =>
    obtain ⟨name, value⟩ := field
    rw [List.cons_append, declareAll, declareAll]
    cases chain.declare name value with
    | ok after => exact ih after
    | error error => rfl

/-- The first repeated name is the one that cannot be declared. -/
theorem Chain.declareAll_of_firstRepeated {bindings : List (String × Value)} {name : String}
    (h : FirstRepeated (bindings.map Prod.fst) name) :
    Chain.empty.declareAll bindings = .error (.duplicateDeclaration name) := by
  obtain ⟨before, after, hsplit, hnodup, hmem⟩ := h
  obtain ⟨first, others, rfl, rfl, hothers⟩ := List.map_eq_append_iff.mp hsplit
  obtain ⟨⟨name, value⟩, rest, rfl, rfl, rfl⟩ := List.map_eq_cons_iff.mp hothers
  obtain ⟨chain, hchain, -, hfind⟩ :=
    Chain.empty.declareAll_of_nodup hnodup fun _ _ => rfl
  obtain ⟨⟨other, old⟩, hfield, hsame⟩ := List.mem_map.mp hmem
  obtain rfl : other = name := hsame
  have hbinds : chain.current.binds other = true := by
    rw [Scope.binds, hfind, (Fields.find?_eq_some_iff hnodup).mpr hfield]
    rfl
  rw [declareAll_append, hchain]
  simp only
  rw [declareAll, declare, if_pos hbinds]

namespace Renderer

variable (renderer : Renderer)

/-- Two bindings of one name let every rendering fail before the program is looked at. -/
theorem render_of_firstRepeated {name : String} (h : FirstRepeated renderer.names name)
    (natives : Natives) (program : Node) :
    renderer.render natives program = .error (.duplicateDeclaration name) := by
  have hglobals : renderer.globals = .error (.duplicateDeclaration name) :=
    Chain.declareAll_of_firstRepeated h
  rw [render, hglobals]
  rfl

/-- Bindings with distinct names make up the single scope in which a program runs. -/
theorem render_of_nodup (h : renderer.names.Nodup) :
    ∃ globals : Chain, globals.outer = [] ∧
      (∀ name value, globals.current.find? name = some value ↔ (name, value) ∈ renderer.bindings) ∧
      ∀ natives program,
        renderer.render natives program = ((program.render natives).start globals).1 := by
  obtain ⟨globals, hglobals, hdepth, hbinding⟩ := renderer.globals_of_nodup h
  refine ⟨globals, List.length_eq_zero_iff.mp (Nat.succ.inj hdepth), fun name value => ?_,
    fun natives program => ?_⟩
  · have hcurrent : globals.current.find? name = _ := hbinding 0 name
    rw [hcurrent, if_pos rfl, Fields.find?_eq_some_iff h]
  · rw [render, hglobals]
    rfl

/-- The error names the first repeated name, whatever the program. -/
theorem firstRepeated_iff_render {name : String} :
    FirstRepeated renderer.names name ↔
      ∀ natives program,
        renderer.render natives program = .error (.duplicateDeclaration name) := by
  refine ⟨fun h => renderer.render_of_firstRepeated h, fun h => ?_⟩
  by_cases hnodup : renderer.names.Nodup
  · -- A program without statements shows that nothing has failed before.
    obtain ⟨globals, -, -, hrender⟩ := renderer.render_of_nodup hnodup
    have hempty := hrender Natives.none (.program [])
    rw [h] at hempty
    cases hempty
  · obtain ⟨other, hother⟩ := exists_firstRepeated_iff.mpr hnodup
    have hsame := (renderer.render_of_firstRepeated hother Natives.none .unknown).symm.trans
      (h Natives.none .unknown)
    cases hsame
    exact hother

/-! ## 4. Sessions -/

theorem serve_append (natives : Natives) (requests more : List Request) :
    renderer.serve natives (requests ++ more) =
      ((renderer.serve natives requests).1 ++
        ((renderer.serve natives requests).2.serve natives more).1,
        ((renderer.serve natives requests).2.serve natives more).2) := by
  induction requests generalizing renderer with
  | nil => rfl
  | cons request rest ih =>
    cases request with
    | insert insertion => exact ih (renderer.perform insertion)
    | render program =>
      rw [List.cons_append, serve, ih, serve]
      rfl

/-- Only the insertions of a session change the renderer. -/
theorem serve_renderer (natives : Natives) (requests : List Request) :
    (renderer.serve natives requests).2 = renderer.performAll (Request.insertions requests) := by
  induction requests generalizing renderer with
  | nil => rfl
  | cons request rest ih =>
    cases request with
    | insert insertion => exact ih (renderer.perform insertion)
    | render program => exact ih renderer

/-- What a rendering gives does not depend on the renderings before it. -/
theorem serve_append_render (natives : Natives) (requests : List Request) (program : Node) :
    (renderer.serve natives (requests ++ [.render program])).1 =
      (renderer.serve natives requests).1 ++
        [(renderer.performAll (Request.insertions requests)).render natives program] := by
  rw [serve_append, serve_renderer]
  rfl

/-! ## 5. Renderers -/

/-- What a renderer does after any session.

* It holds the bindings of the insertions that have not failed, in their order, and its names are
  the names of these.
* Every rendering fails with a duplicate declaration, before the program is looked at, if two
  bindings have the same name, and only then. The name is the first one that is bound again.
* Otherwise each program runs in a single scope that binds each name to the value inserted for it,
  and no others.
* What a rendering gives depends on the insertions before it, and not on other renderings. -/
theorem session_history (natives : Natives) (requests : List Request) :
    let bindings := (Request.insertions requests).flatMap Insertion.bound
    let renderer := (Renderer.empty.serve natives requests).2
    renderer.bindings = bindings ∧ renderer.names = bindings.map Prod.fst ∧
    ((∃ name, ∀ natives program,
      renderer.render natives program = .error (.duplicateDeclaration name)) ↔
        ¬ (bindings.map Prod.fst).Nodup) ∧
    (∀ name, FirstRepeated (bindings.map Prod.fst) name ↔
      ∀ natives program,
        renderer.render natives program = .error (.duplicateDeclaration name)) ∧
    ((bindings.map Prod.fst).Nodup → ∃ globals : Chain, globals.outer = [] ∧
      (∀ name value, globals.current.find? name = some value ↔ (name, value) ∈ bindings) ∧
      ∀ natives program,
        renderer.render natives program = ((program.render natives).start globals).1) ∧
    ∀ others program, Request.insertions others = Request.insertions requests →
      (Renderer.empty.serve natives (others ++ [.render program])).1 =
        (Renderer.empty.serve natives others).1 ++ [renderer.render natives program] := by
  intro bindings renderer
  have hrenderer : renderer = Renderer.empty.performAll (Request.insertions requests) :=
    serve_renderer Renderer.empty natives requests
  have hbindings : renderer.bindings = bindings := by
    rw [hrenderer]
    exact bindings_performAll Renderer.empty _
  have hnames : renderer.names = bindings.map Prod.fst := by
    rw [names, hbindings]
  refine ⟨hbindings, hnames, ?_, fun name => ?_, fun hnodup => ?_, fun others program hothers => ?_⟩
  · simp only [← firstRepeated_iff_render]
    rw [hnames]
    exact exists_firstRepeated_iff
  · rw [← hnames]
    exact renderer.firstRepeated_iff_render
  · rw [← hbindings]
    exact renderer.render_of_nodup (hnames ▸ hnodup)
  · rw [serve_append_render, hothers, hrenderer]

/-- A map without a text for its key binds nothing, and a program that assigns to a global finds it
as it was inserted when it is rendered again. -/
theorem session_history_rendered_twice :
    let program := Node.program [
      .set (.identifier "n") (.binary .add (.identifier "n") (.string "+")), .identifier "n"]
    let insertions : List Request := [
      .insert (.ofValue "n" (.string "a")), .insert (.ofDatum "n" (.map [(.unit, .unit)])),
      .insert (.ofMembers [("m", .null)])]
    let rendered := .render program :: insertions ++ [.render program]
    Request.insertions rendered = Request.insertions insertions ∧
      ((Request.insertions insertions).flatMap Insertion.bound |>.map Prod.fst).Nodup ∧
      (∃ globals : Chain, globals.outer = [] ∧
        (globals.current.find? "n" = some (.string "a") ∧ globals.current.find? "x" = none)) ∧
      (Renderer.empty.serve Natives.none (rendered ++ [.render program])).1 =
        [.error (.nullOperand .add .null .string), .ok "a+", .ok "a+"] := by
  intro program insertions rendered
  have hsame : Request.insertions rendered = Request.insertions insertions := rfl
  have hdistinct : ((Request.insertions insertions).flatMap Insertion.bound
      |>.map Prod.fst).Nodup := by decide
  obtain ⟨-, -, -, -, hglobals, hrender⟩ := session_history Natives.none insertions
  obtain ⟨globals, houter, hbound, -⟩ := hglobals hdistinct
  refine ⟨hsame, hdistinct, ⟨globals, houter, ?_, ?_⟩, ?_⟩
  · exact (hbound _ _).mpr List.mem_cons_self
  · refine Option.eq_none_iff_forall_ne_some.mpr fun value hvalue => ?_
    have hname : "x" ∈ ((Request.insertions insertions).flatMap Insertion.bound).map Prod.fst :=
      List.mem_map.mpr ⟨("x", value), (hbound _ _).mp hvalue, rfl⟩
    exact absurd hname (by decide)
  · rw [hrender rendered program hsame]
    rfl

end Renderer

end Templating
