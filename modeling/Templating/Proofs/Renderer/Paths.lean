import Templating.Proofs.Evaluation.Basic
import Templating.Proofs.Renderer.Globals
import Templating.Proofs.Value.Json

/-!
# Data read back by paths

A template reaches into data by a name and accesses to fields, each of which is spelled with a fixed
name or with a computed one. What it reads is the data at this path, whatever its names are.

* `Json.follow?` is the data at a path of names.
* `Selector` is an access in either spelling, `Node.path` a name with accesses after it.

Results:
1. `evaluate_select`: both spellings of an access read the same member.
2. `member_ofJson`: the members of data are its fields, before any built-in member.
3. `evaluate_follow`, `evaluate_missing`: accesses read the data at their path, up to the first
   field that an object lacks.
4. `evaluate_path`: reading by a path from the members that a renderer was filled with.
-/

namespace Templating

/-! ## Definitions -/

namespace Json

/-- What an object holds under a name. The last of several members of one name counts. -/
def field? : Json → String → Option Json
  | object members, name => Fields.find? (Fields.ofList members) name
  | _, _ => none

/-- The data that names lead to, each of them through an object. -/
def follow? : Json → List String → Option Json
  | json, [] => some json
  | json, name :: rest => (json.field? name).bind (·.follow? rest)

end Json

/-- An access to a field, by a fixed name or by a computed one. -/
inductive Selector where
  | fixed (name : String)
  | computed (name : String)
  deriving DecidableEq, Repr

def Selector.name : Selector → String
  | fixed name => name
  | computed name => name

namespace Node

def select (object : Node) : Selector → Node
  | .fixed name => object.field name
  | .computed name => object.index (.string name)

/-- A name with accesses after it, from left to right. -/
def path (first : String) (selectors : List Selector) : Node :=
  selectors.foldl select (identifier first)

/-! ## 1. Accesses -/

variable {natives : Natives} {node : Node} {chain : Chain}

/-- Both spellings of an access read the same member. -/
theorem evaluate_select (natives : Natives) (node : Node) (selector : Selector) :
    (node.select selector).evaluate natives =
      node.evaluate natives >>= fun object =>
        Evaluation.ofExcept (object.member selector.name) := by
  cases selector with
  | fixed name => rfl
  | computed name => rfl

theorem start_select {value : Value} (h : (node.evaluate natives).start chain = (.ok value, chain))
    (selector : Selector) :
    ((node.select selector).evaluate natives).start chain = (value.member selector.name, chain) := by
  rw [evaluate_select, Evaluation.start_bind, h]
  rfl

/-- What follows a failure is not evaluated. -/
theorem start_selectors_error {error : RuntimeError}
    (h : (node.evaluate natives).start chain = (.error error, chain)) (selectors : List Selector) :
    ((selectors.foldl select node).evaluate natives).start chain = (.error error, chain) := by
  induction selectors generalizing node with
  | nil => exact h
  | cons selector rest ih =>
    refine ih ?_
    rw [evaluate_select, Evaluation.start_bind, h]

end Node

/-! ## 2. Members of data -/

namespace Value

/-- The members of an object of data are its fields, whatever they are called. -/
theorem member_ofJson (members : List (String × Json)) (name : String) :
    (ofJson (.object members)).member name =
      match (Json.object members).field? name with
      | some json => .ok (ofJson json)
      | none => .error (.noSuchProperty .object name) := by
  have hfield : Fields.find? (Fields.ofList (ofJsonMembers members)) name =
      ((Json.object members).field? name).map ofJson := by
    rw [ofJsonMembers_eq_map, Fields.ofList_map, Fields.find?_map, Json.field?]
  rw [ofJson, record, member]
  simp only [hfield]
  cases (Json.object members).field? name <;> rfl

end Value

/-! ## 3. Paths -/

namespace Json

/-- Only objects have fields. -/
theorem eq_object_of_field? {json found : Json} {name : String}
    (h : json.field? name = some found) : ∃ members, json = object members := by
  cases json with
  | object members => exact ⟨members, rfl⟩
  | _ => cases h

end Json

namespace Node

variable {natives : Natives} {node : Node} {chain : Chain} {json found : Json}

/-- Accesses to data read the data at their path. -/
theorem evaluate_follow
    (h : (node.evaluate natives).start chain = (.ok (Value.ofJson json), chain))
    {selectors : List Selector} (hfound : json.follow? (selectors.map Selector.name) = some found) :
    ((selectors.foldl select node).evaluate natives).start chain =
      (.ok (Value.ofJson found), chain) := by
  induction selectors generalizing node json with
  | nil =>
    cases hfound
    exact h
  | cons selector rest ih =>
    obtain ⟨next, hnext, hrest⟩ := Option.bind_eq_some_iff.mp hfound
    obtain ⟨members, rfl⟩ := Json.eq_object_of_field? hnext
    refine ih ?_ hrest
    rw [start_select h, Value.member_ofJson, hnext]

/-- The first access to a field that an object lacks fails, and with it all that follow. -/
theorem evaluate_missing
    (h : (node.evaluate natives).start chain = (.ok (Value.ofJson json), chain))
    {before : List Selector} {members : List (String × Json)}
    (hbefore : json.follow? (before.map Selector.name) = some (.object members))
    {selector : Selector} (hmissing : (Json.object members).field? selector.name = none)
    (after : List Selector) :
    (((before ++ selector :: after).foldl select node).evaluate natives).start chain =
      (.error (.noSuchProperty .object selector.name), chain) := by
  rw [List.foldl_append, List.foldl_cons]
  refine start_selectors_error ?_ after
  rw [start_select (evaluate_follow h hbefore), Value.member_ofJson, hmissing]

/-! ## 4. Rendering -/

/-- In the global scope of a renderer that was filled with the members of an object, a path reads
the data that it leads to, and fails at the first access to a field that an object lacks. -/
theorem evaluate_path (natives : Natives) {members : List (String × Json)}
    (hdistinct : (members.map Prod.fst).Nodup) (first : String) (selectors : List Selector) :
    ∃ chain, (Renderer.empty.insertAll members).globals = .ok chain ∧
      (∀ json, (Json.object members).follow? (first :: selectors.map Selector.name) = some json →
        ((path first selectors).evaluate natives).start chain = (.ok (Value.ofJson json), chain)) ∧
      ∀ before selector after inner, selectors = before ++ selector :: after →
        (Json.object members).follow? (first :: before.map Selector.name) = some (.object inner) →
        (Json.object inner).field? selector.name = none →
        ((path first selectors).evaluate natives).start chain =
          (.error (.noSuchProperty .object selector.name), chain) := by
  have hbindings := Renderer.empty.bindings_insertAll members
  rw [Renderer.empty, List.nil_append] at hbindings
  have hnames : (Renderer.empty.insertAll members).names = members.map Prod.fst := by
    rw [Renderer.names, Renderer.empty, hbindings, List.map_map]
    rfl
  obtain ⟨chain, hchain, -, hbinding⟩ :=
    (Renderer.empty.insertAll members).globals_of_nodup (hnames ▸ hdistinct)
  -- The first name is bound to the member of this name.
  have hfirst : ∀ {json}, (Json.object members).field? first = some json →
      ((identifier first).evaluate natives).start chain = (.ok (Value.ofJson json), chain) := by
    intro json hjson
    have hvalue : chain.binding 0 first = some (Value.ofJson json) := by
      rw [Json.field?, Fields.find?_ofList hdistinct] at hjson
      rw [hbinding, if_pos rfl, Renderer.empty, hbindings, Fields.find?_map, hjson]
      rfl
    have hlookup : chain.lookup first = Value.ofJson json := by
      have hhome := (Chain.home_of_binds (Option.isSome_of_eq_some hvalue)).2
      rw [Chain.lookup_eq, Nat.le_zero.mp hhome, hvalue]
      rfl
    rw [← hlookup]
    rfl
  refine ⟨chain, hchain, fun json hjson => ?_, ?_⟩
  · obtain ⟨next, hnext, hrest⟩ := Option.bind_eq_some_iff.mp hjson
    exact evaluate_follow (hfirst hnext) hrest
  · rintro before selector after inner rfl hbefore hmissing
    obtain ⟨next, hnext, hrest⟩ := Option.bind_eq_some_iff.mp hbefore
    exact evaluate_missing (hfirst hnext) hrest hmissing after

/-- Fields with the names of built-in members, in both spellings, and one that is not there. -/
theorem evaluate_path_builtin_names :
    let members := [("o", Json.object [("length", .object [("upper", .integer 7)])])]
    (members.map Prod.fst).Nodup ∧ ∃ chain, (Renderer.empty.insertAll members).globals = .ok chain ∧
      ((path "o" [.fixed "length", .computed "upper"]).evaluate Natives.none).start chain =
        (.ok (.numeric (Number.ofInt 7)), chain) ∧
      ((path "o" [.fixed "length", .computed "strip", .fixed "x"]).evaluate Natives.none).start
        chain = (.error (.noSuchProperty .object "strip"), chain) := by
  intro members
  have hdistinct : (members.map Prod.fst).Nodup := by decide
  obtain ⟨chain, hchain, hfound, -⟩ :=
    evaluate_path Natives.none hdistinct "o" [.fixed "length", .computed "upper"]
  obtain ⟨other, hother, -, hmissing⟩ :=
    evaluate_path Natives.none hdistinct "o" [.fixed "length", .computed "strip", .fixed "x"]
  cases hchain.symm.trans hother
  refine ⟨hdistinct, chain, hchain, hfound (.integer 7) rfl, ?_⟩
  exact hmissing [.fixed "length"] (.computed "strip") [.fixed "x"] [("upper", .integer 7)] rfl rfl rfl

end Node

end Templating
