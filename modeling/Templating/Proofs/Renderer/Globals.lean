import Templating.Proofs.Scope.Binding
import Templating.Renderer

/-!
# The global scope of a renderer

Results:
1. `declareAll_of_nodup`: names that are distinct and not yet bound can all be declared.
   `sorted_declareAll`: the scope stays sorted.
2. `globals_of_nodup`: a renderer whose bindings have distinct names has a global scope, which binds
   these names and no others.
3. `bindings_insertAll`: inserting data adds a binding for each member. `find?_insertAll`: so each
   name is bound to the value of its member.
-/

namespace Templating

/-- Names that are distinct and not yet bound in the current scope can all be declared. Outer scopes
stay as they are. -/
theorem Chain.declareAll_of_nodup (chain : Chain) {bindings : List (String × Value)}
    (hdistinct : (bindings.map Prod.fst).Nodup)
    (hfree : ∀ field ∈ bindings, chain.current.find? field.1 = none) :
    ∃ after, chain.declareAll bindings = .ok after ∧ after.outer = chain.outer ∧
      ∀ name, after.current.find? name =
        (Fields.find? bindings name).or (chain.current.find? name) := by
  induction bindings generalizing chain with
  | nil => exact ⟨chain, rfl, rfl, fun _ => rfl⟩
  | cons field rest ih =>
    obtain ⟨name, value⟩ := field
    obtain ⟨hname, hrest⟩ := List.nodup_cons.mp hdistinct
    have hunbound : chain.current.binds name = false := by
      rw [Scope.binds, hfree _ List.mem_cons_self]
      rfl
    have hdeclare : chain.declare name value =
        .ok { chain with current := chain.current.bind name value } := by
      rw [declare, hunbound]
      rfl
    have hne : ∀ field ∈ rest, field.1 ≠ name := by
      rintro field hfield rfl
      exact hname (List.mem_map.mpr ⟨field, hfield, rfl⟩)
    obtain ⟨after, hafter, houter, hfind⟩ :=
      ih { chain with current := chain.current.bind name value } hrest (by
        intro field hfield
        rw [Scope.find?_bind, if_neg (hne field hfield)]
        exact hfree field (List.mem_cons_of_mem _ hfield))
    refine ⟨after, ?_, houter, fun other => ?_⟩
    · rw [declareAll, hdeclare]
      exact hafter
    · rw [hfind, Scope.find?_bind, Fields.find?_cons]
      by_cases hother : other = name
      · subst hother
        rw [if_pos rfl, if_pos rfl, Fields.find?_eq_none_of_not_mem hname]
        rfl
      · rw [if_neg hother, if_neg hother]

/-- Declarations keep the current scope sorted. -/
theorem Chain.sorted_declareAll {chain after : Chain} {bindings : List (String × Value)}
    (h : chain.declareAll bindings = .ok after) (hsorted : Fields.Sorted chain.current) :
    Fields.Sorted after.current := by
  induction bindings generalizing chain with
  | nil =>
    cases h
    exact hsorted
  | cons field rest ih =>
    obtain ⟨name, value⟩ := field
    rw [declareAll] at h
    split at h
    next middle hmiddle =>
      refine ih h ?_
      unfold declare at hmiddle
      split at hmiddle
      · cases hmiddle
      · cases hmiddle
        exact hsorted.insert name value
    next => cases h

namespace Renderer

/-- A renderer whose bindings have distinct names has a global scope, which binds these names and no
others. -/
theorem globals_of_nodup (renderer : Renderer) (hdistinct : renderer.names.Nodup) :
    ∃ chain, renderer.globals = .ok chain ∧ chain.depth = 1 ∧
      ∀ i name, chain.binding i name =
        if i = 0 then Fields.find? renderer.bindings name else none := by
  obtain ⟨chain, hchain, houter, hfind⟩ :=
    Chain.empty.declareAll_of_nodup hdistinct fun _ _ => rfl
  refine ⟨chain, hchain, ?_, fun i name => ?_⟩
  · rw [Chain.depth, Chain.scopes, houter]
    rfl
  · rw [Chain.binding, Chain.scopes, houter]
    cases i with
    | zero => exact (hfind name).trans Option.or_none
    | succ i => rfl

theorem bindings_insertAll (renderer : Renderer) (members : List (String × Json)) :
    (renderer.insertAll members).bindings =
      renderer.bindings ++ members.map fun member => (member.1, Value.ofJson member.2) := by
  induction members generalizing renderer with
  | nil => exact (List.append_nil _).symm
  | cons member rest ih =>
    have hinsert : renderer.insertAll (member :: rest) =
        (renderer.insertJson member.1 member.2).insertAll rest := rfl
    rw [hinsert, ih]
    exact List.append_assoc _ _ _

theorem names_insertAll (members : List (String × Json)) :
    (empty.insertAll members).names = members.map Prod.fst := by
  rw [names, bindings_insertAll]
  simp [empty]

theorem find?_insertAll (members : List (String × Json)) (name : String) :
    Fields.find? (empty.insertAll members).bindings name =
      (Fields.find? members name).map Value.ofJson := by
  rw [bindings_insertAll]
  exact Fields.find?_map Value.ofJson members name

end Renderer

end Templating
