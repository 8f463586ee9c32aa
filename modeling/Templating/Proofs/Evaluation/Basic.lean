import Templating.Evaluation
import Templating.Proofs.Contract

/-!
# Running evaluations

What a run of a composed evaluation gives and leaves behind, said of the runs of its parts.

Results:
1. `start_bind`: the second of two evaluations runs where the first one succeeds; `start_inChild`
   and `start_loopPass` are its siblings for a scope of its own and for a pass of a loop.
2. `evaluate_member`: a member is evaluated key first, then object; `key_of_evaluated`: the key is
   the value of the property, unless it is a name.
3. `target_eq_ok_iff`, `target_of_kind_ne`: only an identifier can be bound.
4. `Value.kind_eq_string` and its siblings: the shape of a value of a given kind.
-/

namespace Templating

/-- The second of two evaluations runs in the chain that the first one leaves, if it succeeds. -/
theorem Evaluation.start_bind {α β : Type} (evaluation : Evaluation α) (next : α → Evaluation β)
    (chain : Chain) :
    (evaluation >>= next).start chain =
      match evaluation.start chain with
      | (.ok value, after) => (next value).start after
      | (.error error, after) => (.error error, after) := by
  unfold Evaluation.start
  rw [run_bind]
  obtain ⟨result, after⟩ := evaluation.run.run chain
  cases result with
  | ok value => rfl
  | error error => rfl

theorem Evaluation.start_inChild {α : Type} (evaluation : Evaluation α) (chain : Chain) :
    evaluation.inChild.start chain =
      ((evaluation.start chain.push).1, (evaluation.start chain.push).2.pop) := rfl

theorem start_loopPass (name : String) (body : Evaluation String) (index length : Nat)
    (item : Value) (chain : Chain) :
    (loopPass name body index length item).start chain =
      body.start ((chain.set "loop" (loopState index length)).set name item) := rfl

namespace Node

theorem target_eq_ok_iff {node : Node} {name : String} :
    node.target = .ok name ↔ node = .identifier name := by
  constructor
  · intro h
    cases node with
    | identifier other => cases h; rfl
    | _ => cases h
  · rintro rfl
    rfl

theorem kind_eq_identifier {node : Node} (h : node.kind = .identifier) :
    ∃ name, node = .identifier name := by
  cases node with
  | identifier name => exact ⟨name, rfl⟩
  | _ => cases h

/-- Every other node is refused as a target. -/
theorem target_of_kind_ne {node : Node} (h : node.kind ≠ .identifier) :
    node.target = .error (.invalidAssignmentTarget node.kind) := by
  cases node with
  | identifier name => exact absurd rfl h
  | _ => rfl

/-- The key of a member: the name of a property that is not computed, else its value. -/
def key (natives : Natives) : Bool → Node → Evaluation Value
  | false, .identifier name => pure (.string name)
  | _, property => property.evaluate natives

/-- A property that is not a name, or is computed, is evaluated. -/
theorem key_of_evaluated (natives : Natives) {computed : Bool} {property : Node}
    (h : computed = true ∨ property.kind ≠ .identifier) :
    key natives computed property = property.evaluate natives := by
  cases computed with
  | true => rfl
  | false =>
    cases property with
    | identifier name => exact absurd rfl (h.resolve_left Bool.false_ne_true)
    | _ => rfl

/-- The member of an object, for a given key. -/
def access (natives : Natives) (object : Node) (key : Value) : Evaluation Value :=
  match key with
  | .string name => do
    let object ← object.evaluate natives
    Evaluation.ofExcept (object.member name)
  | other => throw (.typeMismatch .propertyKey other.kind)

theorem evaluate_member (natives : Natives) (object property : Node) (computed : Bool) :
    (Node.member object property computed).evaluate natives =
      key natives computed property >>= access natives object := by
  cases computed with
  | true => cases property <;> rfl
  | false => cases property <;> rfl

end Node

namespace Value

variable {value : Value}

theorem kind_eq_string (h : value.kind = .string) : ∃ text, value = .string text := by
  cases value with
  | string text => exact ⟨text, rfl⟩
  | _ => cases h

theorem kind_eq_boolean (h : value.kind = .boolean) :
    value = .boolean true ∨ value = .boolean false := by
  cases value with
  | boolean b =>
    cases b with
    | true => exact Or.inl rfl
    | false => exact Or.inr rfl
  | _ => cases h

theorem kind_eq_array (h : value.kind = .array) : ∃ items, value = .array items := by
  cases value with
  | array items => exact ⟨items, rfl⟩
  | _ => cases h

theorem kind_eq_function (h : value.kind = .function) :
    (∃ name identity, value = .native name identity) ∨
      ∃ receiver method, value = .bound receiver method := by
  cases value with
  | native name identity => exact Or.inl ⟨name, identity, rfl⟩
  | bound receiver method => exact Or.inr ⟨receiver, method, rfl⟩
  | _ => cases h

end Value

end Templating
