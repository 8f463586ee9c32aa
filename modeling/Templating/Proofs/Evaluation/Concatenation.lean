import Templating.Proofs.Evaluation.Order

/-!
# Blocks and concatenation

Beginning with a string, `+` does what a block does: it joins texts. The two take the values of
their nodes in the same order, so they agree on errors and bindings as well. They part on null,
which a block leaves out and `+` refuses.

Results:
1. `neverNull_cons_iff`: null is no value of a list of nodes if it is none of its head and none of
   its tail, in the chain that the head leaves.
2. `add_string`: `+` joins the text of whatever follows a string.
3. `start_concatenation_of_string`: the step of an induction over the operands, with any node for
   those already joined.
4. `start_concatenation`: a concatenation is the block of its operands.
-/

namespace Templating

/-! ## Definitions -/

/-- The nodes joined by `+` from left to right. -/
def Node.concatenation (first : Node) (rest : List Node) : Node :=
  rest.foldl (.binary .add) first

@[simp] theorem Node.concatenation_nil (first : Node) : first.concatenation [] = first := rfl

@[simp] theorem Node.concatenation_cons (first node : Node) (rest : List Node) :
    first.concatenation (node :: rest) = (binary .add first node).concatenation rest := rfl

/-- None of the nodes has the value null when they are evaluated in turn, as far as they succeed. -/
def NeverNull (natives : Natives) (nodes : List Node) (chain : Chain) : Prop :=
  ∀ reached values last, reached <+: nodes → InTurn natives reached chain values last →
    .null ∉ values

variable {natives : Natives}

/-! ## Lists of nodes without null -/

theorem neverNull_cons_iff {node : Node} {rest : List Node} {chain : Chain} :
    NeverNull natives (node :: rest) chain ↔
      ∀ value after, (node.evaluate natives).start chain = (.ok value, after) →
        value ≠ .null ∧ NeverNull natives rest after := by
  constructor
  · intro h value after hnode
    constructor
    · rintro rfl
      exact h [node] [.null] after (List.prefix_append [node] rest) (.single hnode)
        List.mem_cons_self
    · intro reached values last hreached hturn hnull
      exact h (node :: reached) (value :: values) last ((List.prefix_cons_inj node).mpr hreached)
        (.next hnode hturn) (List.mem_cons_of_mem value hnull)
  · intro h reached values last hreached hturn
    cases hturn with
    | done => exact List.not_mem_nil
    | next hnode hrest =>
      obtain ⟨rfl, hprefix⟩ := List.cons_prefix_cons.mp hreached
      obtain ⟨hvalue, hnulls⟩ := h _ _ hnode
      rw [List.mem_cons, not_or]
      exact ⟨Ne.symm hvalue, hnulls _ _ _ hprefix hrest⟩

theorem NeverNull.of_ok {node : Node} {rest : List Node} {chain after : Chain} {value : Value}
    (hnode : (node.evaluate natives).start chain = (.ok value, after)) (hvalue : value ≠ .null)
    (hrest : NeverNull natives rest after) : NeverNull natives (node :: rest) chain := by
  refine neverNull_cons_iff.mpr fun other last hother => ?_
  rw [hnode] at hother
  cases hother
  exact ⟨hvalue, hrest⟩

/-- After a node that fails, no other is evaluated. -/
theorem NeverNull.of_error {node : Node} {chain after : Chain} {error : RuntimeError}
    (hnode : (node.evaluate natives).start chain = (.error error, after)) (rest : List Node) :
    NeverNull natives (node :: rest) chain := by
  refine neverNull_cons_iff.mpr fun value last hvalue => ?_
  rw [hnode] at hvalue
  cases hvalue

/-! ## Joining by `+` -/

theorem add_string (text : String) {value : Value} (h : value ≠ .null) :
    BinaryOperator.add.apply (.string text) value = .ok (.string (text ++ value.print)) := by
  cases value with
  | null => exact absurd rfl h
  | _ => rfl

/-- What the operands joined so far raise, the concatenation raises. -/
theorem start_concatenation_of_error {first : Node} {rest : List Node} {chain last : Chain}
    {error : RuntimeError} (h : (first.evaluate natives).start chain = (.error error, last)) :
    ((first.concatenation rest).evaluate natives).start chain = (.error error, last) := by
  induction rest generalizing first with
  | nil => exact h
  | cons node rest ih =>
    rw [Node.concatenation_cons]
    refine ih ?_
    rw [Node.evaluate, Evaluation.start_bind, h]

/-- To the text joined so far, a concatenation adds the block of what follows. -/
theorem start_concatenation_of_string {first : Node} {rest : List Node} {chain middle : Chain}
    {text : String} (hfirst : (first.evaluate natives).start chain = (.ok (.string text), middle))
    (hrest : NeverNull natives rest middle) :
    ((first.concatenation rest).evaluate natives).start chain =
      ((fun joined => Value.string (text ++ joined)) <$> evaluateBlock natives rest).start
        middle := by
  induction rest generalizing first text middle with
  | nil =>
    rw [Node.concatenation_nil, evaluateBlock, map_pure, String.append_empty]
    exact hfirst
  | cons node rest ih =>
    rw [evaluateBlock, map_bind, Evaluation.start_bind]
    cases hnode : (node.evaluate natives).start middle with
    | mk result after =>
      cases result with
      | error error =>
        have hadd : ((Node.binary .add first node).evaluate natives).start chain =
            (.error error, after) := by
          rw [Node.evaluate, Evaluation.start_bind, hfirst]
          simp only [Evaluation.start_bind]
          rw [hnode]
        rw [Node.concatenation_cons]
        exact start_concatenation_of_error hadd
      | ok value =>
        obtain ⟨hvalue, hnulls⟩ := neverNull_cons_iff.mp hrest value after hnode
        have hadd : ((Node.binary .add first node).evaluate natives).start chain =
            (.ok (.string (text ++ value.print)), after) := by
          rw [Node.evaluate, Evaluation.start_bind, hfirst]
          simp only [Evaluation.start_bind]
          rw [hnode, ← add_string text hvalue]
          rfl
        rw [Node.concatenation_cons, ih hadd hnulls]
        simp only [map_eq_pure_bind, bind_assoc, pure_bind, String.append_assoc]

/-- A concatenation gives the text or the error of the block of its operands and leaves the same
chain, if the first of them is a string and none is null, as far as they succeed. -/
theorem start_concatenation (natives : Natives) (first : Node) (rest : List Node) (chain : Chain)
    (hfirst : ∀ value after, (first.evaluate natives).start chain = (.ok value, after) →
      value.kind = .string)
    (hnulls : NeverNull natives (first :: rest) chain) :
    ((first.concatenation rest).evaluate natives).start chain =
      (Value.string <$> evaluateBlock natives (first :: rest)).start chain := by
  rw [evaluateBlock, map_bind, Evaluation.start_bind]
  cases hrun : (first.evaluate natives).start chain with
  | mk result after =>
    cases result with
    | error error => exact start_concatenation_of_error hrun
    | ok value =>
      obtain ⟨text, rfl⟩ := Value.kind_eq_string (hfirst value after hrun)
      obtain ⟨-, hrest⟩ := neverNull_cons_iff.mp hnulls _ after hrun
      rw [start_concatenation_of_string hrun hrest]
      simp only [map_eq_pure_bind, bind_assoc, pure_bind]
      rfl

/-- A number, an object and a function are joined to a string before an unknown node fails. -/
theorem start_concatenation_mixed :
    let chain := ((Chain.empty.set "n" (.numeric (Number.ofInt 3))).set "o"
      (.object (Fields.ofList [("k", .null)]))).set "f" (.native "f" 0)
    let rest : List Node := [.identifier "n", .identifier "o", .identifier "f", .unknown]
    ((Node.concatenation (.string "a") rest).evaluate Natives.none).start chain =
      (Value.string <$> evaluateBlock Natives.none (.string "a" :: rest)).start chain := by
  refine start_concatenation Natives.none (.string "a") _ _ ?_ ?_
  · intro value after h
    cases h
    rfl
  · refine .of_ok rfl Value.noConfusion ?_
    refine .of_ok rfl Value.noConfusion ?_
    refine .of_ok rfl Value.noConfusion ?_
    refine .of_ok rfl Value.noConfusion ?_
    exact .of_error rfl []

end Templating
