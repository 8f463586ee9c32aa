import Templating.Proofs.Evaluation.Congruence

/-!
# Unknown nodes in a tree

A subtree that a program does not know is put somewhere in a tree. The evaluation of the changed
tree follows that of the original one: it does the same up to the point where it meets the unknown
node, and there it fails.

Results:
1. `follows_setPart_unknown`: a node with an unknown part follows the one with any other part.
2. `evaluate_replace_unknown`: a tree with an unknown node in it gives exactly what the tree without
   it gives, or fails because of the unknown node.
-/

namespace Templating

/-! ## Definitions -/

/-- The errors by which an unknown node makes itself known: when it is evaluated, and, where it
stands as a target, when it should be bound. -/
def Refusal (atTarget : Bool) (error : RuntimeError) : Prop :=
  error = .unknownNode ∨ (atTarget = true ∧ error = .invalidAssignmentTarget .unknown)

/-! ## 1. One step -/

/-- A node with an unknown part follows the one with any other part. -/
theorem follows_setPart_unknown {natives : Natives} {node part : Node} {step : Step}
    (hstep : node.part? step = some part) :
    ((node.setPart step .unknown).evaluate natives).Follows (Refusal step.isTarget)
      (node.evaluate natives) := by
  refine follows_setPart hstep ?_ (fun htarget => ?_) fun computed => ?_
  · rw [Node.evaluate]
    exact Evaluation.Follows.throw (Or.inl rfl) _
  · exact Evaluation.Follows.throw (Or.inr ⟨htarget, rfl⟩) _
  · have hkey : Node.key natives computed .unknown = throw .unknownNode := by
      cases computed <;> rfl
    rw [hkey]
    exact Evaluation.Follows.throw (Or.inl rfl) _

/-! ## 2. Any position -/

theorem isTarget_cons {step : Step} {rest : Position} (h : rest ≠ []) :
    Position.isTarget (step :: rest) = Position.isTarget rest := by
  rw [Position.isTarget, Position.isTarget, List.getLast?_cons_of_ne_nil h]

theorem replaceAt_follows (natives : Natives) (node : Node) (position : Position) :
    ((node.replaceAt position .unknown).evaluate natives).Follows (Refusal position.isTarget)
      (node.evaluate natives) := by
  induction position generalizing node with
  | nil =>
    rw [Node.replaceAt, Node.evaluate]
    exact Evaluation.Follows.throw (Or.inl rfl) _
  | cons step rest ih =>
    rw [Node.replaceAt]
    cases hpart : node.part? step with
    | none => exact Evaluation.Follows.refl _
    | some part =>
      -- Only the node directly above the hole sees that its part is unknown: to every other one the
      -- part looks as before.
      cases rest with
      | nil => exact follows_setPart_unknown hpart
      | cons next rest =>
        rw [isTarget_cons (List.cons_ne_nil next rest)]
        exact follows_setPart_of_alike hpart (part.alike_replaceAt next rest _) (ih part)

/-- Let any subtree be replaced by an unknown node. Run in any chain, the new tree gives the same
value or error as the old one and leaves the same bindings, or it fails because of the unknown node:
by evaluating it, or, only where the unknown node stands as the assignee of an assignment or the
variable of a loop, by binding it. -/
theorem evaluate_replace_unknown (natives : Natives) (node : Node) (position : Position)
    (chain : Chain) :
    let original := (node.evaluate natives).start chain
    let changed := ((node.replaceAt position .unknown).evaluate natives).start chain
    changed = original ∨ changed.1 = .error .unknownNode ∨
      (position.isTarget = true ∧ changed.1 = .error (.invalidAssignmentTarget .unknown)) := by
  rcases replaceAt_follows natives node position chain with hsame | ⟨error, herror, hfails⟩
  · exact Or.inl hsame
  · right
    rcases herror with rfl | ⟨htarget, rfl⟩
    · exact Or.inl hfails
    · exact Or.inr ⟨htarget, hfails⟩

end Templating
