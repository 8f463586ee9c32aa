import Templating.Proofs.Evaluation.Basic
import Templating.Proofs.Node.Position

/-!
# Replacing a part of a tree

A part of a tree is replaced by another one whose evaluation `Follows` that of the part: it does the
same, or it fails with one of some given errors. The relation is inherited along the construction of
evaluations, so each kind of node is looked at once. Without any such errors two evaluations are the
same if one follows the other.

Results:
1. `Evaluation.Follows.bind` and its siblings: composed evaluations.
2. `follows_setPart`: if a part follows another one, so does the node around it.
3. `follows_replaceAt`, `evaluate_replaceAt`: so does the whole tree, if both parts look alike from
   outside.
-/

namespace Templating

/-! ## Definitions -/

/-- Run in any chain, the first evaluation does exactly what the second one does, or it fails with
one of the given errors. -/
def Evaluation.Follows {α : Type} (refusal : RuntimeError → Prop)
    (changed original : Evaluation α) : Prop :=
  ∀ chain, changed.start chain = original.start chain ∨
    ∃ error, refusal error ∧ (changed.start chain).1 = .error error

/-- Two nodes look alike from outside: they have one kind, and identifiers are the same. -/
def Node.Alike (changed original : Node) : Prop :=
  changed.kind = original.kind ∧ (original.kind = .identifier → changed = original)

/-! ## 1. Composed evaluations -/

namespace Evaluation.Follows

variable {α β : Type} {refusal : RuntimeError → Prop}

theorem refl (evaluation : Evaluation α) : evaluation.Follows refusal evaluation :=
  fun _ => Or.inl rfl

theorem mono {refusal' : RuntimeError → Prop} {changed original : Evaluation α}
    (h : changed.Follows refusal original) (hmono : ∀ error, refusal error → refusal' error) :
    changed.Follows refusal' original := by
  intro chain
  rcases h chain with hsame | ⟨error, herror, hfails⟩
  · exact Or.inl hsame
  · exact Or.inr ⟨error, hmono error herror, hfails⟩

theorem throw {error : RuntimeError} (herror : refusal error) (original : Evaluation α) :
    (MonadExcept.throw error : Evaluation α).Follows refusal original :=
  fun _ => Or.inr ⟨error, herror, rfl⟩

theorem bind {changed original : Evaluation α} {changedNext next : α → Evaluation β}
    (hfirst : changed.Follows refusal original)
    (hnext : ∀ value, (changedNext value).Follows refusal (next value)) :
    (changed >>= changedNext).Follows refusal (original >>= next) := by
  intro chain
  rw [start_bind, start_bind]
  rcases hfirst chain with hsame | ⟨error, herror, hfails⟩
  · rw [hsame]
    obtain ⟨result, after⟩ := original.start chain
    cases result with
    | error error => exact Or.inl rfl
    | ok value => exact hnext value after
  · right
    refine ⟨error, herror, ?_⟩
    generalize changed.start chain = run at hfails ⊢
    obtain ⟨result, after⟩ := run
    obtain rfl : result = .error error := hfails
    rfl

/-- What comes after an evaluation is the same for both. -/
theorem before {changed original : Evaluation α} (h : changed.Follows refusal original)
    (next : α → Evaluation β) : (changed >>= next).Follows refusal (original >>= next) :=
  h.bind fun value => refl (next value)

/-- What comes before an evaluation is the same for both. -/
theorem after (first : Evaluation α) {changed original : α → Evaluation β}
    (h : ∀ value, (changed value).Follows refusal (original value)) :
    (first >>= changed).Follows refusal (first >>= original) :=
  (refl first).bind h

theorem inChild {changed original : Evaluation α} (h : changed.Follows refusal original) :
    changed.inChild.Follows refusal original.inChild := by
  intro chain
  rcases h chain.push with hsame | ⟨error, herror, hfails⟩
  · left
    rw [start_inChild, start_inChild, hsame]
  · exact Or.inr ⟨error, herror, hfails⟩

theorem loopPasses {name : String} {changed original : Evaluation String}
    (h : changed.Follows refusal original) (length index : Nat) (items : List Value) :
    (loopPasses name changed length index items).Follows refusal
      (loopPasses name original length index items) := by
  induction items generalizing index with
  | nil => exact refl _
  | cons item rest ih =>
    rw [Templating.loopPasses, Templating.loopPasses]
    refine bind ?_ fun text => (ih (index + 1)).before _
    unfold loopPass
    exact after _ fun _ => after _ fun _ => h

/-- Where no errors are given, the evaluations are the same. -/
theorem eq {changed original : Evaluation α} (h : changed.Follows (fun _ => False) original) :
    changed = original := by
  funext chain
  rcases h chain with hsame | ⟨_, hnone, -⟩
  · exact hsame
  · exact hnone.elim

end Evaluation.Follows

section

variable {natives : Natives} {refusal : RuntimeError → Prop} {changed original : Node}

theorem evaluateBlock_follows (h : (changed.evaluate natives).Follows refusal
    (original.evaluate natives)) {body : List Node} {i : Nat} (hi : body[i]? = some original) :
    (evaluateBlock natives (body.set i changed)).Follows refusal (evaluateBlock natives body) := by
  induction body generalizing i with
  | nil => cases hi
  | cons statement rest ih =>
    cases i with
    | zero =>
      obtain rfl : statement = original := Option.some.inj hi
      rw [List.set_cons_zero, evaluateBlock, evaluateBlock]
      exact h.before _
    | succ i =>
      rw [List.set_cons_succ, evaluateBlock, evaluateBlock]
      exact Evaluation.Follows.after _ fun value => (ih hi).before _

theorem evaluateAll_follows (h : (changed.evaluate natives).Follows refusal
    (original.evaluate natives)) {nodes : List Node} {i : Nat} (hi : nodes[i]? = some original) :
    (evaluateAll natives (nodes.set i changed)).Follows refusal (evaluateAll natives nodes) := by
  induction nodes generalizing i with
  | nil => cases hi
  | cons node rest ih =>
    cases i with
    | zero =>
      obtain rfl : node = original := Option.some.inj hi
      rw [List.set_cons_zero, evaluateAll, evaluateAll]
      exact h.before _
    | succ i =>
      rw [List.set_cons_succ, evaluateAll, evaluateAll]
      exact Evaluation.Follows.after _ fun value => (ih hi).before _

end

namespace Node

/-- A replacement below the root of a part does not show from outside. -/
theorem alike_replaceAt (node : Node) (step : Step) (rest : Position) (new : Node) :
    (node.replaceAt (step :: rest) new).Alike node := by
  refine ⟨replaceAt_kind node step rest new, fun hkind => ?_⟩
  cases node with
  | identifier name => exact replaceAt_leaf rfl step rest new
  | _ => cases hkind

theorem Alike.target {changed original : Node} (h : changed.Alike original) :
    changed.target = original.target := by
  obtain ⟨hkind, hidentifier⟩ := h
  cases original with
  | identifier name => rw [hidentifier rfl]
  | _ =>
    cases changed with
    | identifier name => cases hkind
    | _ =>
      first
      | rfl
      | cases hkind

end Node

/-! ## 2. One step -/

section

variable {natives : Natives} {refusal : RuntimeError → Prop} {changed original : Node}

/-- If a part follows another one in everything that the node around it makes use of, the node
follows the one with the other part. A target is not evaluated but bound, and a property may be
taken for a name. -/
theorem follows_setPart {node : Node} {step : Step} (hstep : node.part? step = some original)
    (hpart : (changed.evaluate natives).Follows refusal (original.evaluate natives))
    (htarget : step.isTarget = true → (Evaluation.ofExcept changed.target).Follows refusal
      (Evaluation.ofExcept original.target))
    (hkey : ∀ computed, (Node.key natives computed changed).Follows refusal
      (Node.key natives computed original)) :
    ((node.setPart step changed).evaluate natives).Follows refusal (node.evaluate natives) := by
  cases node with
  | program body =>
    cases step with
    | statement i =>
      rw [Node.setPart, Node.evaluate, Node.evaluate]
      exact (evaluateBlock_follows hpart hstep).before _
    | _ => cases hstep
  | set assignee value =>
    cases step with
    | assignee =>
      cases hstep
      rw [Node.setPart, Node.evaluate, Node.evaluate]
      exact (htarget rfl).before _
    | value =>
      cases hstep
      rw [Node.setPart, Node.evaluate, Node.evaluate]
      exact Evaluation.Follows.after _ fun name => hpart.before _
    | _ => cases hstep
  | branch test body alternate =>
    cases step with
    | test =>
      cases hstep
      rw [Node.setPart, Node.evaluate, Node.evaluate]
      exact hpart.before _
    | consequent i =>
      rw [Node.setPart, Node.evaluate, Node.evaluate]
      refine Evaluation.Follows.after _ fun value => ?_
      split
      · exact (evaluateBlock_follows hpart hstep).before _
      · exact Evaluation.Follows.refl _
      · exact Evaluation.Follows.refl _
    | alternate i =>
      rw [Node.setPart, Node.evaluate, Node.evaluate]
      refine Evaluation.Follows.after _ fun value => ?_
      split
      · exact Evaluation.Follows.refl _
      · exact (evaluateBlock_follows hpart hstep).before _
      · exact Evaluation.Follows.refl _
    | _ => cases hstep
  | loop target iterable body =>
    cases step with
    | target =>
      cases hstep
      rw [Node.setPart, Node.evaluate, Node.evaluate]
      exact (htarget rfl).before _
    | iterable =>
      cases hstep
      rw [Node.setPart, Node.evaluate, Node.evaluate]
      exact Evaluation.Follows.after _ fun name => hpart.before _
    | loopBody i =>
      rw [Node.setPart, Node.evaluate, Node.evaluate]
      refine Evaluation.Follows.after _ fun name => Evaluation.Follows.after _ fun value => ?_
      split
      · have hbody := evaluateBlock_follows hpart hstep
        exact (hbody.loopPasses _ _ _).inChild.before _
      · exact Evaluation.Follows.refl _
    | _ => cases hstep
  | call callee args =>
    cases step with
    | callee =>
      cases hstep
      rw [Node.setPart, Node.evaluate, Node.evaluate]
      exact Evaluation.Follows.after _ fun values => hpart.before _
    | argument i =>
      rw [Node.setPart, Node.evaluate, Node.evaluate]
      exact (evaluateAll_follows hpart hstep).before _
    | _ => cases hstep
  | member object property computed =>
    cases step with
    | object =>
      cases hstep
      rw [Node.setPart, Node.evaluate_member, Node.evaluate_member]
      refine Evaluation.Follows.after _ fun key => ?_
      unfold Node.access
      split
      · exact hpart.before _
      · exact Evaluation.Follows.refl _
    | property =>
      cases hstep
      rw [Node.setPart, Node.evaluate_member, Node.evaluate_member]
      exact (hkey computed).before _
    | _ => cases hstep
  | unary operator argument =>
    cases step with
    | operand =>
      cases hstep
      rw [Node.setPart, Node.evaluate, Node.evaluate]
      exact hpart.before _
    | _ => cases hstep
  | binary operator left right =>
    cases step with
    | left =>
      cases hstep
      rw [Node.setPart, Node.evaluate, Node.evaluate]
      exact hpart.before _
    | right =>
      cases hstep
      rw [Node.setPart, Node.evaluate, Node.evaluate]
      exact Evaluation.Follows.after _ fun value => hpart.before _
    | _ => cases hstep
  | numeric | string | boolean | identifier | unknown => cases hstep

/-- Parts that look alike give keys alike. -/
theorem follows_key (halike : changed.Alike original)
    (hpart : (changed.evaluate natives).Follows refusal (original.evaluate natives))
    (computed : Bool) :
    (Node.key natives computed changed).Follows refusal (Node.key natives computed original) := by
  by_cases hkind : original.kind = .identifier
  · rw [halike.2 hkind]
    exact Evaluation.Follows.refl _
  · rw [Node.key_of_evaluated natives (Or.inr hkind),
      Node.key_of_evaluated natives (Or.inr (halike.1 ▸ hkind))]
    exact hpart

theorem follows_setPart_of_alike {node : Node} {step : Step}
    (hstep : node.part? step = some original) (halike : changed.Alike original)
    (hpart : (changed.evaluate natives).Follows refusal (original.evaluate natives)) :
    ((node.setPart step changed).evaluate natives).Follows refusal (node.evaluate natives) := by
  refine follows_setPart hstep hpart (fun _ => ?_) (follows_key halike hpart)
  rw [halike.target]
  exact Evaluation.Follows.refl _

/-! ## 3. Any position -/

/-- If a subtree follows another one and looks like it, so does the whole tree follow the one with
the other subtree. -/
theorem follows_replaceAt {node : Node} {position : Position}
    (hposition : node.at? position = some original) (halike : changed.Alike original)
    (hpart : (changed.evaluate natives).Follows refusal (original.evaluate natives)) :
    ((node.replaceAt position changed).evaluate natives).Follows refusal
      (node.evaluate natives) := by
  induction position generalizing node with
  | nil =>
    cases hposition
    exact hpart
  | cons step rest ih =>
    obtain ⟨part, hstep, hrest⟩ := Option.bind_eq_some_iff.mp hposition
    rw [Node.replaceAt, hstep]
    refine follows_setPart_of_alike hstep ?_ (ih hrest)
    cases rest with
    | nil =>
      cases hrest
      exact halike
    | cons next rest => exact part.alike_replaceAt next rest changed

/-- A subtree may be replaced by one that looks like it and is evaluated alike. -/
theorem evaluate_replaceAt {node : Node} {position : Position}
    (hposition : node.at? position = some original) (halike : changed.Alike original)
    (hsame : changed.evaluate natives = original.evaluate natives) :
    (node.replaceAt position changed).evaluate natives = node.evaluate natives := by
  refine (follows_replaceAt hposition halike ?_).eq
  rw [hsame]
  exact Evaluation.Follows.refl _

end

end Templating
