import Templating.Proofs.Evaluation.Effect
import Templating.Proofs.Node.Names
import Templating.Proofs.Scope.Agreement

/-!
# Evaluations in lockstep

Two evaluations run in `Lockstep` if from related chains they give the same result, a value or an
error, and leave related chains behind. This is inherited along the construction of evaluations.

Results:
1. `Lockstep.bind`, `Lockstep.inChild`, `Lockstep.loopPasses`: lockstep of composed evaluations.
2. `evaluate_lockstep`: in chains that agree on the names that a tree mentions, up to a renaming,
   the tree and the renamed tree are evaluated in lockstep.
-/

namespace Templating

/-! ## Definitions -/

/-- From related chains both evaluations give the same result and leave related chains behind. -/
def Evaluation.Lockstep {α : Type} (related : Chain → Chain → Prop)
    (first second : Evaluation α) : Prop :=
  ∀ left right, related left right →
    (second.start right).1 = (first.start left).1 ∧
      related (first.start left).2 (second.start right).2

namespace Evaluation.Lockstep

/-! ## 1. Composed evaluations -/

variable {α β : Type} {related : Chain → Chain → Prop}

theorem ofExcept (result : Except RuntimeError α) :
    (Evaluation.ofExcept result).Lockstep related (Evaluation.ofExcept result) :=
  fun _ _ h => ⟨rfl, h⟩

theorem pure (value : α) :
    (Pure.pure value : Evaluation α).Lockstep related (Pure.pure value) :=
  fun _ _ h => ⟨rfl, h⟩

theorem throw (error : RuntimeError) :
    (MonadExcept.throw error : Evaluation α).Lockstep related (MonadExcept.throw error) :=
  fun _ _ h => ⟨rfl, h⟩

theorem bind {first second : Evaluation α} {firstNext secondNext : α → Evaluation β}
    (h : first.Lockstep related second)
    (hnext : ∀ value, (firstNext value).Lockstep related (secondNext value)) :
    (first >>= firstNext).Lockstep related (second >>= secondNext) := by
  intro left right hrelated
  rw [start_bind, start_bind]
  obtain ⟨hresult, hafter⟩ := h left right hrelated
  generalize first.start left = firstRun at hresult hafter ⊢
  generalize second.start right = secondRun at hresult hafter ⊢
  obtain ⟨firstResult, firstAfter⟩ := firstRun
  obtain ⟨secondResult, secondAfter⟩ := secondRun
  obtain rfl : secondResult = firstResult := hresult
  cases secondResult with
  | ok value => exact hnext value firstAfter secondAfter hafter
  | error error => exact ⟨rfl, hafter⟩

theorem update {first second : Chain → Chain}
    (h : ∀ left right, related left right → related (first left) (second right)) :
    (modify first : Evaluation Unit).Lockstep related (modify second) :=
  fun left right hrelated => ⟨rfl, h left right hrelated⟩

theorem inChild {first second : Evaluation α}
    (hpush : ∀ left right, related left right → related left.push right.push)
    (hpop : ∀ left right, related left right → related left.pop right.pop)
    (h : first.Lockstep related second) : first.inChild.Lockstep related second.inChild := by
  intro left right hrelated
  obtain ⟨hresult, hafter⟩ := h left.push right.push (hpush left right hrelated)
  exact ⟨hresult, hpop _ _ hafter⟩

/-- The passes of two loops over the same items. -/
theorem loopPasses {firstName secondName : String} {first second : Evaluation String}
    (hstate : ∀ left right value, related left right →
      related (left.set "loop" value) (right.set "loop" value))
    (hitem : ∀ left right value, related left right →
      related (left.set firstName value) (right.set secondName value))
    (h : first.Lockstep related second) (length index : Nat) (items : List Value) :
    (loopPasses firstName first length index items).Lockstep related
      (loopPasses secondName second length index items) := by
  induction items generalizing index with
  | nil => exact pure ""
  | cons item rest ih =>
    rw [Templating.loopPasses, Templating.loopPasses]
    refine bind ?_ fun text => (ih (index + 1)).bind fun texts => pure _
    unfold loopPass
    refine (update fun left right => hstate left right _).bind fun _ => ?_
    exact (update fun left right => hitem left right item).bind fun _ => h

theorem call {natives : Natives}
    (hnatives : ∀ identity args, (natives identity args).Lockstep related (natives identity args))
    (function : Value) (args : List Value) :
    (function.call natives args).Lockstep related (function.call natives args) := by
  cases function with
  | native name identity => exact hnatives identity args
  | bound receiver method => exact ofExcept _
  | _ => exact throw _

end Evaluation.Lockstep

section

variable {natives : Natives} {related : Chain → Chain → Prop} {r : String → String}

theorem evaluateBlock_lockstep (body : List Node)
    (h : ∀ node ∈ body,
      (node.evaluate natives).Lockstep related ((node.rename r).evaluate natives)) :
    (evaluateBlock natives body).Lockstep related
      (evaluateBlock natives (Node.renameAll r body)) := by
  induction body with
  | nil =>
    rw [Node.renameAll, evaluateBlock]
    exact .pure ""
  | cons node rest ih =>
    rw [Node.renameAll, evaluateBlock, evaluateBlock]
    refine (h node List.mem_cons_self).bind fun value => ?_
    have hrest := ih fun other hother => h other (List.mem_cons_of_mem _ hother)
    exact hrest.bind fun text => .pure _

theorem evaluateAll_lockstep {nodes : List Node}
    (h : ∀ node ∈ nodes,
      (node.evaluate natives).Lockstep related ((node.rename r).evaluate natives)) :
    (evaluateAll natives nodes).Lockstep related
      (evaluateAll natives (Node.renameAll r nodes)) := by
  induction nodes with
  | nil =>
    rw [Node.renameAll, evaluateAll]
    exact .pure []
  | cons node rest ih =>
    rw [Node.renameAll, evaluateAll, evaluateAll]
    refine (h node List.mem_cons_self).bind fun value => ?_
    have hrest := ih fun other hother => h other (List.mem_cons_of_mem _ hother)
    exact hrest.bind fun values => .pure _

/-- What a node binds is renamed with it. What cannot be bound fails in the same way. -/
theorem target_lockstep {α : Type} {node : Node} {first second : String → Evaluation α}
    (h : ∀ name, (first name).Lockstep related (second (r name))) :
    (Evaluation.ofExcept node.target >>= first).Lockstep related
      (Evaluation.ofExcept (node.rename r).target >>= second) := by
  cases node with
  | identifier name => exact h name
  | member =>
    rw [Node.rename_member]
    exact fun _ _ hrelated => ⟨rfl, hrelated⟩
  | _ => exact fun _ _ hrelated => ⟨rfl, hrelated⟩

/-- A property that is not computed gives its name, which is not renamed. -/
theorem key_lockstep {property : Node} (computed : Bool)
    (h : (property.evaluate natives).Lockstep related ((property.rename r).evaluate natives)) :
    (Node.key natives computed property).Lockstep related
      (Node.key natives computed (Node.renameProperty r computed property)) := by
  cases computed with
  | true => exact h
  | false =>
    cases property with
    | identifier name => exact .pure _
    | member =>
      rw [Node.rename_member] at h
      rw [Node.renameProperty, Node.rename_member]
      · exact h
      · intro _ _ hidentifier
        cases hidentifier
    | _ => exact h

end

/-! ## 2. Trees -/

/-- In chains that agree on the names that a tree mentions, the tree and the renamed tree are
evaluated in lockstep. The name `loop` is not renamed, since loops bind it. -/
theorem evaluate_lockstep {r : String → String} (hr : Function.Injective r)
    (hloop : r "loop" = "loop") {relevant : String → Prop}
    (functions : Nat → String × HostFunction) (node : Node)
    (hrelevant : ∀ name, node.Mentions name → relevant name) :
    (node.evaluate (Natives.ofHost functions)).Lockstep (Chain.Agree r relevant)
      ((node.rename r).evaluate (Natives.ofHost functions)) := by
  induction node using Node.children_induction with
  | inherit node ih =>
    have hpart : ∀ part ∈ node.children,
        (part.evaluate (Natives.ofHost functions)).Lockstep (Chain.Agree r relevant)
          ((part.rename r).evaluate (Natives.ofHost functions)) :=
      fun part hmem => ih part hmem fun name hname => hrelevant name (hname.of_child hmem)
    have hset : ∀ name left right value, Chain.Agree r relevant left right →
        Chain.Agree r relevant (left.set name value) (right.set (r name) value) :=
      fun name left right value hagree => hagree.set hr name value
    cases node with
    | program body =>
      rw [Node.rename, Node.evaluate, Node.evaluate]
      exact (evaluateBlock_lockstep body hpart).bind fun text => .pure _
    | set assignee value =>
      rw [Node.rename, Node.evaluate, Node.evaluate]
      refine target_lockstep fun name => ?_
      refine (hpart value (by simp [Node.children])).bind fun result => ?_
      exact (Evaluation.Lockstep.update fun left right => hset name left right result).bind
        fun _ => .pure _
    | branch test body alternate =>
      rw [Node.rename, Node.evaluate, Node.evaluate]
      refine (hpart test (by simp [Node.children])).bind fun result => ?_
      have hbody := evaluateBlock_lockstep body fun part hmem => hpart part (by
        simp [Node.children, hmem])
      have halternate := evaluateBlock_lockstep alternate fun part hmem => hpart part (by
        simp [Node.children, hmem])
      cases result with
      | boolean b =>
        cases b with
        | true => exact hbody.bind fun text => .pure _
        | false => exact halternate.bind fun text => .pure _
      | _ => exact .throw _
    | loop target iterable body =>
      rw [Node.rename, Node.evaluate, Node.evaluate]
      refine target_lockstep fun name => ?_
      refine (hpart iterable (by simp [Node.children])).bind fun result => ?_
      have hbody := evaluateBlock_lockstep body fun part hmem => hpart part (by
        simp [Node.children, hmem])
      -- The two runs may write `loop` to different scopes, if only one of them has it bound
      -- further out. The agreement survives this, because it then says nothing about `loop`.
      have hstate := hset "loop"
      rw [hloop] at hstate
      cases result with
      | array items =>
        have hpasses := hbody.loopPasses hstate (hset name) items.length 0 items
        refine (hpasses.inChild ?_ ?_).bind fun text => .pure _
        · exact fun _ _ hagree => hagree.push
        · exact fun _ _ hagree => hagree.pop
      | _ => exact .throw _
    | numeric value =>
      rw [Node.rename, Node.evaluate]
      exact .ofExcept _
    | string value =>
      rw [Node.rename, Node.evaluate]
      exact .pure _
    | boolean value =>
      rw [Node.rename, Node.evaluate]
      exact .pure _
    | identifier name =>
      -- The only place where the values of the chain are read.
      rw [Node.rename, Node.evaluate, Node.evaluate]
      intro left right hagree
      have hname := hrelevant name (Node.contains_self _)
      exact ⟨congrArg Except.ok (hagree.lookup hname), hagree⟩
    | call callee args =>
      rw [Node.rename, Node.evaluate, Node.evaluate]
      refine (evaluateAll_lockstep fun part hmem => hpart part ?_).bind fun values => ?_
      · simp [Node.children, hmem]
      · refine (hpart callee (by simp [Node.children])).bind fun function => ?_
        exact .call (fun _ _ => .ofExcept _) function values
    | member object property computed =>
      rw [Node.rename_member, Node.evaluate_member, Node.evaluate_member]
      refine (key_lockstep computed (hpart property (by simp [Node.children]))).bind fun key => ?_
      cases key with
      | string name =>
        refine (hpart object (by simp [Node.children])).bind fun owner => ?_
        exact .ofExcept _
      | _ => exact .throw _
    | unary operator argument =>
      rw [Node.rename, Node.evaluate, Node.evaluate]
      refine (hpart argument (by simp [Node.children])).bind fun operand => ?_
      exact .ofExcept _
    | binary operator left right =>
      rw [Node.rename, Node.evaluate, Node.evaluate]
      refine (hpart left (by simp [Node.children])).bind fun first => ?_
      refine (hpart right (by simp [Node.children])).bind fun second => ?_
      exact .ofExcept _
    | unknown =>
      rw [Node.rename, Node.evaluate]
      exact .throw _

end Templating
