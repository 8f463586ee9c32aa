import Templating.Proofs.Evaluation.Failure

/-!
# The course of an evaluation

While a node is evaluated in a chain, its parts are evaluated in other chains, and their parts in
turn. `Node.Starts` says which part is evaluated in which chain, one case for each place where the
evaluation goes down into the tree; `Node.Reaches` are any number of such steps.

Results:
1. `Node.Starts.contains`, `Node.Reaches.contains`: what is reached are subtrees.
2. `Node.Starts.holds`: a step down keeps an invariant on the values of the chain.
3. `Node.Reaches.holds`: so does a whole run, and every result on the way is admitted.
-/

namespace Templating

/-! ## Definitions -/

/-- Some nodes are evaluated from left to right, as long as they succeed: one of them is evaluated
in the chain that the ones before it leave. -/
inductive SequenceStarts (natives : Natives) : List Node → Chain → Node → Chain → Prop
  | head {node : Node} {rest : List Node} {chain : Chain} :
      SequenceStarts natives (node :: rest) chain node chain
  | tail {node part : Node} {rest : List Node} {chain after there : Chain} {value : Value} :
      (node.evaluate natives).start chain = (.ok value, after) →
      SequenceStarts natives rest after part there →
      SequenceStarts natives (node :: rest) chain part there

/-- A loop goes through the items that are left, from pass `index` on: in one of the passes a
statement of the body is evaluated. -/
inductive PassesStart (natives : Natives) (name : String) (body : List Node) (length : Nat) :
    Nat → List Value → Chain → Node → Chain → Prop
  | pass {index : Nat} {item : Value} {rest : List Value} {chain there : Chain} {part : Node} :
      SequenceStarts natives body ((chain.set "loop" (loopState index length)).set name item)
        part there →
      PassesStart natives name body length index (item :: rest) chain part there
  | next {index : Nat} {item : Value} {rest : List Value} {chain after there : Chain}
      {part : Node} {text : String} :
      (loopPass name (evaluateBlock natives body) index length item).start chain =
        (.ok text, after) →
      PassesStart natives name body length (index + 1) rest after part there →
      PassesStart natives name body length index (item :: rest) chain part there

/-- While a node is evaluated in a chain, a part of it is evaluated in another one. The target of an
assignment or a loop is never evaluated, nor is a property that is a name. -/
inductive Node.Starts (natives : Natives) : Node → Chain → Node → Chain → Prop
  | statement {body : List Node} {chain there : Chain} {part : Node} :
      SequenceStarts natives body chain part there →
      Starts natives (.program body) chain part there
  | value {name : String} {value : Node} {chain : Chain} :
      Starts natives (.set (.identifier name) value) chain value chain
  | test {test : Node} {body alternate : List Node} {chain : Chain} :
      Starts natives (.branch test body alternate) chain test chain
  | consequent {test part : Node} {body alternate : List Node} {chain after there : Chain} :
      (test.evaluate natives).start chain = (.ok (.boolean true), after) →
      SequenceStarts natives body after part there →
      Starts natives (.branch test body alternate) chain part there
  | alternate {test part : Node} {body alternate : List Node} {chain after there : Chain} :
      (test.evaluate natives).start chain = (.ok (.boolean false), after) →
      SequenceStarts natives alternate after part there →
      Starts natives (.branch test body alternate) chain part there
  | iterable {name : String} {iterable : Node} {body : List Node} {chain : Chain} :
      Starts natives (.loop (.identifier name) iterable body) chain iterable chain
  | loopBody {name : String} {iterable part : Node} {body : List Node} {items : List Value}
      {chain after there : Chain} :
      (iterable.evaluate natives).start chain = (.ok (.array items), after) →
      PassesStart natives name body items.length 0 items after.push part there →
      Starts natives (.loop (.identifier name) iterable body) chain part there
  | argument {callee part : Node} {args : List Node} {chain there : Chain} :
      SequenceStarts natives args chain part there →
      Starts natives (.call callee args) chain part there
  | callee {callee : Node} {args : List Node} {values : List Value} {chain after : Chain} :
      (evaluateAll natives args).start chain = (.ok values, after) →
      Starts natives (.call callee args) chain callee after
  | property {object property : Node} {computed : Bool} {chain : Chain} :
      (computed = true ∨ property.kind ≠ .identifier) →
      Starts natives (.member object property computed) chain property chain
  | object {object property : Node} {computed : Bool} {name : String} {chain after : Chain} :
      (Node.key natives computed property).start chain = (.ok (.string name), after) →
      Starts natives (.member object property computed) chain object after
  | operand {operator : UnaryOperator} {argument : Node} {chain : Chain} :
      Starts natives (.unary operator argument) chain argument chain
  | left {operator : BinaryOperator} {left right : Node} {chain : Chain} :
      Starts natives (.binary operator left right) chain left chain
  | right {operator : BinaryOperator} {left right : Node} {value : Value} {chain after : Chain} :
      (left.evaluate natives).start chain = (.ok value, after) →
      Starts natives (.binary operator left right) chain right after

/-- While a node is evaluated in a chain, a subtree of it, the node itself among them, is evaluated
in another one. -/
inductive Node.Reaches (natives : Natives) : Node → Chain → Node → Chain → Prop
  | here (node : Node) (chain : Chain) : Reaches natives node chain node chain
  | down {node middle part : Node} {chain between there : Chain} :
      node.Starts natives chain middle between → Reaches natives middle between part there →
      Reaches natives node chain part there

variable {natives : Natives}

/-! ## 1. Subtrees -/

theorem SequenceStarts.mem {nodes : List Node} {chain there : Chain} {part : Node}
    (h : SequenceStarts natives nodes chain part there) : part ∈ nodes := by
  induction h with
  | head => exact List.mem_cons_self
  | tail _ _ ih => exact List.mem_cons_of_mem _ ih

theorem PassesStart.mem {name : String} {body : List Node} {length index : Nat}
    {items : List Value} {chain there : Chain} {part : Node}
    (h : PassesStart natives name body length index items chain part there) : part ∈ body := by
  induction h with
  | pass hbody => exact hbody.mem
  | next _ _ ih => exact ih

theorem Node.Starts.mem_children {node part : Node} {chain there : Chain}
    (h : node.Starts natives chain part there) : part ∈ node.children := by
  cases h with
  | statement hbody => exact hbody.mem
  | consequent _ hbody => simp [children, hbody.mem]
  | alternate _ hbody => simp [children, hbody.mem]
  | loopBody _ hbody => simp [children, hbody.mem]
  | argument hargs => simp [children, hargs.mem]
  | _ => simp [children]

/-- What is reached are subtrees. -/
theorem Node.Reaches.contains {node part : Node} {chain there : Chain}
    (h : node.Reaches natives chain part there) : node.Contains part := by
  induction h with
  | here node => exact node.contains_self
  | down hstep _ ih => exact ih.of_child hstep.mem_children

/-! ## 2. One step -/

section

variable {admits : Value → Prop} (hadmits : Value.Admissible admits)
  (hnatives : natives.Keep admits)

include hadmits hnatives

theorem evaluate_keeps (node : Node) :
    Meets (Chain.Holds admits) (fun _ => True) admits (node.evaluate natives) :=
  (evaluate_meets hadmits hnatives node).mono (fun _ _ => trivial) fun _ h => h

theorem SequenceStarts.holds {nodes : List Node} {chain there : Chain} {part : Node}
    (h : SequenceStarts natives nodes chain part there) (hchain : chain.Holds admits) :
    there.Holds admits := by
  induction h with
  | head => exact hchain
  | tail hrun _ ih => exact ih ((evaluate_keeps hadmits hnatives _).after_run hchain hrun)

theorem PassesStart.holds {name : String} {body : List Node} {length index : Nat}
    {items : List Value} {chain there : Chain} {part : Node}
    (h : PassesStart natives name body length index items chain part there)
    (hitems : ∀ item ∈ items, admits item) (hchain : chain.Holds admits) :
    there.Holds admits := by
  have hstate : ∀ index, admits (loopState index length) :=
    fun index => hadmits.data _ (Value.isData_loopState index length)
  induction h with
  | pass hbody =>
    refine hbody.holds hadmits hnatives ?_
    exact (hchain.set "loop" (hstate _)).set name (hitems _ List.mem_cons_self)
  | @next index item rest chain after there part text hrun _ ih =>
    refine ih (fun other hother => hitems other (List.mem_cons_of_mem _ hother)) ?_
    have hbody := evaluateBlock_meets body fun node _ =>
      evaluate_keeps hadmits hnatives node
    have hitem := hitems item List.mem_cons_self
    have hpass := loopPass_meets hadmits name hbody index length hitem
    exact hpass.after_run hchain hrun

/-- A step down keeps an invariant on the values of the chain. -/
theorem Node.Starts.holds {node part : Node} {chain there : Chain}
    (h : node.Starts natives chain part there) (hchain : chain.Holds admits) :
    there.Holds admits := by
  have hkeeps := evaluate_keeps hadmits hnatives
  cases h with
  | statement hbody => exact hbody.holds hadmits hnatives hchain
  | value | test | iterable | property | operand | left => exact hchain
  | consequent hrun hbody => exact hbody.holds hadmits hnatives ((hkeeps _).after_run hchain hrun)
  | alternate hrun hbody => exact hbody.holds hadmits hnatives ((hkeeps _).after_run hchain hrun)
  | loopBody hrun hbody =>
    have harray := (hkeeps _).value hchain (congrArg Prod.fst hrun)
    have hafter := (hkeeps _).after_run hchain hrun
    exact hbody.holds hadmits hnatives (fun item => hadmits.item _ item harray) hafter.push
  | argument hargs => exact hargs.holds hadmits hnatives hchain
  | callee hrun => exact (evaluateAll_meets fun node _ => hkeeps node).after_run hchain hrun
  | object hrun => exact (key_meets _ (hkeeps _)).after_run hchain hrun
  | right hrun => exact (hkeeps _).after_run hchain hrun

/-! ## 3. Whole runs -/

/-- From a chain of admitted values an evaluation comes through such chains only, and every result
on the way is admitted. -/
theorem Node.Reaches.holds {node part : Node} {chain there : Chain}
    (h : node.Reaches natives chain part there) (hchain : chain.Holds admits) :
    there.Holds admits := by
  induction h with
  | here => exact hchain
  | down hstep _ ih => exact ih (hstep.holds hadmits hnatives hchain)

end

end Templating
