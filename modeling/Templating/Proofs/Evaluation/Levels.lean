import Templating.Proofs.Evaluation.Basic
import Templating.Proofs.Node.Depth

/-!
# Levels of an evaluation

The evaluation of a node evaluates some of its children, and is itself a part of the evaluation of
its parent. `Node.evaluateLevel` is what is done with one node, where the evaluation of its children
is an argument. So evaluation is a recursion over trees, and evaluations stand inside each other no
deeper than the tree is.

Results:
1. `blockLevel_evaluate`, `allLevel_evaluate` and `blockLevel_congr`, `allLevel_congr`: lists of
   nodes.
2. `recursion_evaluate`: a node evaluates nothing but children of it.
3. `nesting_bounds`: depth of trees and nesting of texts, and what follows for trees from texts.
-/

namespace Templating

/-! ## 1. Lists of nodes -/

section

variable {natives : Natives} {inner other : Node → Evaluation Value} {nodes : List Node}

/-- The joined texts of the statements of a block. -/
def blockLevel (inner : Node → Evaluation Value) : List Node → Evaluation String
  | [] => return ""
  | statement :: rest => do
    let value ← inner statement
    return value.print ++ (← blockLevel inner rest)

/-- The values of nodes from left to right. -/
def allLevel (inner : Node → Evaluation Value) : List Node → Evaluation (List Value)
  | [] => return []
  | node :: rest => do
    let value ← inner node
    return value :: (← allLevel inner rest)

theorem blockLevel_evaluate (nodes : List Node) :
    blockLevel (Node.evaluate natives) nodes = evaluateBlock natives nodes := by
  induction nodes with
  | nil => rw [blockLevel, evaluateBlock]
  | cons node rest ih => rw [blockLevel, evaluateBlock, ih]

theorem allLevel_evaluate (nodes : List Node) :
    allLevel (Node.evaluate natives) nodes = evaluateAll natives nodes := by
  induction nodes with
  | nil => rw [allLevel, evaluateAll]
  | cons node rest ih => rw [allLevel, evaluateAll, ih]

theorem blockLevel_congr (h : ∀ node ∈ nodes, inner node = other node) :
    blockLevel inner nodes = blockLevel other nodes := by
  induction nodes with
  | nil => rfl
  | cons node rest ih =>
    obtain ⟨hnode, hrest⟩ := List.forall_mem_cons.mp h
    rw [blockLevel, blockLevel, hnode, ih hrest]

theorem allLevel_congr (h : ∀ node ∈ nodes, inner node = other node) :
    allLevel inner nodes = allLevel other nodes := by
  induction nodes with
  | nil => rfl
  | cons node rest ih =>
    obtain ⟨hnode, hrest⟩ := List.forall_mem_cons.mp h
    rw [allLevel, allLevel, hnode, ih hrest]

end

/-! ## 2. Nodes -/

namespace Node

/-- The key of a member: the name of a property that is not computed, else its value. -/
def keyLevel (inner : Node → Evaluation Value) : Bool → Node → Evaluation Value
  | false, .identifier name => pure (.string name)
  | _, property => inner property

/-- One level of an evaluation: what is done with a node, where `inner` is the evaluation of its
children. -/
def evaluateLevel (natives : Natives) (inner : Node → Evaluation Value) : Node → Evaluation Value
  | .program body => return .string (← blockLevel inner body)
  | .set assignee value => do
    let name ← Evaluation.ofExcept assignee.target
    let value ← inner value
    modify (·.set name value)
    return .null
  | .branch test body alternate => do
    match ← inner test with
    | .boolean true => return .string (← blockLevel inner body)
    | .boolean false => return .string (← blockLevel inner alternate)
    | other => throw (.typeMismatch .condition other.kind)
  | .loop target iterable body => do
    let name ← Evaluation.ofExcept target.target
    match ← inner iterable with
    | .array items =>
      return .string (← (loopPasses name (blockLevel inner body) items.length 0 items).inChild)
    | other => throw (.typeMismatch .iterable other.kind)
  | .numeric value => Evaluation.ofExcept value.value
  | .string value => return .string value
  | .boolean value => return .boolean value
  | .identifier name => return (← get).lookup name
  | .call callee args => do
    let args ← allLevel inner args
    let callee ← inner callee
    callee.call natives args
  | .member object property computed => do
    match ← keyLevel inner computed property with
    | .string name => do
      let object ← inner object
      Evaluation.ofExcept (object.member name)
    | other => throw (.typeMismatch .propertyKey other.kind)
  | .unary operator argument => do
    let operand ← inner argument
    Evaluation.ofExcept (operator.apply operand)
  | .binary operator left right => do
    let left ← inner left
    let right ← inner right
    Evaluation.ofExcept (operator.apply left right)
  | .unknown => throw .unknownNode

theorem keyLevel_evaluate (natives : Natives) (computed : Bool) (property : Node) :
    keyLevel (evaluate natives) computed property = key natives computed property := by
  cases computed with
  | true => rfl
  | false => cases property <;> rfl

theorem keyLevel_congr {inner other : Node → Evaluation Value} {property : Node}
    (h : inner property = other property) (computed : Bool) :
    keyLevel inner computed property = keyLevel other computed property := by
  cases computed with
  | true => exact h
  | false =>
    cases property with
    | identifier name => rfl
    | _ => exact h

theorem evaluate_eq_level (natives : Natives) (node : Node) :
    node.evaluate natives = evaluateLevel natives (evaluate natives) node := by
  cases node with
  | program body => rw [evaluate, evaluateLevel, blockLevel_evaluate]
  | branch test body alternate =>
    rewrite [evaluate, evaluateLevel, blockLevel_evaluate, blockLevel_evaluate]
    rfl
  | loop target iterable body =>
    rewrite [evaluate, evaluateLevel, blockLevel_evaluate]
    rfl
  | call callee args => rw [evaluate, evaluateLevel, allLevel_evaluate]
  | member object property computed =>
    rewrite [evaluate_member, evaluateLevel, keyLevel_evaluate]
    rfl
  | _ => rw [evaluate, evaluateLevel]

theorem evaluateLevel_congr (natives : Natives) {inner other : Node → Evaluation Value}
    {node : Node} (h : ∀ child ∈ node.children, inner child = other child) :
    evaluateLevel natives inner node = evaluateLevel natives other node := by
  cases node with
  | program body =>
    have hbody : blockLevel inner body = blockLevel other body := blockLevel_congr h
    rw [evaluateLevel, evaluateLevel, hbody]
  | set assignee value =>
    have hvalue := h value (by simp [children])
    rw [evaluateLevel, evaluateLevel, hvalue]
  | branch test body alternate =>
    have htest := h test (by simp [children])
    have hbody : blockLevel inner body = blockLevel other body :=
      blockLevel_congr fun node hnode => h node (by simp [children, hnode])
    have halternate : blockLevel inner alternate = blockLevel other alternate :=
      blockLevel_congr fun node hnode => h node (by simp [children, hnode])
    rw [evaluateLevel, evaluateLevel, htest, hbody, halternate]
  | loop target iterable body =>
    have hiterable := h iterable (by simp [children])
    have hbody : blockLevel inner body = blockLevel other body :=
      blockLevel_congr fun node hnode => h node (by simp [children, hnode])
    rw [evaluateLevel, evaluateLevel, hiterable, hbody]
  | call callee args =>
    have hcallee := h callee (by simp [children])
    have hargs : allLevel inner args = allLevel other args :=
      allLevel_congr fun node hnode => h node (by simp [children, hnode])
    rw [evaluateLevel, evaluateLevel, hcallee, hargs]
  | member object property computed =>
    have hobject := h object (by simp [children])
    have hkey := keyLevel_congr (h property (by simp [children])) computed
    rw [evaluateLevel, evaluateLevel, hobject, hkey]
  | unary operator argument =>
    have hargument := h argument (by simp [children])
    rw [evaluateLevel, evaluateLevel, hargument]
  | binary operator left right =>
    have hleft := h left (by simp [children])
    have hright := h right (by simp [children])
    rw [evaluateLevel, evaluateLevel, hleft, hright]
  | numeric | string | boolean | identifier | unknown => rfl

/-- A node evaluates nothing but children of it. -/
theorem recursion_evaluate (natives : Natives) :
    Recursion (evaluate natives) (evaluateLevel natives) where
  equation := evaluate_eq_level natives
  congr := evaluateLevel_congr natives

/-! ## 3. Trees from texts -/

/-- The text of a tree is nested at least as deeply as the tree is, and at most twice as deeply. So
a tree that was loaded has at most 127 levels, and neither its evaluation nor the computation of its
depth makes more than 127 calls inside each other; what would be done beyond makes no difference.
And a tree of at most 63 levels can be loaded again from its text, as long as its numbers are finite.
What is loaded is the same tree exactly if its numbers are read back. -/
theorem nesting_bounds (node : Node) :
    (node.depth ≤ node.toJson.nesting ∧ node.toJson.nesting ≤ 2 * node.depth) ∧
    (∀ text, Node.parse text = .ok node →
      node.depth ≤ 127 ∧ (∀ beyond, within depthLevel beyond 127 node = node.depth) ∧
        ∀ natives beyond,
          within (evaluateLevel natives) beyond 127 node = node.evaluate natives) ∧
    (node.depth ≤ 63 → node.hasFiniteNumbers = true →
      ∃ reloaded, Node.parse node.print = .ok reloaded ∧
        (reloaded = node ↔ node.NumbersReread)) := by
  refine ⟨⟨depth_le_nesting node, nesting_le_depth node⟩, fun text h => ?_,
    fun hdepth hfinite => ?_⟩
  · have hdepth : node.depth ≤ 127 := depth_le_of_parse h
    exact ⟨hdepth, fun beyond => recursion_depth.within_eq beyond hdepth,
      fun natives beyond => (recursion_evaluate natives).within_eq beyond hdepth⟩
  · refine exists_reloaded_of_depth hfinite ?_
    rw [Json.Reader.maxNesting]
    omega

theorem hasFiniteNumbers_iterate {wrap : Node → Node} {node : Node}
    (hwrap : ∀ node, (wrap node).hasFiniteNumbers = node.hasFiniteNumbers)
    (hnode : node.hasFiniteNumbers = true) (n : Nat) :
    (wrap^[n] node).hasFiniteNumbers = true := by
  induction n with
  | zero => exact hnode
  | succ n ih => rw [Function.iterate_succ_apply', hwrap, ih]

theorem reread_iterate {wrap : Node → Node} {node : Node}
    (hwrap : ∀ node, (wrap node).reread = wrap node.reread) (hnode : node.reread = node) (n : Nat) :
    (wrap^[n] node).reread = wrap^[n] node := by
  induction n with
  | zero => exact hnode
  | succ n ih => rw [Function.iterate_succ_apply', hwrap, ih]

/-- 126 operators around a node that fails, and 63 blocks inside each other. -/
theorem nesting_bounds_deepest :
    let operators := (unary .not)^[126] unknown
    let blocks := (fun node => program [node])^[62] (program [])
    (Node.parse operators.print = .ok operators ∧ operators.depth = 127 ∧
      ∀ natives beyond,
        within (evaluateLevel natives) beyond 127 operators = operators.evaluate natives) ∧
    blocks.depth = 63 ∧ blocks.hasFiniteNumbers = true ∧ blocks.toJson.nesting = 126 ∧
      Node.parse blocks.print = .ok blocks := by
  intro operators blocks
  obtain ⟨⟨hdepth, hnesting⟩, -⟩ := nesting_iterate 126
  obtain ⟨-, hdepthBlocks, hnestingBlocks⟩ := nesting_iterate 62
  have hoperators : operators.hasFiniteNumbers = true := by
    refine hasFiniteNumbers_iterate (fun node => ?_) ?_ 126
    · simp [hasFiniteNumbers_eq (unary _ _), number?, children]
    · simp [hasFiniteNumbers_eq, number?, children]
  have hblocks : blocks.hasFiniteNumbers = true := by
    refine hasFiniteNumbers_iterate (fun node => ?_) ?_ 62
    · simp [hasFiniteNumbers_eq (program _), number?, children]
    · simp [hasFiniteNumbers_eq, number?, children]
  have hoperator : ∀ node, (unary .not node).reread = unary .not node.reread := fun _ => rfl
  have hblock : ∀ node, (program [node]).reread = program [node.reread] := fun _ => rfl
  have hoperatorsReread : operators.reread = operators := reread_iterate hoperator rfl 126
  have hblocksReread : blocks.reread = blocks := reread_iterate hblock rfl 62
  obtain ⟨loaded, hparse, hsame⟩ := exists_reloaded hoperators (Nat.le_of_eq hnesting)
  rw [hsame.mpr ((reread_eq_iff hoperators).mp hoperatorsReread)] at hparse
  obtain ⟨-, hload, -⟩ := nesting_bounds operators
  obtain ⟨-, -, hsave⟩ := nesting_bounds blocks
  obtain ⟨loaded, hparseBlocks, hsame⟩ := hsave (Nat.le_of_eq hdepthBlocks) hblocks
  rw [hsame.mpr ((reread_eq_iff hblocks).mp hblocksReread)] at hparseBlocks
  exact ⟨⟨hparse, hdepth, (hload _ hparse).2.2⟩, hdepthBlocks, hblocks, hnestingBlocks,
    hparseBlocks⟩

/-- Not every tree of few levels is loaded again as it was: the number `31.245270191439438` is
printed with all its digits and read as the double after it. -/
theorem reload_changes_number :
    let node := number (Number.ofRatio false 31245270191439438 1000000000000000)
    node.depth = 1 ∧ node.hasFiniteNumbers = true ∧
      Number.Layout.json.print (Number.ofRatio false 31245270191439438 1000000000000000) =
        "31.245270191439438" ∧
      Node.parse node.print =
        .ok (number (Number.ofRatio false 3124527019143944 100000000000000)) ∧
      Node.parse node.print ≠ .ok node := by
  intro node
  have hfinite : node.hasFiniteNumbers = true := by
    simp only [node, number, hasFiniteNumbers_eq, number?, children]
    decide +kernel
  have hnesting : node.toJson.nesting ≤ 127 := by decide
  have hparse : Node.parse node.print =
      .ok (number (Number.ofRatio false 3124527019143944 100000000000000)) := by
    have hdouble : Json.rereadDouble (Number.ofRatio false 31245270191439438 1000000000000000) =
        Number.ofRatio false 3124527019143944 100000000000000 := by decide +kernel
    rw [parse_print_reread, if_pos hnesting, Json.okIf, if_pos hfinite]
    simp only [node, reread, number, mapNumbers, hdouble]
  refine ⟨rfl, hfinite, by decide +kernel, hparse, ?_⟩
  rw [hparse]
  simp only [node, number, ne_eq, Except.ok.injEq, numeric.injEq, Numeral.number.injEq]
  decide +kernel

end Node

end Templating
