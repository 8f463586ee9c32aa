import Templating.Node.Basic

/-!
# Positions in a tree

A step leads from a node to one of its direct parts, a position is a list of steps from the root
down. Statements of a loop's body have a step of their own, so that a position shows whether it
lies inside a loop.

* `Node.part?` follows one step, `Node.at?` a whole position.
* `Node.replaceAt` puts another tree at a position.
* `Node.Contains` says that a tree stands at some position of another one.

Results:
1. `mem_children_iff`: the steps lead exactly to the children of a node.
2. `children_induction`: a property of all trees, proved from the children upwards.
3. `contains_iff`: the subtrees of a node are the node itself and the subtrees of its children;
   `mem_subtrees_iff` gives them as a list.
4. `at?_replaceAt`: what was put at a position is found there.
5. `replaceAt_kind`: a replacement below the root keeps the kind of the root.
-/

namespace Templating

/-- A way from a node to one of its direct parts. -/
inductive Step where
  | statement (index : Nat)
  | assignee
  | value
  | test
  | consequent (index : Nat)
  | alternate (index : Nat)
  | target
  | iterable
  | loopBody (index : Nat)
  | callee
  | argument (index : Nat)
  | object
  | property
  | operand
  | left
  | right
  deriving DecidableEq, Repr

/-- Whether a step leads to the node that an assignment or a loop binds. -/
def Step.isTarget : Step → Bool
  | .assignee | .target => true
  | _ => false

/-- Whether a step leads into the body of a loop. -/
def Step.isLoopBody : Step → Bool
  | .loopBody _ => true
  | _ => false

abbrev Position := List Step

/-- Whether a position is that of the assignee of an assignment or of the variable of a loop. -/
def Position.isTarget (position : Position) : Bool := position.getLast?.any Step.isTarget

/-- Whether a position lies inside the body of a loop. -/
def Position.inLoopBody (position : Position) : Bool := position.any Step.isLoopBody

namespace Node

/-- The part of a node that a step leads to. -/
def part? : Node → Step → Option Node
  | program body, .statement i => body[i]?
  | set assignee _, .assignee => some assignee
  | set _ value, .value => some value
  | branch test _ _, .test => some test
  | branch _ body _, .consequent i => body[i]?
  | branch _ _ alternate, .alternate i => alternate[i]?
  | loop target _ _, .target => some target
  | loop _ iterable _, .iterable => some iterable
  | loop _ _ body, .loopBody i => body[i]?
  | call callee _, .callee => some callee
  | call _ args, .argument i => args[i]?
  | member object _ _, .object => some object
  | member _ property _, .property => some property
  | unary _ argument, .operand => some argument
  | binary _ left _, .left => some left
  | binary _ _ right, .right => some right
  | _, _ => none

/-- The node with another part where a step leads to. -/
def setPart : Node → Step → Node → Node
  | program body, .statement i, part => program (body.set i part)
  | set _ value, .assignee, part => set part value
  | set assignee _, .value, part => set assignee part
  | branch _ body alternate, .test, part => branch part body alternate
  | branch test body alternate, .consequent i, part => branch test (body.set i part) alternate
  | branch test body alternate, .alternate i, part => branch test body (alternate.set i part)
  | loop _ iterable body, .target, part => loop part iterable body
  | loop target _ body, .iterable, part => loop target part body
  | loop target iterable body, .loopBody i, part => loop target iterable (body.set i part)
  | call _ args, .callee, part => call part args
  | call callee args, .argument i, part => call callee (args.set i part)
  | member _ property computed, .object, part => member part property computed
  | member object _ computed, .property, part => member object part computed
  | unary operator _, .operand, part => unary operator part
  | binary operator _ right, .left, part => binary operator part right
  | binary operator left _, .right, part => binary operator left part
  | node, _, _ => node

/-- The subtree at a position. -/
def at? : Node → Position → Option Node
  | node, [] => some node
  | node, step :: rest => (node.part? step).bind (·.at? rest)

/-- A tree stands somewhere in another one. -/
def Contains (node part : Node) : Prop := ∃ position, node.at? position = some part

/-- The tree with another subtree at a position. A position that leads nowhere changes nothing. -/
def replaceAt : Node → Position → Node → Node
  | _, [], new => new
  | node, step :: rest, new =>
    match node.part? step with
    | some part => node.setPart step (part.replaceAt rest new)
    | none => node

/-! ## Steps and children -/

/-- The steps lead exactly to the children of a node. -/
theorem mem_children_iff {node part : Node} :
    part ∈ node.children ↔ ∃ step, node.part? step = some part := by
  constructor
  · intro h
    cases node with
    | program body =>
      obtain ⟨i, hi⟩ := List.mem_iff_getElem?.mp h
      exact ⟨.statement i, hi⟩
    | set assignee value =>
      simp only [children, List.mem_cons, List.not_mem_nil, or_false] at h
      rcases h with rfl | rfl
      · exact ⟨.assignee, rfl⟩
      · exact ⟨.value, rfl⟩
    | branch test body alternate =>
      simp only [children, List.mem_cons, List.mem_append] at h
      rcases h with rfl | h | h
      · exact ⟨.test, rfl⟩
      · obtain ⟨i, hi⟩ := List.mem_iff_getElem?.mp h
        exact ⟨.consequent i, hi⟩
      · obtain ⟨i, hi⟩ := List.mem_iff_getElem?.mp h
        exact ⟨.alternate i, hi⟩
    | loop target iterable body =>
      simp only [children, List.mem_cons] at h
      rcases h with rfl | rfl | h
      · exact ⟨.target, rfl⟩
      · exact ⟨.iterable, rfl⟩
      · obtain ⟨i, hi⟩ := List.mem_iff_getElem?.mp h
        exact ⟨.loopBody i, hi⟩
    | call callee args =>
      simp only [children, List.mem_append, List.mem_singleton] at h
      rcases h with h | rfl
      · obtain ⟨i, hi⟩ := List.mem_iff_getElem?.mp h
        exact ⟨.argument i, hi⟩
      · exact ⟨.callee, rfl⟩
    | member object property computed =>
      simp only [children, List.mem_cons, List.not_mem_nil, or_false] at h
      rcases h with rfl | rfl
      · exact ⟨.property, rfl⟩
      · exact ⟨.object, rfl⟩
    | unary operator argument =>
      obtain rfl := List.mem_singleton.mp h
      exact ⟨.operand, rfl⟩
    | binary operator left right =>
      simp only [children, List.mem_cons, List.not_mem_nil, or_false] at h
      rcases h with rfl | rfl
      · exact ⟨.left, rfl⟩
      · exact ⟨.right, rfl⟩
    | numeric | string | boolean | identifier | unknown => exact absurd h List.not_mem_nil
  · rintro ⟨step, h⟩
    unfold part? at h
    split at h
    all_goals
      first
      | (cases h; done)
      | have hmem := List.mem_of_getElem? h
        simp [children, hmem]
      | cases h
        simp [children]

theorem size_le_sizeAll {node : Node} {nodes : List Node} (h : node ∈ nodes) :
    node.size ≤ sizeAll nodes := by
  induction nodes with
  | nil => exact absurd h List.not_mem_nil
  | cons head rest ih =>
    rw [sizeAll]
    rcases List.mem_cons.mp h with rfl | h
    · exact Nat.le_add_right _ _
    · exact Nat.le_trans (ih h) (Nat.le_add_left _ _)

theorem size_lt_of_mem_children {node part : Node} (h : part ∈ node.children) :
    part.size < node.size := by
  have hsize := size_le_sizeAll h
  rw [size_eq node]
  omega

/-- A property of all trees follows if each node has it whose children have it. -/
theorem children_induction {motive : Node → Prop}
    (inherit : ∀ node : Node, (∀ part ∈ node.children, motive part) → motive node) (node : Node) :
    motive node := by
  induction hn : node.size using Nat.strongRecOn generalizing node with
  | ind n ih =>
    subst hn
    exact inherit node fun part hpart => ih part.size (size_lt_of_mem_children hpart) part rfl

/-! ## Subtrees -/

theorem contains_self (node : Node) : node.Contains node := ⟨[], rfl⟩

theorem Contains.of_child {node child part : Node} (hchild : child ∈ node.children)
    (h : child.Contains part) : node.Contains part := by
  obtain ⟨position, hposition⟩ := h
  obtain ⟨step, hstep⟩ := mem_children_iff.mp hchild
  refine ⟨step :: position, ?_⟩
  rw [at?, hstep]
  exact hposition

/-- The subtrees of a node are the node itself and the subtrees of its children. -/
theorem contains_iff {node part : Node} :
    node.Contains part ↔ part = node ∨ ∃ child ∈ node.children, child.Contains part := by
  constructor
  · rintro ⟨position, hposition⟩
    cases position with
    | nil => exact Or.inl (Option.some.inj hposition).symm
    | cons step rest =>
      rw [at?] at hposition
      obtain ⟨child, hchild, hrest⟩ := Option.bind_eq_some_iff.mp hposition
      exact Or.inr ⟨child, mem_children_iff.mpr ⟨step, hchild⟩, rest, hrest⟩
  · rintro (rfl | ⟨child, hchild, h⟩)
    · exact contains_self part
    · exact h.of_child hchild

/-- The subtrees of a node, from the node itself downwards. -/
def subtrees (node : Node) : List Node :=
  node :: node.children.attach.flatMap fun child => child.1.subtrees
termination_by node.size
decreasing_by exact size_lt_of_mem_children child.2

theorem subtrees_eq (node : Node) :
    node.subtrees = node :: node.children.flatMap subtrees := by
  rw [subtrees]
  simp

theorem mem_subtrees_iff {node part : Node} : part ∈ node.subtrees ↔ node.Contains part := by
  induction node using children_induction with
  | inherit node ih =>
    rw [subtrees_eq, List.mem_cons, List.mem_flatMap, contains_iff]
    exact or_congr_right (exists_congr fun child => and_congr_right fun hchild => ih child hchild)

/-! ## Replacement -/

theorem kind_setPart (node : Node) (step : Step) (part : Node) :
    (node.setPart step part).kind = node.kind := by
  unfold setPart
  split <;> rfl

theorem part?_setPart {node part : Node} {step : Step} (h : node.part? step = some part)
    (new : Node) : (node.setPart step new).part? step = some new := by
  unfold part? at h
  split at h
  all_goals
    first
    | (cases h; done)
    | rfl
    | obtain ⟨hi, _⟩ := List.getElem?_eq_some_iff.mp h
      simp [setPart, part?, hi]

/-- What was put at a position of a tree is found there. -/
theorem at?_replaceAt {node : Node} {position : Position} (h : (node.at? position).isSome)
    (new : Node) : (node.replaceAt position new).at? position = some new := by
  induction position generalizing node with
  | nil => rfl
  | cons step rest ih =>
    rw [at?] at h
    cases hpart : node.part? step with
    | none => simp [hpart] at h
    | some part =>
      rw [hpart, Option.bind_some] at h
      rw [replaceAt, hpart, at?, part?_setPart hpart, Option.bind_some]
      exact ih h

/-- A replacement below the root keeps the kind of the root. -/
theorem replaceAt_kind (node : Node) (step : Step) (rest : Position) (new : Node) :
    (node.replaceAt (step :: rest) new).kind = node.kind := by
  rw [replaceAt]
  split
  · exact kind_setPart _ _ _
  · rfl

/-- A leaf has no positions below its root. -/
theorem replaceAt_leaf {node : Node} (h : node.children = []) (step : Step) (rest : Position)
    (new : Node) : node.replaceAt (step :: rest) new = node := by
  rw [replaceAt]
  cases hpart : node.part? step with
  | none => rfl
  | some part =>
    have hmem := mem_children_iff.mpr ⟨step, hpart⟩
    rw [h] at hmem
    exact absurd hmem List.not_mem_nil

end Node

end Templating
