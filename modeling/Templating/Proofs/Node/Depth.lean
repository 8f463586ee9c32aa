import Templating.Proofs.Node.Reload

/-!
# The depth of trees

A tree is written with one object for each node on a path, and one list more where the path leads
through a block or through arguments. So its depth and the nesting of its text bound each other. The
depth in turn bounds every recursion over the tree.

* `Node.within` runs a recursion over trees with a limited number of calls inside each other.

Results:
1. `depth_eq`, `depth_le_succ_iff`: depth is one more than the greatest depth of a child;
   `depth_le_size`: there are at least as many nodes as levels.
2. `Recursion.within_eq`: a recursion needs no more calls inside each other than the tree is deep;
   `recursion_depth`: the depth itself is computed in this way.
3. `depth_le_nesting`, `nesting_le_depth`: depth and nesting; `exists_reloaded_of_depth`: which
   trees can always be loaded again.
-/

namespace Templating.Node

/-! ## 1. Children -/

theorem depthAll_append (nodes others : List Node) :
    depthAll (nodes ++ others) = max (depthAll nodes) (depthAll others) := by
  induction nodes with
  | nil => exact (Nat.zero_max _).symm
  | cons node rest ih => rw [List.cons_append, depthAll, depthAll, ih, Nat.max_assoc]

/-- A node is one level more than its children. -/
theorem depth_eq (node : Node) : node.depth = 1 + depthAll node.children := by
  cases node <;> simp [depth, children, depthAll, depthAll_append]

theorem depthAll_le_iff {nodes : List Node} {d : Nat} :
    depthAll nodes ≤ d ↔ ∀ node ∈ nodes, node.depth ≤ d := by
  induction nodes with
  | nil => simp [depthAll]
  | cons node rest ih => rw [depthAll, Nat.max_le, ih, List.forall_mem_cons]

theorem depth_le_succ_iff {node : Node} {d : Nat} :
    node.depth ≤ d + 1 ↔ ∀ child ∈ node.children, child.depth ≤ d := by
  rw [depth_eq, Nat.add_comm, Nat.add_le_add_iff_right, depthAll_le_iff]

theorem depth_pos (node : Node) : 0 < node.depth := by
  rw [depth_eq]
  omega

theorem depth_le_size (node : Node) : node.depth ≤ node.size := by
  induction node using children_induction with
  | inherit node ih =>
    have hchildren : depthAll node.children ≤ sizeAll node.children :=
      depthAll_le_iff.mpr fun child hchild => (ih child hchild).trans (size_le_sizeAll hchild)
    rw [depth_eq, size_eq]
    omega

/-! ## 2. Recursion -/

/-- A recursion over trees with at most `limit` calls inside each other: `level` says what one call
does, where its argument stands for the calls inside of it. Calls inside of more than `limit` others
are answered by `beyond` instead. -/
def within {α : Type} (level : (Node → α) → Node → α) (beyond : Node → α) : Nat → Node → α
  | 0 => beyond
  | limit + 1 => level (within level beyond limit)

/-- A function on trees is computed by recursion: it calls itself for nothing but children. -/
structure Recursion {α : Type} (run : Node → α) (level : (Node → α) → Node → α) : Prop where
  equation : ∀ node, run node = level run node
  congr : ∀ {inner other : Node → α} {node : Node},
    (∀ child ∈ node.children, inner child = other child) → level inner node = level other node

/-- What is beyond the limit makes no difference to a tree that is no deeper than the limit. -/
theorem Recursion.within_eq {α : Type} {run : Node → α} {level : (Node → α) → Node → α}
    (h : Recursion run level) (beyond : Node → α) {limit : Nat} {node : Node}
    (hdepth : node.depth ≤ limit) : within level beyond limit node = run node := by
  induction limit generalizing node with
  | zero => exact absurd node.depth_pos (Nat.not_lt.mpr hdepth)
  | succ limit ih =>
    rw [within, h.equation]
    exact h.congr fun child hchild => ih (depth_le_succ_iff.mp hdepth child hchild)

/-- One level of the computation of depths. -/
def depthLevel (inner : Node → Nat) (node : Node) : Nat :=
  1 + (node.children.map inner).max?.getD 0

theorem depthAll_eq_max? (nodes : List Node) : depthAll nodes = (nodes.map depth).max?.getD 0 := by
  induction nodes with
  | nil => rfl
  | cons node rest ih =>
    rw [depthAll, ih, List.map_cons, List.max?_cons]
    cases (rest.map depth).max? with
    | none => exact Nat.max_zero _
    | some greatest => rfl

theorem recursion_depth : Recursion depth depthLevel where
  equation node := by rw [depth_eq, depthAll_eq_max?, depthLevel]
  congr h := by rw [depthLevel, depthLevel, List.map_congr_left h]

/-! ## 3. Nesting -/

/-- Every child belongs to a part. -/
theorem exists_part_of_child {node child : Node} (h : child ∈ node.children) :
    ∃ part ∈ node.parts, child ∈ part.2.subtrees := by
  revert h
  cases node <;> simp [children, parts, Part.subtrees, or_comm, or_left_comm]

/-- The text of a part holds those of its nodes. -/
theorem nesting_subtree_le {part : Part} {child : Node} (h : child ∈ part.subtrees) :
    child.toJson.nesting ≤ part.toJson.nesting := by
  cases part with
  | node value =>
    obtain rfl := List.mem_singleton.mp h
    exact Nat.le_refl _
  | nodes value =>
    have hitems : ∀ json ∈ value.map toJson, json.nesting ≤ Json.nestingItems (value.map toJson) :=
      Json.nestingItems_le_iff.mp (Nat.le_refl _)
    rw [Part.toJson, Json.nesting_array]
    exact (hitems _ (List.mem_map_of_mem h)).trans (Nat.le_add_left _ _)
  | _ => exact absurd h List.not_mem_nil

theorem nesting_part_lt {node : Node} {part : String × Part} (h : part ∈ node.parts) :
    part.2.toJson.nesting < node.toJson.nesting := by
  have hmembers : ∀ member ∈ node.jsonMembers,
      member.2.nesting ≤ Json.nestingMembers node.jsonMembers :=
    Json.nestingMembers_le_iff.mp (Nat.le_refl _)
  rw [nesting_toJson, Nat.add_comm]
  exact Nat.lt_succ_of_le (hmembers (part.1, part.2.toJson) (List.mem_map_of_mem h))

/-- Each level of the tree is written as an object at least. -/
theorem depth_le_nesting (node : Node) : node.depth ≤ node.toJson.nesting := by
  induction node using children_induction with
  | inherit node ih =>
    rw [nesting_toJson, Nat.add_comm, depth_le_succ_iff]
    intro child hchild
    obtain ⟨part, hpart, hsubtree⟩ := exists_part_of_child hchild
    have hlt := nesting_part_lt hpart
    rw [nesting_toJson, Nat.add_comm] at hlt
    exact ((ih child hchild).trans (nesting_subtree_le hsubtree)).trans (Nat.le_of_lt_succ hlt)

/-- A part of nodes is written with one list around them at most. -/
theorem nesting_part_le {part : Part} {n : Nat}
    (h : ∀ child ∈ part.subtrees, child.toJson.nesting ≤ n) : part.toJson.nesting ≤ n + 1 := by
  cases part with
  | node value => exact Nat.le_succ_of_le (h value (List.mem_singleton.mpr rfl))
  | nodes value =>
    have hitems : Json.nestingItems (value.map toJson) ≤ n :=
      Json.nestingItems_le_iff.mpr (List.forall_mem_map.mpr h)
    rw [Part.toJson, Json.nesting_array]
    omega
  | numeral value => cases value <;> exact Nat.zero_le _
  | _ => exact Nat.zero_le _

/-- Each level of the tree is written as an object and a list at most. -/
theorem nesting_le_depth (node : Node) : node.toJson.nesting ≤ 2 * node.depth := by
  induction node using children_induction with
  | inherit node ih =>
    have hparts : ∀ part ∈ node.parts,
        part.2.toJson.nesting ≤ 2 * depthAll node.children + 1 := by
      refine fun part hpart => nesting_part_le fun child hchild => ?_
      have hmem := subtrees_subset_children node part hpart child hchild
      have hdepth := depthAll_le_iff.mp (Nat.le_refl _) child hmem
      have hnesting := ih child hmem
      omega
    have hmembers : Json.nestingMembers node.jsonMembers ≤ 2 * depthAll node.children + 1 :=
      Json.nestingMembers_le_iff.mpr (List.forall_mem_map.mpr hparts)
    rw [nesting_toJson, depth_eq]
    omega

/-- Both bounds are reached: by nested operators, and by nested blocks. -/
theorem nesting_iterate (n : Nat) :
    (((unary .not)^[n] unknown).depth = n + 1 ∧
      ((unary .not)^[n] unknown).toJson.nesting = n + 1) ∧
    (((fun node => program [node])^[n] (program [])).depth = n + 1 ∧
      ((fun node => program [node])^[n] (program [])).toJson.nesting = 2 * (n + 1)) := by
  induction n with
  | zero => exact ⟨⟨rfl, rfl⟩, ⟨rfl, rfl⟩⟩
  | succ n ih =>
    obtain ⟨⟨hdepth, hnesting⟩, hdepthBlock, hnestingBlock⟩ := ih
    simp only [Function.iterate_succ_apply', depth, depthAll, toJson, allToJson, tagged,
      Json.nesting, Json.nestingMembers, Json.nestingItems, hdepth, hnesting, hdepthBlock,
      hnestingBlock]
    omega

/-- A tree whose depth is at most half of the nesting that is allowed can be loaded again. -/
theorem exists_reloaded_of_depth {node : Node} (hfinite : node.hasFiniteNumbers = true)
    (hdepth : 2 * node.depth ≤ Json.Reader.maxNesting) :
    ∃ reloaded, Node.parse node.print = .ok reloaded ∧ (reloaded = node ↔ node.NumbersReread) :=
  exists_reloaded hfinite ((nesting_le_depth node).trans hdepth)

/-- A tree that was loaded is no deeper than texts may be nested, in whatever spelling it came. -/
theorem depth_le_of_parse {text : String} {node : Node} (h : Node.parse text = .ok node) :
    node.depth ≤ Json.Reader.maxNesting := by
  obtain ⟨-, ⟨json, hjson, hnesting⟩, -⟩ := parse_stable h
  have hplain := Json.readable_iff.mp ⟨text, hjson⟩
  exact (depth_le_nesting node).trans (hnesting.trans hplain.nesting)

end Templating.Node
