import Templating.Proofs.Evaluation.Effect
import Templating.Proofs.Evaluation.Failure
import Templating.Proofs.Node.Parts
import Templating.Proofs.Report.Worklist
import Templating.Proofs.Value.Json

/-!
# Counting nodes

The census of a tree counts the nodes of each tag. `Node.count` counts the subtrees of each kind
instead, and the two agree.

Results:
1. `count_eq_zero_iff`: the count of a kind is zero exactly if no subtree is of that kind.
2. `find?_census`: the census gives the count of every kind.
3. `warning_eq_none`: the report of a tree comes without a warning exactly if there is no unknown
   node in the tree, and then no evaluation of it fails because of one.
-/

namespace Templating

namespace Node

/-! ## 1. Counts -/

/-- The number of nodes of a kind in a list. -/
def countIn (kind : Kind) (nodes : List Node) : Nat := nodes.countP fun node => node.kind = kind

/-- The number of nodes of a kind in a tree. -/
def count (kind : Kind) (node : Node) : Nat := countIn kind node.subtrees

/-- The count of a kind is zero exactly if no subtree is of that kind. -/
theorem count_eq_zero_iff {kind : Kind} {node : Node} :
    node.count kind = 0 ↔ ∀ part, node.Contains part → part.kind ≠ kind := by
  rw [count, countIn, List.countP_eq_zero]
  refine forall_congr' fun part => ?_
  rw [mem_subtrees_iff, decide_eq_true_iff]

/-! ## 2. The census -/

/-- What a list of counts says of a kind. -/
def tallied (counts : List (String × Nat)) (kind : Kind) : Nat :=
  (Fields.find? counts kind.name).getD 0

/-- The subtrees are the nodes in all fields, which may come in another order. -/
theorem nodes_perm_subtrees (node : Node) : node.nodes.Perm node.subtrees := by
  induction node using children_induction with
  | inherit node ih =>
    rw [subtrees_eq]
    refine node.nodes_perm.trans (.cons node ?_)
    rw [nodesIn_eq_flatMap]
    exact .flatMap_left node.children ih

/-- Kinds have distinct names. -/
theorem occurrencesIn_name (kind : Kind) (nodes : List Node) :
    occurrencesIn kind.name nodes = countIn kind nodes := by
  refine List.countP_congr fun node _ => ?_
  rw [decide_eq_true_iff, decide_eq_true_iff, kindName]
  constructor
  · intro hname
    have hsame := congrArg Kind.ofName hname
    rwa [Kind.ofName_name, Kind.ofName_name] at hsame
  · exact congrArg Kind.name

theorem tallied_census (node : Node) (kind : Kind) :
    tallied node.census kind = occurrencesIn kind.name node.nodes := by
  rw [node.census_eq]
  exact (shows_tallyAll node.nodes).getD kind.name

/-- The census gives the number of nodes of every kind. -/
theorem find?_census (node : Node) (kind : Kind) :
    (Fields.find? node.census kind.name).getD 0 = node.count kind := by
  have hperm : countIn kind node.nodes = countIn kind node.subtrees :=
    node.nodes_perm_subtrees.countP_eq _
  exact (tallied_census node kind).trans ((occurrencesIn_name kind node.nodes).trans hperm)

theorem kind_eq_unknown {node : Node} (h : node.kind = .unknown) : node = .unknown := by
  cases node with
  | unknown => rfl
  | _ => cases h

end Node

/-! ## 3. Warnings -/

/-- No native function fails because of an unknown node. -/
def Natives.KnowNodes (natives : Natives) : Prop :=
  ∀ identity args chain, ((natives identity args).start chain).1 ≠ .error .unknownNode

/-- Functions of the host never see a node. -/
theorem Natives.ofHost_knowNodes (functions : Nat → String × HostFunction) :
    (Natives.ofHost functions).KnowNodes := by
  intro identity args chain hfails
  rcases HostFunction.run_eq_error hfails with ⟨cause, h⟩ | ⟨message, h⟩
  · cases h
  · cases h

namespace Report

theorem warning?_eq_none_iff_count {node : Node} :
    (ofNode node).warning? = none ↔ node.count .unknown = 0 := by
  have hcount : (ofNode node).unknown = node.count .unknown := node.find?_census .unknown
  rw [← hcount]
  unfold warning?
  split
  next hzero => exact ⟨fun _ => hzero, fun _ => rfl⟩
  next hne => exact ⟨fun h => (nomatch h), fun h => absurd h hne⟩

theorem warning?_eq_none_iff {node : Node} :
    (ofNode node).warning? = none ↔ ¬ node.Contains .unknown := by
  rw [warning?_eq_none_iff_count, Node.count_eq_zero_iff]
  constructor
  · intro h hunknown
    exact h .unknown hunknown rfl
  · intro h part hpart hkind
    exact h (Node.kind_eq_unknown hkind ▸ hpart)

/-- The report of a tree comes without a warning exactly if there is no unknown node in the tree.
Then no evaluation fails because of an unknown node, in whatever chain it starts, as long as no
native function itself does. -/
theorem warning_eq_none (node : Node) :
    ((ofNode node).warning? = none ↔ ¬ node.Contains .unknown) ∧
    ((ofNode node).warning? = none → ∀ natives : Natives, natives.KnowNodes → ∀ chain,
      ((node.evaluate natives).start chain).1 ≠ .error .unknownNode) := by
  refine ⟨warning?_eq_none_iff, fun hwarning natives hnatives chain hfails => ?_⟩
  have hknown := warning?_eq_none_iff.mp hwarning
  have hmeets := evaluate_meets Value.admissible_any natives.keep_any node
  obtain ⟨part, hpart, hraises⟩ := hmeets.error (fun _ _ _ _ => trivial) hfails
  cases hraises with
  | native _ herror => exact hnatives _ _ _ herror
  | unknown => exact hknown hpart

/-- A loop that calls a function of the host on every item: nothing is unknown in it, so even the
failure of the function is not put down to an unknown node. -/
theorem warning_eq_none_failing_call :
    let tree := Node.loop (.identifier "item") (.identifier "items")
      [.call (.identifier "fail") [.identifier "item"]]
    let natives := Natives.ofHost fun _ => ("fail", fun _ => .error "boom")
    let chain : Chain := ⟨[("fail", .native "fail" 0), ("items", .array [.null])], []⟩
    (ofNode tree).warning? = none ∧ natives.KnowNodes ∧
      ((tree.evaluate natives).start chain).1 ≠ .error .unknownNode := by
  intro tree natives chain
  have hwarning : (ofNode tree).warning? = none := by
    rw [warning?_eq_none_iff_count]
    simp [tree, Node.count, Node.countIn, Node.subtrees_eq, Node.children, Node.kind]
  have hnatives : natives.KnowNodes := Natives.ofHost_knowNodes _
  exact ⟨hwarning, hnatives, (warning_eq_none tree).2 hwarning natives hnatives chain⟩

end Report

end Templating
