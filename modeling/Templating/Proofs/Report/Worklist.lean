import Templating.Proofs.Fields
import Templating.Proofs.Node.Depth
import Templating.Report

/-!
# Counting in any order

The census of a tree takes trees off a worklist, counts their roots and puts their children on it.
In which order this is done makes no difference: each node of the tree is visited once.

* `Node.nodes` are the nodes of a tree, `Node.occurrences` is how many of them have a tag.
* `Survey.Visits` is the visit of one tree on a worklist, whichever it is; `Survey.Walks` are any
  number of visits.

Results:
1. `nodes_perm`: the children of a node hold what its fields hold, each node once; `length_nodes`
   is the size of the tree.
2. `Visits.perm`, `Walks.perm`: the nodes that were visited and those that are still to be visited
   are together the nodes at the start; `censusFrom_walks`: the census is such a walk.
3. `Shows.tallyAll`, `tallyAll_perm`, `total_tallyAll`: what the counts of visited nodes say.
4. `census_counts`: a census counts each node once, whatever the order of its worklist.
-/

namespace Templating

/-! ## Definitions -/

namespace Node

mutual

/-- The nodes of a tree: the node itself, and the nodes of the trees in all of its fields. -/
def nodes : Node → List Node
  | program body => program body :: nodesIn body
  | set assignee value => set assignee value :: (assignee.nodes ++ value.nodes)
  | branch test body alternate =>
    branch test body alternate :: (test.nodes ++ (nodesIn body ++ nodesIn alternate))
  | loop target iterable body =>
    loop target iterable body :: (target.nodes ++ (iterable.nodes ++ nodesIn body))
  | call callee args => call callee args :: (callee.nodes ++ nodesIn args)
  | member object property computed =>
    member object property computed :: (object.nodes ++ property.nodes)
  | unary operator argument => unary operator argument :: argument.nodes
  | binary operator left right => binary operator left right :: (left.nodes ++ right.nodes)
  | numeric value => [numeric value]
  | string value => [string value]
  | boolean value => [boolean value]
  | identifier name => [identifier name]
  | unknown => [unknown]

def nodesIn : List Node → List Node
  | [] => []
  | node :: rest => node.nodes ++ nodesIn rest

end

/-- The number of nodes with a tag in a list. -/
def occurrencesIn (tag : String) (nodes : List Node) : Nat :=
  nodes.countP fun node => node.kindName = tag

/-- The number of nodes with a tag in a tree. -/
def occurrences (tag : String) (node : Node) : Nat := occurrencesIn tag node.nodes

/-- Counts the nodes of a list one after the other. -/
def tallyAll (counts : List (String × Nat)) (nodes : List Node) : List (String × Nat) :=
  nodes.foldl (fun counts node => tally counts node.kindName) counts

end Node

open Node

/-- A census that is under way: the counts so far, and the trees that are still to be visited. -/
structure Survey where
  counts : List (String × Nat)
  pending : List Node

namespace Survey

/-- One of the pending trees is visited, wherever it stands: its root is counted, and its children
are put among the other trees, wherever. -/
inductive Visits : Survey → Node → Survey → Prop
  | visit {counts : List (String × Nat)} {pending rest after : List Node} {node : Node} :
      pending.Perm (node :: rest) → after.Perm (node.children ++ rest) →
      Visits ⟨counts, pending⟩ node ⟨tally counts node.kindName, after⟩

/-- Trees are visited one after the other, the roots of which are listed. -/
inductive Walks : Survey → List Node → Survey → Prop
  | done (survey : Survey) : Walks survey [] survey
  | visit {first middle last : Survey} {node : Node} {visited : List Node} :
      first.Visits node middle → Walks middle visited last → Walks first (node :: visited) last

end Survey

/-! ## 1. Nodes -/

namespace Node

theorem nodesIn_eq_flatMap (list : List Node) : nodesIn list = list.flatMap nodes := by
  induction list with
  | nil => rfl
  | cons node rest ih => rw [nodesIn, ih, List.flatMap_cons]

theorem nodesIn_append (list others : List Node) :
    nodesIn (list ++ others) = nodesIn list ++ nodesIn others := by
  simp only [nodesIn_eq_flatMap, List.flatMap_append]

theorem nodesIn_perm {list others : List Node} (h : list.Perm others) :
    (nodesIn list).Perm (nodesIn others) := by
  rw [nodesIn_eq_flatMap, nodesIn_eq_flatMap]
  exact h.flatMap_right nodes

/-- The nodes of a tree are its root and the nodes of its children, which may stand in another order
than its fields. -/
theorem nodes_perm (node : Node) : node.nodes.Perm (node :: nodesIn node.children) := by
  cases node with
  | call callee args =>
    refine .cons _ ?_
    simpa [children, nodesIn_append, nodesIn] using List.perm_append_comm
  | member object property computed =>
    refine .cons _ ?_
    simpa [children, nodesIn] using List.perm_append_comm
  | _ => exact .of_eq (by simp [nodes, children, nodesIn, nodesIn_append])

theorem length_nodesIn {list : List Node} (h : ∀ node ∈ list, node.nodes.length = node.size) :
    (nodesIn list).length = sizeAll list := by
  induction list with
  | nil => rfl
  | cons node rest ih =>
    obtain ⟨hnode, hrest⟩ := List.forall_mem_cons.mp h
    rw [nodesIn, sizeAll, List.length_append, hnode, ih hrest]

theorem length_nodes (node : Node) : node.nodes.length = node.size := by
  induction node using children_induction with
  | inherit node ih =>
    rw [node.nodes_perm.length_eq, List.length_cons, length_nodesIn ih, size_eq, Nat.add_comm]

end Node

/-! ## 2. Walks -/

namespace Survey

variable {first last : Survey} {node : Node} {visited : List Node}

/-- A visit takes one node from those that are still to be visited. -/
theorem Visits.perm (h : first.Visits node last) :
    (nodesIn first.pending).Perm (node :: nodesIn last.pending) := by
  cases h with
  | @visit counts pending rest after _ hpending hafter =>
    have hnode : (nodesIn (node :: rest)).Perm (node :: nodesIn (node.children ++ rest)) := by
      rw [nodesIn_append, ← List.cons_append]
      exact node.nodes_perm.append_right (nodesIn rest)
    exact ((nodesIn_perm hpending).trans hnode).trans (.cons node (nodesIn_perm hafter.symm))

theorem Visits.counts_eq (h : first.Visits node last) :
    last.counts = tally first.counts node.kindName := by
  cases h
  rfl

/-- As long as a tree is pending, it can be visited. -/
theorem exists_visits {survey : Survey} (h : survey.pending ≠ []) :
    ∃ node next, survey.Visits node next := by
  obtain ⟨counts, pending⟩ := survey
  obtain ⟨node, rest, rfl⟩ := List.exists_cons_of_ne_nil h
  exact ⟨node, _, .visit (.refl _) (.refl _)⟩

/-- Whatever is visited and whatever is still to be visited are together the nodes at the start. -/
theorem Walks.perm (h : first.Walks visited last) :
    (nodesIn first.pending).Perm (visited ++ nodesIn last.pending) := by
  induction h with
  | done => exact .refl _
  | visit hvisit _ ih => exact hvisit.perm.trans (ih.cons _)

theorem Walks.counts_eq (h : first.Walks visited last) :
    last.counts = tallyAll first.counts visited := by
  induction h with
  | done => rfl
  | visit hvisit _ ih => rw [ih, hvisit.counts_eq]; rfl

/-- The worklist of a census is a stack, which is one of the orders. -/
theorem censusFrom_walks (counts : List (String × Nat)) (pending : List Node) :
    ∃ visited, Walks ⟨counts, pending⟩ visited ⟨censusFrom counts pending, []⟩ := by
  induction counts, pending using censusFrom.induct with
  | case1 counts =>
    rw [censusFrom]
    exact ⟨[], .done _⟩
  | case2 counts node rest ih =>
    obtain ⟨visited, hvisited⟩ := ih
    rw [censusFrom]
    have hchildren := (node.children.reverse_perm).append_right rest
    exact ⟨node :: visited, .visit (.visit (.refl _) hchildren) hvisited⟩

end Survey

/-! ## 3. Counts -/

namespace Node

/-- The counts are the given numbers, and names that are counted zero times are not among them. -/
def Shows (counts : List (String × Nat)) (number : String → Nat) : Prop :=
  ∀ name, Fields.find? counts name = if number name = 0 then none else some (number name)

variable {counts others : List (String × Nat)} {number : String → Nat}

/-- Names without a count are counted zero times. -/
theorem Shows.getD (h : Shows counts number) (name : String) :
    (Fields.find? counts name).getD 0 = number name := by
  rw [h name]
  split
  next hzero => exact hzero.symm
  next => rfl

theorem Shows.tally (h : Shows counts number) (name : String) :
    Shows (tally counts name) fun other => number other + if name = other then 1 else 0 := by
  intro other
  beta_reduce
  rw [Node.tally, Fields.find?_insert, h.getD name]
  by_cases hsame : other = name
  · subst hsame
    simp
  · rw [if_neg hsame, h other, if_neg (Ne.symm hsame), Nat.add_zero]

theorem occurrencesIn_cons (tag : String) (node : Node) (rest : List Node) :
    occurrencesIn tag (node :: rest) =
      (if node.kindName = tag then 1 else 0) + occurrencesIn tag rest := by
  rw [occurrencesIn, List.countP_cons, Nat.add_comm, occurrencesIn]
  simp only [decide_eq_true_eq]

theorem Shows.tallyAll (h : Shows counts number) (nodes : List Node) :
    Shows (tallyAll counts nodes) fun tag => number tag + occurrencesIn tag nodes := by
  induction nodes generalizing counts number with
  | nil => exact h
  | cons node rest ih =>
    have hrest := ih (h.tally node.kindName)
    simp only [Nat.add_assoc, ← occurrencesIn_cons] at hrest
    exact hrest

theorem shows_tallyAll (nodes : List Node) :
    Shows (Node.tallyAll [] nodes) fun tag => occurrencesIn tag nodes := by
  have hnone : Shows [] fun _ => 0 := fun _ => rfl
  have h := hnone.tallyAll nodes
  simp only [Nat.zero_add] at h
  exact h

theorem sorted_tally (h : Fields.Sorted counts) (name : String) :
    Fields.Sorted (Node.tally counts name) :=
  h.insert name _

theorem sorted_tallyAll (h : Fields.Sorted counts) (nodes : List Node) :
    Fields.Sorted (Node.tallyAll counts nodes) := by
  induction nodes generalizing counts with
  | nil => exact h
  | cons node rest ih => exact ih (sorted_tally h node.kindName)

/-- Counts do not depend on the order in which nodes are counted. -/
theorem tallyAll_perm {nodes others : List Node} (h : nodes.Perm others) :
    Node.tallyAll [] nodes = Node.tallyAll [] others := by
  refine (sorted_tallyAll Fields.sorted_nil nodes).eq_of_find?
    (sorted_tallyAll Fields.sorted_nil others) fun tag => ?_
  have hsame : occurrencesIn tag nodes = occurrencesIn tag others := h.countP_eq _
  rw [shows_tallyAll nodes tag, shows_tallyAll others tag]
  beta_reduce
  rw [hsame]

/-- The sum of counts. -/
def total (counts : List (String × Nat)) : Nat :=
  counts.foldr (fun entry rest => entry.2 + rest) 0

theorem total_cons (entry : String × Nat) (rest : List (String × Nat)) :
    total (entry :: rest) = entry.2 + total rest := rfl

theorem total_tally (h : Fields.Sorted counts) (name : String) :
    total (Node.tally counts name) = total counts + 1 := by
  induction counts with
  | nil => rfl
  | cons entry rest ih =>
    obtain ⟨other, count⟩ := entry
    obtain ⟨hother, hrest⟩ := List.pairwise_cons.mp h
    rw [Node.tally, Fields.insert, Fields.find?_cons]
    split
    next hlt =>
      -- All names are greater, so that this one has not been counted yet.
      have hnone : Fields.find? rest name = none := by
        refine Fields.find?_eq_none_of_not_mem fun hmem => ?_
        exact String.lt_irrefl name (String.lt_trans hlt (hother name hmem))
      have hne : name ≠ other := by
        rintro rfl
        exact String.lt_irrefl name hlt
      rw [if_neg hne, hnone, total_cons, total_cons, Option.getD_none]
      omega
    next =>
      split
      next =>
        rw [total_cons, total_cons, Option.getD_some]
        omega
      next =>
        have htotal := ih hrest
        rw [Node.tally] at htotal
        rw [total_cons, total_cons, htotal]
        omega

theorem total_tallyAll (h : Fields.Sorted counts) (nodes : List Node) :
    total (Node.tallyAll counts nodes) = total counts + nodes.length := by
  induction nodes generalizing counts with
  | nil => rfl
  | cons node rest ih =>
    have hrest := ih (sorted_tally h node.kindName)
    rw [total_tally h] at hrest
    rw [List.length_cons, Nat.add_comm rest.length, ← Nat.add_assoc]
    exact hrest

end Node

/-! ## 4. The census -/

namespace Survey

variable {node : Node} {visited : List Node} {last : Survey}

/-- The count of a tree starts with the tree itself and no counts. -/
def start (node : Node) : Survey := ⟨[], [node]⟩

theorem Walks.perm_nodes (h : (start node).Walks visited last) :
    node.nodes.Perm (visited ++ nodesIn last.pending) := by
  have hstart : nodesIn (start node).pending = node.nodes := List.append_nil node.nodes
  exact hstart ▸ h.perm

/-- Where nothing is pending any more, each node has been visited once. -/
theorem Walks.perm_of_end (h : (start node).Walks visited last) (hend : last.pending = []) :
    visited.Perm node.nodes := by
  have hperm := h.perm_nodes
  rw [hend, nodesIn, List.append_nil] at hperm
  exact hperm.symm

end Survey

theorem Node.census_eq (node : Node) : node.census = tallyAll [] node.nodes := by
  obtain ⟨visited, hvisited⟩ := Survey.censusFrom_walks [] [node]
  exact hvisited.counts_eq.trans (tallyAll_perm (hvisited.perm_of_end rfl))

theorem nodesIn_ne_nil {pending : List Node} (h : pending ≠ []) : nodesIn pending ≠ [] := by
  obtain ⟨node, rest, rfl⟩ := List.exists_cons_of_ne_nil h
  intro hnil
  have hnode := (List.append_eq_nil_iff.mp hnil).1
  have hlength := node.length_nodes
  have hpos := node.depth_le_size.trans' node.depth_pos
  rw [hnode, List.length_nil] at hlength
  omega

namespace Report

theorem nodes_ofNode (node : Node) : (ofNode node).nodes = node.nodes.length := by
  have htotal := total_tallyAll Fields.sorted_nil node.nodes
  rw [← node.census_eq] at htotal
  exact htotal.trans (Nat.zero_add _)

/-- Whatever the order of its worklist, the count of a tree visits each node once and then ends with
the same counts; the stack of the census is one of the orders. For each tag the counts are the
number of nodes with this tag in the tree. A report gives their sum as the number of nodes, which is
at least the depth. -/
theorem census_counts (node : Node) :
    (∀ tag, Fields.find? node.census tag =
      if node.occurrences tag = 0 then none else some (node.occurrences tag)) ∧
    (∀ visited last, (Survey.start node).Walks visited last →
      (last.pending = [] → visited.Perm node.nodes ∧ last.counts = node.census) ∧
      (last.pending ≠ [] →
        visited.length < node.nodes.length ∧ ∃ part next, last.Visits part next)) ∧
    (∃ visited, (Survey.start node).Walks visited ⟨node.census, []⟩) ∧
    (ofNode node).nodes = node.nodes.length ∧ (ofNode node).depth ≤ (ofNode node).nodes := by
  refine ⟨fun tag => ?_, fun visited last hwalk => ⟨fun hend => ?_, fun hgoes => ?_⟩,
    Survey.censusFrom_walks [] [node], nodes_ofNode node, ?_⟩
  · rw [node.census_eq]
    exact shows_tallyAll node.nodes tag
  · have hperm := hwalk.perm_of_end hend
    rw [node.census_eq, ← tallyAll_perm hperm]
    exact ⟨hperm, hwalk.counts_eq⟩
  · refine ⟨?_, Survey.exists_visits hgoes⟩
    have hpending := List.length_pos_iff.mpr (nodesIn_ne_nil hgoes)
    rw [hwalk.perm_nodes.length_eq, List.length_append]
    omega
  · rw [nodes_ofNode, node.length_nodes]
    exact node.depth_le_size

end Report

end Templating
