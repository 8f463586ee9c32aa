import Templating.Proofs.Node.Position

/-!
# Names in a tree

A tree mentions a name if one of its identifiers is that name, be it a variable, something that is
bound or the property of a member.

Renaming a tree changes its variables. The property of a member that is not computed is no variable
but a constant, so it is left alone.

Results:
1. `Mentions.of_child`: a tree mentions what its parts mention.
2. `rename_member`: how a member is renamed, said of its property.
3. `rename_id`: renaming every name to itself changes nothing.
-/

namespace Templating.Node

/-! ## Definitions -/

/-- Some identifier of a tree is the name. -/
def Mentions (node : Node) (name : String) : Prop := node.Contains (.identifier name)

mutual

/-- The tree with other names for its variables. -/
def rename (r : String → String) : Node → Node
  | .program body => .program (renameAll r body)
  | .set assignee value => .set (assignee.rename r) (value.rename r)
  | .branch test body alternate =>
    .branch (test.rename r) (renameAll r body) (renameAll r alternate)
  | .loop target iterable body =>
    .loop (target.rename r) (iterable.rename r) (renameAll r body)
  | .numeric value => .numeric value
  | .string value => .string value
  | .boolean value => .boolean value
  | .identifier name => .identifier (r name)
  | .call callee args => .call (callee.rename r) (renameAll r args)
  | .member object property computed =>
    let property :=
      match computed, property with
      | false, .identifier name => .identifier name
      | _, property => property.rename r
    .member (object.rename r) property computed
  | .unary operator argument => .unary operator (argument.rename r)
  | .binary operator left right => .binary operator (left.rename r) (right.rename r)
  | .unknown => .unknown

def renameAll (r : String → String) : List Node → List Node
  | [] => []
  | node :: rest => node.rename r :: renameAll r rest

end

/-- The property of a member in a renamed tree. -/
def renameProperty (r : String → String) : Bool → Node → Node
  | false, .identifier name => .identifier name
  | _, property => property.rename r

/-! ## 1. Mentioned names -/

theorem Mentions.of_child {node child : Node} {name : String} (hchild : child ∈ node.children)
    (h : child.Mentions name) : node.Mentions name :=
  Contains.of_child hchild h

/-! ## 2. Members -/

theorem rename_member (r : String → String) (object property : Node) (computed : Bool) :
    (member object property computed).rename r =
      member (object.rename r) (renameProperty r computed property) computed := by
  cases computed with
  | true => cases property <;> rfl
  | false => cases property <;> rfl

/-! ## 3. Identity -/

theorem renameProperty_id {property : Node} (computed : Bool) (h : property.rename id = property) :
    renameProperty id computed property = property := by
  unfold renameProperty
  split
  · rfl
  · exact h

mutual

/-- Renaming every name to itself changes nothing. -/
theorem rename_id : ∀ node : Node, node.rename id = node
  | .program body => by rw [rename, renameAll_id body]
  | .set assignee value => by rw [rename, rename_id assignee, rename_id value]
  | .branch test body alternate => by
    rw [rename, rename_id test, renameAll_id body, renameAll_id alternate]
  | .loop target iterable body => by
    rw [rename, rename_id target, rename_id iterable, renameAll_id body]
  | .numeric _ | .string _ | .boolean _ | .identifier _ | .unknown => rfl
  | .call callee args => by rw [rename, rename_id callee, renameAll_id args]
  | .member object property computed => by
    rw [rename_member, rename_id object, renameProperty_id computed (rename_id property)]
  | .unary operator argument => by rw [rename, rename_id argument]
  | .binary operator left right => by rw [rename, rename_id left, rename_id right]

theorem renameAll_id : ∀ nodes : List Node, renameAll id nodes = nodes
  | [] => rfl
  | node :: rest => by rw [renameAll, rename_id node, renameAll_id rest]

end

end Templating.Node
