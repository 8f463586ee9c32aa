import Templating.Fields

/-!
# Template trees

A template is a tree of nodes. Statements and expressions share one type: a statement is a node
that may stand in a block, an expression one that may stand anywhere else, and every node may do
both.

* `Node.number`, `Node.field` and `Node.index` build common nodes.
* `Node.kind` is the tag of a node, `Node.children` its direct parts in the order of evaluation.
* `Node.census` counts the nodes of a tree by kind, `Node.depth` is the length of its longest path.
-/

namespace Templating

inductive UnaryOperator where
  | not
  | negate
  deriving DecidableEq, Repr

def UnaryOperator.token : UnaryOperator → String
  | .not => "not"
  | .negate => "-"

def UnaryOperator.all : List UnaryOperator := [.not, .negate]

inductive BinaryOperator where
  | add
  | subtract
  | multiply
  | divide
  | remainder
  | equal
  | notEqual
  | less
  | lessOrEqual
  | greater
  | greaterOrEqual
  | and
  | or
  deriving DecidableEq, Repr

def BinaryOperator.token : BinaryOperator → String
  | .add => "+"
  | .subtract => "-"
  | .multiply => "*"
  | .divide => "/"
  | .remainder => "%"
  | .equal => "=="
  | .notEqual => "!="
  | .less => "<"
  | .lessOrEqual => "<="
  | .greater => ">"
  | .greaterOrEqual => ">="
  | .and => "and"
  | .or => "or"

def BinaryOperator.all : List BinaryOperator :=
  [.add, .subtract, .multiply, .divide, .remainder, .equal, .notEqual, .less, .lessOrEqual,
    .greater, .greaterOrEqual, .and, .or]

/-- A numeric literal: a number, or source text that is read when the literal is evaluated. -/
inductive Numeral where
  | number (value : Float)
  | text (source : String)
  deriving DecidableEq

inductive Node where
  | program (body : List Node)
  | set (assignee value : Node)
  | branch (test : Node) (body alternate : List Node)
  | loop (target iterable : Node) (body : List Node)
  | numeric (value : Numeral)
  | string (value : String)
  | boolean (value : Bool)
  | identifier (name : String)
  | call (callee : Node) (args : List Node)
  | member (object property : Node) (computed : Bool)
  | unary (operator : UnaryOperator) (argument : Node)
  | binary (operator : BinaryOperator) (left right : Node)
  /-- A node of a kind that this library does not know. -/
  | unknown
  deriving Inhabited

/-- The tags of nodes. -/
inductive Kind where
  | program
  | set
  | branch
  | loop
  | numeric
  | string
  | boolean
  | identifier
  | call
  | member
  | unary
  | binary
  | unknown
  deriving DecidableEq, Repr

def Kind.name : Kind → String
  | .program => "Program"
  | .set => "Set"
  | .branch => "If"
  | .loop => "For"
  | .numeric => "NumericLiteral"
  | .string => "StringLiteral"
  | .boolean => "BooleanLiteral"
  | .identifier => "Identifier"
  | .call => "CallExpression"
  | .member => "MemberExpression"
  | .unary => "UnaryExpression"
  | .binary => "BinaryExpression"
  | .unknown => "Unknown"

/-- The kinds with a tag of their own, in the order of their index. -/
def Kind.known : List Kind :=
  [.program, .set, .branch, .loop, .numeric, .string, .boolean, .identifier, .call, .member,
    .unary, .binary]

/-- The kind with a given tag. Every other tag is `unknown`. -/
def Kind.ofName (name : String) : Kind :=
  (known.find? fun kind => kind.name == name).getD .unknown

/-- The kind with a given index. Every index from twelve on is `unknown`. -/
def Kind.ofIndex (index : Nat) : Kind := known[index]?.getD .unknown

namespace Node

/-- The literal of a number. -/
def number (value : Float) : Node := numeric (.number value)

/-- The member of an object with a fixed name. -/
def field (object : Node) (name : String) : Node := member object (identifier name) false

/-- The member of an object whose name is computed. -/
def index (object property : Node) : Node := member object property true

def kind : Node → Kind
  | program _ => .program
  | set .. => .set
  | branch .. => .branch
  | loop .. => .loop
  | numeric _ => .numeric
  | string _ => .string
  | boolean _ => .boolean
  | identifier _ => .identifier
  | call .. => .call
  | member .. => .member
  | unary .. => .unary
  | binary .. => .binary
  | unknown => .unknown

def kindName (node : Node) : String := node.kind.name

/-- The direct parts of a node, in the order of evaluation: arguments come before the callee, a
property before its object. -/
def children : Node → List Node
  | program body => body
  | set assignee value => [assignee, value]
  | branch test body alternate => test :: (body ++ alternate)
  | loop target iterable body => target :: iterable :: body
  | call callee args => args ++ [callee]
  | member object property _ => [property, object]
  | unary _ argument => [argument]
  | binary _ left right => [left, right]
  | numeric _ | string _ | boolean _ | identifier _ | unknown => []

mutual

/-- The number of nodes in a tree. -/
def size : Node → Nat
  | program body => 1 + sizeAll body
  | set assignee value => 1 + assignee.size + value.size
  | branch test body alternate => 1 + test.size + sizeAll body + sizeAll alternate
  | loop target iterable body => 1 + target.size + iterable.size + sizeAll body
  | call callee args => 1 + callee.size + sizeAll args
  | member object property _ => 1 + object.size + property.size
  | unary _ argument => 1 + argument.size
  | binary _ left right => 1 + left.size + right.size
  | numeric _ | string _ | boolean _ | identifier _ | unknown => 1

def sizeAll : List Node → Nat
  | [] => 0
  | node :: rest => node.size + sizeAll rest

end

theorem sizeAll_append (xs ys : List Node) : sizeAll (xs ++ ys) = sizeAll xs + sizeAll ys := by
  induction xs with
  | nil => simp [sizeAll]
  | cons x xs ih => simp [sizeAll, ih, Nat.add_assoc]

/-- A node is counted once beside its children. -/
theorem size_eq (node : Node) : node.size = 1 + sizeAll node.children := by
  cases node <;> simp [size, children, sizeAll, sizeAll_append] <;> omega

mutual

/-- The number of nodes on the longest path down from a node. -/
def depth : Node → Nat
  | program body => 1 + depthAll body
  | set assignee value => 1 + max assignee.depth value.depth
  | branch test body alternate => 1 + max test.depth (max (depthAll body) (depthAll alternate))
  | loop target iterable body => 1 + max target.depth (max iterable.depth (depthAll body))
  | call callee args => 1 + max (depthAll args) callee.depth
  | member object property _ => 1 + max property.depth object.depth
  | unary _ argument => 1 + argument.depth
  | binary _ left right => 1 + max left.depth right.depth
  | numeric _ | string _ | boolean _ | identifier _ | unknown => 1

/-- The greatest depth in a list, zero for none. -/
def depthAll : List Node → Nat
  | [] => 0
  | node :: rest => max node.depth (depthAll rest)

end

/-- Adds one to the count of a name. -/
def tally (counts : List (String × Nat)) (name : String) : List (String × Nat) :=
  Fields.insert name ((Fields.find? counts name).getD 0 + 1) counts

/-- Counts the nodes of the trees that are still to be visited. The last child of a node is visited
first. -/
def censusFrom (counts : List (String × Nat)) : List Node → List (String × Nat)
  | [] => counts
  | node :: pending =>
    censusFrom (tally counts node.kindName) (node.children.reverse ++ pending)
termination_by pending => sizeAll pending
decreasing_by
  have reversed : sizeAll node.children.reverse = sizeAll node.children := by
    induction node.children with
    | nil => rfl
    | cons x xs ih => simp [sizeAll_append, sizeAll, ih]; omega
  simp only [sizeAll_append, reversed, sizeAll, size_eq node]
  omega

/-- The number of nodes of each kind that occurs in a tree, sorted by the name of the kind. -/
def census (node : Node) : List (String × Nat) := censusFrom [] [node]

end Node

end Templating
