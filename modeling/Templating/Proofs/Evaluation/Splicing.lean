import Templating.Proofs.Evaluation.Congruence

/-!
# Programs inside of blocks

A program may stand as a statement in a block. Its value is the joined text of its own statements,
so these may as well stand in the block themselves.

`Block` names the lists of statements that a node may have.

Results:
1. `evaluateBlock_append`: the statements of two lists are evaluated one list after the other, and
   their texts are joined.
2. `evaluateBlock_splice`: a program in a block may be replaced by its statements.
3. `evaluate_splice`: so may a program in any block of a tree.
-/

namespace Templating

/-! ## Definitions -/

/-- A list of statements in a node. -/
inductive Block where
  | body
  | consequent
  | alternate
  | loopBody
  deriving DecidableEq, Repr

namespace Node

/-- The statements of a block, if the node has such a one. -/
def block? : Node → Block → Option (List Node)
  | program body, .body => some body
  | branch _ body _, .consequent => some body
  | branch _ _ alternate, .alternate => some alternate
  | loop _ _ body, .loopBody => some body
  | _, _ => none

/-- The node with other statements in a block. -/
def setBlock : Node → Block → List Node → Node
  | program _, .body, new => program new
  | branch test _ alternate, .consequent, new => branch test new alternate
  | branch test body _, .alternate, new => branch test body new
  | loop target iterable _, .loopBody, new => loop target iterable new
  | node, _, _ => node

end Node

/-! ## 1. Blocks -/

section

variable (natives : Natives)

/-- The statements of two lists are evaluated one list after the other. -/
theorem evaluateBlock_append (first second : List Node) :
    evaluateBlock natives (first ++ second) = do
      let text ← evaluateBlock natives first
      return text ++ (← evaluateBlock natives second) := by
  induction first with
  | nil => simp only [List.nil_append, evaluateBlock, pure_bind, String.empty_append, bind_pure]
  | cons statement rest ih =>
    simp only [List.cons_append, evaluateBlock, ih, bind_assoc, pure_bind, String.append_assoc]

/-- A program gives the text of its statements. -/
theorem evaluateBlock_program (body : List Node) :
    evaluateBlock natives [.program body] = evaluateBlock natives body := by
  simp [evaluateBlock, Node.evaluate, Value.print]

/-! ## 2. Programs in a block -/

/-- The statements of a program may stand in its place. -/
theorem evaluateBlock_splice (before inner after : List Node) :
    evaluateBlock natives (before ++ inner ++ after) =
      evaluateBlock natives (before ++ [.program inner] ++ after) := by
  rw [evaluateBlock_append, evaluateBlock_append, evaluateBlock_append, evaluateBlock_append,
    evaluateBlock_program]

end

/-! ## 3. Programs in a tree -/

namespace Node

variable {natives : Natives} {node : Node} {block : Block} {old new : List Node}

theorem kind_setBlock (node : Node) (block : Block) (new : List Node) :
    (node.setBlock block new).kind = node.kind := by
  unfold setBlock
  split <;> rfl

/-- Only an inner node has blocks, and other statements in them do not show from outside. -/
theorem alike_setBlock (h : node.block? block = some old) (new : List Node) :
    (node.setBlock block new).Alike node := by
  refine ⟨node.kind_setBlock block new, fun hkind => ?_⟩
  cases node with
  | identifier name => cases h
  | _ => cases hkind

/-- A node makes no difference between blocks that are evaluated alike. -/
theorem evaluate_setBlock (h : node.block? block = some old)
    (hsame : evaluateBlock natives new = evaluateBlock natives old) :
    (node.setBlock block new).evaluate natives = node.evaluate natives := by
  cases node with
  | program body =>
    cases block with
    | body =>
      cases h
      rw [setBlock, evaluate, evaluate, hsame]
    | _ => cases h
  | branch test body alternate =>
    cases block with
    | consequent =>
      cases h
      rw [setBlock, evaluate, evaluate, hsame]
    | alternate =>
      cases h
      rw [setBlock, evaluate, evaluate, hsame]
    | _ => cases h
  | loop target iterable body =>
    cases block with
    | loopBody =>
      cases h
      rw [setBlock, evaluate, evaluate, hsame]
    | _ => cases h
  | _ => cases h

end Node

/-- Let a block somewhere in a tree hold a program among its statements. If the statements of the
program stand in its place, then the tree, run in any chain, gives the same value or error and
leaves the same bindings. -/
theorem evaluate_splice (natives : Natives) {node owner : Node} {position : Position}
    {block : Block} {before inner after : List Node} (howner : node.at? position = some owner)
    (hblock : owner.block? block = some (before ++ [.program inner] ++ after)) (chain : Chain) :
    let spliced := node.replaceAt position (owner.setBlock block (before ++ inner ++ after))
    (spliced.evaluate natives).start chain = (node.evaluate natives).start chain := by
  have hblocks := evaluateBlock_splice natives before inner after
  have hlook := Node.alike_setBlock hblock (before ++ inner ++ after)
  have htrees := evaluate_replaceAt howner hlook (Node.evaluate_setBlock hblock hblocks)
  exact congrArg (Evaluation.start · chain) htrees

/-- A program in the body of a loop, which stands in an expression. The second pass fails inside of
the program, after it has set a variable. -/
theorem evaluate_splice_failing_pass :
    let inner := [
      Node.set (.identifier "last") (.identifier "item"),
      .binary .add (.string "-") (.identifier "item")]
    let body := [.string "a"] ++ [.program inner] ++ [.identifier "last"]
    let owner := Node.loop (.identifier "item") (.identifier "items") body
    let node := Node.program [.binary .add (.string "<") owner]
    let position := [Step.statement 0, .right]
    let chain : Chain := ⟨[("items", .array [.string "b", .null]), ("last", .string "")], []⟩
    let spliced := node.replaceAt position
      (owner.setBlock .loopBody ([.string "a"] ++ inner ++ [.identifier "last"]))
    let run := (spliced.evaluate Natives.none).start chain
    node.at? position = some owner ∧ owner.block? .loopBody = some body ∧
      run = (node.evaluate Natives.none).start chain ∧
      run.1 = .error (.nullOperand .add .string .null) ∧ run.2.lookup "last" = .null := by
  intro inner body owner node position chain spliced run
  have howner : node.at? position = some owner := rfl
  have hblock : owner.block? .loopBody = some body := rfl
  have hsame : run = (node.evaluate Natives.none).start chain :=
    evaluate_splice Natives.none howner hblock chain
  have hrun : (node.evaluate Natives.none).start chain =
      (.error (.nullOperand .add .string .null),
        ⟨[("items", .array [.string "b", .null]), ("last", .null)], []⟩) := by
    simp only [node, owner, body, inner, chain]
    rfl
  exact ⟨howner, hblock, hsame, by rw [hsame, hrun], by rw [hsame, hrun]; rfl⟩

end Templating
