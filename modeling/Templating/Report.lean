import Templating.Diagnostic
import Templating.Node.Basic

/-!
# Reports on templates

`Report.ofNode` describes the shape of a tree without evaluating it. `Report.warning?` warns of the
nodes that no evaluation can get past.
-/

namespace Templating

structure Report where
  /-- The kind of the outermost node. -/
  root : String
  nodes : Nat
  depth : Nat
  /-- The number of nodes of each kind that occurs, sorted by the name of the kind. -/
  kinds : List (String × Nat)
  /-- The number of unknown nodes. -/
  unknown : Nat
  deriving DecidableEq, Repr

namespace Report

def ofNode (node : Node) : Report where
  root := node.kindName
  nodes := node.census.foldr (fun entry total => entry.2 + total) 0
  depth := node.depth
  kinds := node.census
  unknown := (Fields.find? node.census Kind.unknown.name).getD 0

def warning? (report : Report) : Option Diagnostic :=
  if report.unknown = 0 then none
  else some ⟨RuntimeError.unknownNode.code, .warning,
    toString report.unknown ++ " unknown node(s) will fail evaluation",
    ["run `stencil explain E5008` for details"]⟩

/-- One line for the tree and one for each kind. The counts are aligned. -/
def toText (path : String) (report : Report) : String :=
  path ++ ": " ++ report.root ++ " root, " ++ toString report.nodes ++ " nodes, depth " ++
    toString report.depth ++ "\n" ++
    String.join (report.kinds.map fun entry =>
      "  " ++ String.ofList (entry.1.toList.rightpad 18 ' ') ++ " " ++ toString entry.2 ++ "\n")

def json (report : Report) : Json :=
  .object [
    ("root", .string report.root),
    ("nodes", .integer report.nodes),
    ("depth", .integer report.depth),
    ("kinds", .object (report.kinds.map fun entry => (entry.1, .integer entry.2))),
    ("unknown", .integer report.unknown)]

def toJson (report : Report) : String := report.json.print

end Report

end Templating
