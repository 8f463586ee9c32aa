import Templating.Value.Datum

/-!
# Renderer

A renderer collects top-level bindings and renders programs against them. Every rendering starts
from a fresh global scope into which the bindings are declared in order, so no rendering sees what
another one has set.
-/

namespace Templating

structure Renderer where
  /-- The bindings in the order in which they were inserted. -/
  bindings : List (String × Value)
  deriving Inhabited

namespace Renderer

def empty : Renderer := ⟨[]⟩

/-- Binds a name to a runtime value. -/
def insertValue (renderer : Renderer) (name : String) (value : Value) : Renderer :=
  ⟨renderer.bindings ++ [(name, value)]⟩

/-- Binds a name to host data. A renderer that fails to is left as it was. -/
def insert (renderer : Renderer) (name : String) (datum : Datum) :
    Except RuntimeError Renderer := do
  .ok (renderer.insertValue name (← datum.toValue))

def insertJson (renderer : Renderer) (name : String) (json : Json) : Renderer :=
  renderer.insertValue name (Value.ofJson json)

/-- Binds every member of an object. -/
def insertAll (renderer : Renderer) (members : List (String × Json)) : Renderer :=
  members.foldl (fun renderer entry => renderer.insertJson entry.1 entry.2) renderer

/-- Binds a name to the native function with the given identity. -/
def insertFunction (renderer : Renderer) (name : String) (identity : Nat) : Renderer :=
  renderer.insertValue name (.native name identity)

/-- The bound names in the order of insertion. -/
def names (renderer : Renderer) : List String := renderer.bindings.map (·.1)

/-- A global scope that holds every binding. -/
def globals (renderer : Renderer) : Except RuntimeError Chain :=
  Chain.empty.declareAll renderer.bindings

def render (renderer : Renderer) (natives : Natives) (program : Node) :
    Except RuntimeError String := do
  let chain ← renderer.globals
  ((program.render natives).start chain).1

end Renderer

end Templating
