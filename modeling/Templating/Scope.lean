import Templating.RuntimeError

/-!
# Variable scopes

A chain is the current scope with the scopes around it, the nearest first. The last one is the
global scope.

* `Chain.declare` binds a name in the current scope, unless that scope already does.
* `Chain.set` overwrites the nearest binding, or binds the name in the current scope where there is
  none.
* `Chain.lookup` is the value of the nearest binding, null where there is none.
-/

namespace Templating

/-- The bindings of one scope, sorted by name. -/
abbrev Scope := List (String × Value)

namespace Scope

def find? (scope : Scope) (name : String) : Option Value := Fields.find? scope name

def binds (scope : Scope) (name : String) : Bool := (scope.find? name).isSome

def bind (scope : Scope) (name : String) (value : Value) : Scope := Fields.insert name value scope

theorem find?_bind (scope : Scope) (name other : String) (value : Value) :
    (scope.bind name value).find? other = if other = name then some value else scope.find? other :=
  Fields.find?_insert name other value scope

end Scope

structure Chain where
  current : Scope
  outer : List Scope
  deriving Inhabited

namespace Chain

/-- A global scope without bindings. -/
def empty : Chain := ⟨[], []⟩

/-- All scopes, the current one first. -/
def scopes (chain : Chain) : List Scope := chain.current :: chain.outer

/-- Enters a new scope inside the current one. -/
def push (chain : Chain) : Chain := ⟨[], chain.scopes⟩

/-- Leaves the current scope. The global scope cannot be left. -/
def pop (chain : Chain) : Chain :=
  match chain.outer with
  | [] => chain
  | scope :: outer => ⟨scope, outer⟩

theorem pop_push (chain : Chain) : chain.push.pop = chain := rfl

/-- The number of scopes. -/
def depth (chain : Chain) : Nat := chain.scopes.length

/-- The number of scopes from the nearest one that binds a name to the global scope. -/
def resolveIn (name : String) : List Scope → Option Nat
  | [] => none
  | scope :: outer => if scope.binds name then some (outer.length + 1) else resolveIn name outer

def resolve (chain : Chain) (name : String) : Option Nat := resolveIn name chain.scopes

def lookupIn (name : String) : List Scope → Value
  | [] => .null
  | scope :: outer =>
    match scope.find? name with
    | some value => value
    | none => lookupIn name outer

def lookup (chain : Chain) (name : String) : Value := lookupIn name chain.scopes

/-- Overwrites the nearest binding of a name. -/
def overwrite (name : String) (value : Value) : List Scope → List Scope
  | [] => []
  | scope :: outer =>
    if scope.binds name then scope.bind name value :: outer
    else scope :: overwrite name value outer

def set (chain : Chain) (name : String) (value : Value) : Chain :=
  if chain.current.binds name || !chain.outer.any (·.binds name) then
    { chain with current := chain.current.bind name value }
  else { chain with outer := overwrite name value chain.outer }

def declare (chain : Chain) (name : String) (value : Value) : Except RuntimeError Chain :=
  if chain.current.binds name then .error (.duplicateDeclaration name)
  else .ok { chain with current := chain.current.bind name value }

/-- Declares names from left to right, up to the first that is already there. -/
def declareAll (chain : Chain) : List (String × Value) → Except RuntimeError Chain
  | [] => .ok chain
  | (name, value) :: rest =>
    match chain.declare name value with
    | .ok chain => chain.declareAll rest
    | .error error => .error error

end Chain

end Templating
