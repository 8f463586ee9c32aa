import Templating.Json.Tagged
import Templating.Value.Json

/-!
# Ready-made functions

Two small families of functions for templates: those on JSON data, which know nothing about the
scope they are called from, and those on runtime values, which read and write it. `Helper.natives`
makes a table of native functions from a list of them.

They serve the line driver, where they stand for the functions of an embedding program. No command
and no rendering refers to them.
-/

namespace Templating

inductive Helper where
  | echo
  | first
  | none
  | count
  | maxUnsigned
  | fail
  | sum
  | show
  | lookup
  | assign
  | declare
  | depth
  | arguments
  | identity
  deriving DecidableEq, Repr

namespace Helper

def name : Helper → String
  | echo => "echo"
  | first => "first"
  | none => "none"
  | count => "count"
  | maxUnsigned => "u64max"
  | fail => "fail"
  | sum => "sum"
  | «show» => "show"
  | lookup => "lookup"
  | assign => "assign"
  | declare => "declare"
  | depth => "depth"
  | arguments => "args"
  | identity => "identity"

def all : List Helper :=
  [echo, first, none, count, maxUnsigned, fail, sum, «show», lookup, assign, declare, depth,
    arguments, identity]

def ofName? (name : String) : Option Helper := all.find? fun helper => helper.name == name

/-- The sum of the numbers among some JSON values, from left to right. -/
def total (values : List Json) : Float :=
  values.foldl
    (fun sum json =>
      match json with
      | .integer n => sum + Number.ofInt n
      | .float x => sum + x
      | _ => sum)
    (Number.ofNat 0)

/-- The functions on JSON data. -/
def host? : Helper → Option HostFunction
  | echo => some fun args => .ok (some (.array args))
  | first => some fun args => .ok args.head?
  | none => some fun _ => .ok .none
  | count => some fun args => .ok (some (.integer args.length))
  | maxUnsigned => some fun _ => .ok (some (.integer Json.maxUnsigned))
  | fail => some fun args =>
    match args with
    | .string message :: _ => .error message
    | _ => .error "boom"
  | sum => some fun args =>
    let x := total args
    .ok (some (if x.isFinite then .float x else .null))
  | «show» => some fun args => .ok (some (.string (Json.array args).tagged.print))
  | _ => .none

/-- The functions on runtime values and scopes. A missing argument is null; a name that is not a
string gives null. -/
def onScope : Helper → List Value → Evaluation Value
  | lookup, .string name :: _ => do return (← get).lookup name
  | assign, .string name :: rest => do
    let value := rest.headD .null
    modify (·.set name value)
    return value
  | declare, .string name :: rest => do
    let value := rest.headD .null
    set (← Evaluation.ofExcept ((← get).declare name value))
    return value
  | depth, _ => do return .numeric (Number.ofNat (← get).depth)
  | arguments, values => return .array values
  | identity, values => return values.headD .null
  | _, _ => return .null

/-- What a helper does when it is called under a name. -/
def run (helper : Helper) (name : String) (args : List Value) : Evaluation Value :=
  match helper.host? with
  | some function => Evaluation.ofExcept (function.run name args)
  | .none => helper.onScope args

/-- The table in which the identity of a function is its place in the list. -/
def natives (helpers : List (Helper × String)) : Natives := fun identity args =>
  match helpers[identity]? with
  | some (helper, name) => helper.run name args
  | .none => return .null

end Helper

end Templating
