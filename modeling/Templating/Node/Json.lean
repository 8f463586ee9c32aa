import Templating.Json.Printer
import Templating.Json.Reader
import Templating.Node.Basic

/-!
# Trees as JSON

A node is written as an object whose member `type` holds its tag. `Kind.schema` lists the other
members of each kind with what they hold; both directions go through the list of a node's parts,
`Node.parts` and `Node.ofParts`.

Reading is more generous than writing: members may stand in any order, unknown members are passed
over, some may be missing, a node may also be written as an array of its tag and its members'
values, and a nested tag may be an index.
-/

namespace Templating

/-- What a member of a node holds. -/
inductive PartType where
  | node
  | nodes
  | numeral
  | string
  | boolean
  | unaryOperator
  | binaryOperator
  deriving DecidableEq, Repr

inductive Part where
  | node (value : Node)
  | nodes (value : List Node)
  | numeral (value : Numeral)
  | string (value : String)
  | boolean (value : Bool)
  | unaryOperator (value : UnaryOperator)
  | binaryOperator (value : BinaryOperator)

namespace Part

def node? : Part → Option Node
  | node value => some value
  | _ => none

def nodes? : Part → Option (List Node)
  | nodes value => some value
  | _ => none

def numeral? : Part → Option Numeral
  | numeral value => some value
  | _ => none

def string? : Part → Option String
  | string value => some value
  | _ => none

def boolean? : Part → Option Bool
  | boolean value => some value
  | _ => none

def unaryOperator? : Part → Option UnaryOperator
  | unaryOperator value => some value
  | _ => none

def binaryOperator? : Part → Option BinaryOperator
  | binaryOperator value => some value
  | _ => none

end Part

/-- A member of a kind of node. -/
structure Member where
  name : String
  type : PartType
  /-- Whether the member may be left out. -/
  optional : Bool

/-- The members of a kind besides the tag, in the order in which they are written. -/
def Kind.schema : Kind → List Member
  | .program => [⟨"body", .nodes, false⟩]
  | .set => [⟨"assignee", .node, false⟩, ⟨"value", .node, false⟩]
  | .branch => [⟨"test", .node, false⟩, ⟨"body", .nodes, false⟩, ⟨"alternate", .nodes, true⟩]
  | .loop => [⟨"loopvar", .node, false⟩, ⟨"iterable", .node, false⟩, ⟨"body", .nodes, false⟩]
  | .numeric => [⟨"value", .numeral, false⟩]
  | .string => [⟨"value", .string, false⟩]
  | .boolean => [⟨"value", .boolean, false⟩]
  | .identifier => [⟨"value", .string, false⟩]
  | .call => [⟨"callee", .node, false⟩, ⟨"args", .nodes, false⟩]
  | .member =>
    [⟨"object", .node, false⟩, ⟨"property", .node, false⟩, ⟨"computed", .boolean, true⟩]
  | .unary => [⟨"operator", .unaryOperator, false⟩, ⟨"argument", .node, false⟩]
  | .binary =>
    [⟨"operator", .binaryOperator, false⟩, ⟨"left", .node, false⟩, ⟨"right", .node, false⟩]
  | .unknown => []

namespace Node

/-- The parts of a node under the names of its kind's schema. -/
def parts : Node → List (String × Part)
  | program body => [("body", .nodes body)]
  | set assignee value => [("assignee", .node assignee), ("value", .node value)]
  | branch test body alternate =>
    [("test", .node test), ("body", .nodes body), ("alternate", .nodes alternate)]
  | loop target iterable body =>
    [("loopvar", .node target), ("iterable", .node iterable), ("body", .nodes body)]
  | numeric value => [("value", .numeral value)]
  | string value => [("value", .string value)]
  | boolean value => [("value", .boolean value)]
  | identifier name => [("value", .string name)]
  | call callee args => [("callee", .node callee), ("args", .nodes args)]
  | member object property computed =>
    [("object", .node object), ("property", .node property), ("computed", .boolean computed)]
  | unary operator argument => [("operator", .unaryOperator operator), ("argument", .node argument)]
  | binary operator left right =>
    [("operator", .binaryOperator operator), ("left", .node left), ("right", .node right)]
  | unknown => []

/-- A part that must be there. -/
def required {α : Type} (parts : List (String × Part)) (name : String) (read : Part → Option α) :
    Except Json.Error α :=
  match (parts.lookup name).bind read with
  | some value => .ok value
  | none => .error (.shape (.missingField name))

/-- A part that stands for `default` where it is missing. -/
def optional {α : Type} (parts : List (String × Part)) (name : String) (read : Part → Option α)
    (default : α) : α :=
  ((parts.lookup name).bind read).getD default

/-- The node of a kind with the given parts. The first one missing is reported. -/
def ofParts (parts : List (String × Part)) : Kind → Except Json.Error Node
  | .program => do .ok (program (← required parts "body" Part.nodes?))
  | .set => do
    .ok (set (← required parts "assignee" Part.node?) (← required parts "value" Part.node?))
  | .branch => do
    .ok (branch (← required parts "test" Part.node?) (← required parts "body" Part.nodes?)
      (optional parts "alternate" Part.nodes? []))
  | .loop => do
    .ok (loop (← required parts "loopvar" Part.node?) (← required parts "iterable" Part.node?)
      (← required parts "body" Part.nodes?))
  | .numeric => do .ok (numeric (← required parts "value" Part.numeral?))
  | .string => do .ok (string (← required parts "value" Part.string?))
  | .boolean => do .ok (boolean (← required parts "value" Part.boolean?))
  | .identifier => do .ok (identifier (← required parts "value" Part.string?))
  | .call => do
    .ok (call (← required parts "callee" Part.node?) (← required parts "args" Part.nodes?))
  | .member => do
    .ok (member (← required parts "object" Part.node?) (← required parts "property" Part.node?)
      (optional parts "computed" Part.boolean? false))
  | .unary => do
    .ok (unary (← required parts "operator" Part.unaryOperator?)
      (← required parts "argument" Part.node?))
  | .binary => do
    .ok (binary (← required parts "operator" Part.binaryOperator?)
      (← required parts "left" Part.node?) (← required parts "right" Part.node?))
  | .unknown => .ok unknown

/-! ## Writing -/

def numeralJson : Numeral → Json
  | .number value => .float value
  | .text source => .string source

/-- An object with a tag. -/
def tagged (kind : Kind) (members : List (String × Json)) : Json :=
  .object (("type", .string kind.name) :: members)

mutual

def toJson : Node → Json
  | program body => tagged .program [("body", .array (allToJson body))]
  | set assignee value =>
    tagged .set [("assignee", assignee.toJson), ("value", value.toJson)]
  | branch test body alternate =>
    tagged .branch [("test", test.toJson), ("body", .array (allToJson body)),
      ("alternate", .array (allToJson alternate))]
  | loop target iterable body =>
    tagged .loop [("loopvar", target.toJson), ("iterable", iterable.toJson),
      ("body", .array (allToJson body))]
  | numeric value => tagged .numeric [("value", numeralJson value)]
  | string value => tagged .string [("value", .string value)]
  | boolean value => tagged .boolean [("value", .boolean value)]
  | identifier name => tagged .identifier [("value", .string name)]
  | call callee args =>
    tagged .call [("callee", callee.toJson), ("args", .array (allToJson args))]
  | member object property computed =>
    tagged .member [("object", object.toJson), ("property", property.toJson),
      ("computed", .boolean computed)]
  | unary operator argument =>
    tagged .unary [("operator", .string operator.token), ("argument", argument.toJson)]
  | binary operator left right =>
    tagged .binary [("operator", .string operator.token), ("left", left.toJson),
      ("right", right.toJson)]
  | unknown => tagged .unknown []

def allToJson : List Node → List Json
  | [] => []
  | node :: rest => node.toJson :: allToJson rest

end

/-- The compact JSON text of a tree. -/
def print (node : Node) : String := node.toJson.print

/-! ## Reading -/

def wrongType {α : Type} (found : Json) (expected : String) : Except Json.Error α :=
  .error (.shape (.wrongType found.describe expected))

/-- What is expected where a node should stand. -/
def nodeExpected : String := "internally tagged enum Node"

/-- What is expected where a tag should stand. -/
def tagExpected : String := "variant identifier"

/-- The kind that a nested tag names, by its name or by its index. -/
def kindOfTag : Json → Except Json.Error Kind
  | .string name => .ok (Kind.ofName name)
  | .integer (.ofNat index) => .ok (Kind.ofIndex index)
  | other => wrongType other tagExpected

/-- The kind that the members of a nested node name, after the tags seen so far. -/
def kindOfMembers (seen : Option Kind) : List (String × Json) → Except Json.Error Kind
  | [] =>
    match seen with
    | some kind => .ok kind
    | none => .error (.shape (.missingField "type"))
  | (name, value) :: rest =>
    if name = "type" then
      match seen with
      | some _ => .error (.shape (.duplicateField "type"))
      | none => do kindOfMembers (some (← kindOfTag value)) rest
    else kindOfMembers seen rest

/-- The operator with the given token. -/
def operatorOfToken {α : Type} (token : α → String) (all : List α) (name : String) :
    Except Json.Error α :=
  match all.find? fun operator => token operator == name with
  | some operator => .ok operator
  | none => .error (.shape (.unknownVariant name (all.map token)))

/-- An operator is written as its token, or as an object whose only member has the token as its
name and holds nothing. -/
def operatorOfJson {α : Type} (token : α → String) (all : List α) : Json → Except Json.Error α
  | .string name => operatorOfToken token all name
  | .object [(name, value)] => do
    let operator ← operatorOfToken token all name
    match value with
    | .null | .object [] => .ok operator
    | other => wrongType other "unit"
  | .object _ => .error (.shape (.wrongValue "map" "map with a single key"))
  | other => wrongType other "string or map"

/-- A part that holds no nodes. -/
def leafPart : PartType → Json → Except Json.Error Part
  | .numeral, .integer n => .ok (.numeral (.number (Number.ofInt n)))
  | .numeral, .float x => .ok (.numeral (.number x))
  | .numeral, .string s => .ok (.numeral (.text s))
  | .numeral, _ => .error (.shape (.noVariant "Numeral"))
  | .string, .string s => .ok (.string s)
  | .string, other => wrongType other "a string"
  | .boolean, .boolean b => .ok (.boolean b)
  | .boolean, other => wrongType other "a boolean"
  | .unaryOperator, json => do
    .ok (.unaryOperator (← operatorOfJson UnaryOperator.token UnaryOperator.all json))
  | .binaryOperator, json => do
    .ok (.binaryOperator (← operatorOfJson BinaryOperator.token BinaryOperator.all json))
  | .node, other => wrongType other nodeExpected
  | .nodes, other => wrongType other "a sequence"

/-- A number of things. -/
def elements (n : Nat) : String := toString n ++ (if n = 1 then " element" else " elements")

/-- The error for an array with too few values. -/
def tooShort (kind : Kind) (length : Nat) : Json.Error :=
  .shape (.wrongLength length
    ("struct variant Node::" ++ kind.name ++ " with " ++ elements kind.schema.length))

/-- The error for an array with more values than the kind has members. -/
def tooLong (kind : Kind) (length : Nat) : Json.Error :=
  .shape (.wrongLength length (elements kind.schema.length ++ " in sequence"))

mutual

/-- The node that a nested value stands for. -/
def ofJson : Json → Except Json.Error Node
  | .array [] => .error (.shape (.missingField "type"))
  | .array (tag :: items) => do
    let kind ← kindOfTag tag
    ofParts (← partsOfItems kind kind.schema 0 items) kind
  | .object members => do
    let kind ← kindOfMembers none members
    ofParts (← partsOfMembers kind [] members) kind
  | other => wrongType other nodeExpected

def allOfJson : List Json → Except Json.Error (List Node)
  | [] => .ok []
  | json :: rest => do
    let node ← ofJson json
    .ok (node :: (← allOfJson rest))

/-- The part of the given type that a value stands for. -/
def partOfJson (type : PartType) : Json → Except Json.Error Part
  | .array items =>
    match type, items with
    | .nodes, items => do .ok (.nodes (← allOfJson items))
    | .node, [] => .error (.shape (.missingField "type"))
    | .node, tag :: items => do
      let kind ← kindOfTag tag
      .ok (.node (← ofParts (← partsOfItems kind kind.schema 0 items) kind))
    | type, items => leafPart type (.array items)
  | .object members =>
    match type with
    | .node => do
      let kind ← kindOfMembers none members
      .ok (.node (← ofParts (← partsOfMembers kind [] members) kind))
    | type => leafPart type (.object members)
  | json => leafPart type json

/-- The known parts among the members of a node, in the order of the text, after members of the
names `seen`. -/
def partsOfMembers (kind : Kind) (seen : List String) :
    List (String × Json) → Except Json.Error (List (String × Part))
  | [] => .ok []
  | (name, value) :: rest =>
    match kind.schema.find? fun entry => entry.name == name with
    | none => partsOfMembers kind seen rest
    | some entry =>
      if seen.contains name then .error (.shape (.duplicateField name))
      else do
        let part ← partOfJson entry.type value
        .ok ((name, part) :: (← partsOfMembers kind (name :: seen) rest))

/-- The parts of a node that is written as an array, after the first `read` of its values. -/
def partsOfItems (kind : Kind) (schema : List Member) (read : Nat) :
    List Json → Except Json.Error (List (String × Part))
  | [] =>
    if schema.all (·.optional) then .ok [] else .error (tooShort kind read)
  | item :: rest =>
    match schema with
    | [] => .error (tooLong kind (read + rest.length + 1))
    | entry :: schema => do
      let part ← partOfJson entry.type item
      .ok ((entry.name, part) :: (← partsOfItems kind schema (read + 1) rest))

end

open Json.Reader in
/-- The tag of the outermost node, which must be a string. It is checked as soon as it is
reached. -/
def outerTag (cs : List Char) : Except Json.Error (Kind × List Char) :=
  match skipBlank cs with
  | [] => fail .endInValue
  | c :: rest =>
    if c = '"' then do
      let (name, rest) ← Json.Reader.string rest
      .ok (Kind.ofName name, rest)
    else .error (unexpected tagExpected c rest)

open Json.Reader in
/-- The members of the outermost node with its kind, after the tag seen so far. -/
def outerMembers (value : List Char → Except Json.Error (Read Json)) :
    Nat → Bool → Option Kind → List Char →
      Except Json.Error (Option Kind × List (String × Json) × List Char)
  | 0, _, _, _ => fail .endInObject
  | fuel + 1, first, seen, cs => do
    match ← nextMember first cs with
    | .close rest => .ok (seen, [], rest)
    | .member name rest =>
      if name = "type" then
        match seen with
        | some _ => .error (.shape (.duplicateField "type"))
        | none => do
          let (kind, rest) ← outerTag (← colon rest)
          outerMembers value fuel false (some kind) rest
      else do
        let (json, rest) ← value (← colon rest)
        let (kind, members, rest) ← outerMembers value fuel false seen rest
        .ok (kind, (name, json) :: members, rest)

open Json.Reader in
/-- The outermost node. Its text is read to the end before its members are looked at, apart from
the tag. -/
def read (cs : List Char) : Except Json.Error (Read Node) :=
  match skipBlank cs with
  | [] => fail .endInValue
  | c :: cs =>
    if c = '\x7b' then do
      match ← outerMembers (value (maxNesting - 1)) (cs.length + 1) true none cs with
      | (none, _) => .error (.shape (.missingField "type"))
      | (some kind, members, rest) =>
        let node ← ofParts (← partsOfMembers kind [] members) kind
        .ok (node, rest)
    else if c = '[' then do
      match ← nextItem true cs with
      | .close _ => .error (.shape (.missingField "type"))
      | .item rest =>
        let (kind, rest) ← outerTag rest
        let (items, rest) ← listItems (value (maxNesting - 1)) (rest.length + 1) false rest
        let node ← ofParts (← partsOfItems kind kind.schema 0 items) kind
        .ok (node, rest)
    else .error (unexpected nodeExpected c cs)

/-- Reads a text that holds one tree. -/
def parse (text : String) : Except Json.Error Node := do
  let (node, rest) ← read text.toList
  Json.Reader.finish rest
  .ok node

end Node

end Templating
