import Templating.Node.Json
import Templating.Proofs.Contract
import Templating.Proofs.Node.Position

/-!
# Nodes by their parts

The kind of a node and the list of its parts determine it. Writing a node writes each of its parts
under its name, so that facts about the texts of nodes need no case for each kind.

Results:
1. `toJson_eq_tagged`, `ofParts_parts`: a node is written part by part and put together from its
   parts.
2. `schema_find?_parts`: the schema of a node's kind has each of its parts.
3. `hasFiniteNumbers_iff`, `mapNumbers_eq_iff`: what the numbers in a tree are like, and when other
   numbers in their places make no other tree.
4. `ofParts_congr`, `lookup_parts`: a node that is put together from parts depends on nothing but
   `Member.part?`, the parts for the entries of its schema, and these are its parts.
5. `ofParts_perm`, `ofParts_forall`: the order of the parts does not matter, and a node has no other
   parts than those and the ones that stand for missing parts.
-/

namespace Templating

/-! ## 1. Parts -/

namespace Part

def type : Part → PartType
  | node _ => .node
  | nodes _ => .nodes
  | numeral _ => .numeral
  | string _ => .string
  | boolean _ => .boolean
  | unaryOperator _ => .unaryOperator
  | binaryOperator _ => .binaryOperator

def toJson : Part → Json
  | node value => value.toJson
  | nodes value => .array (value.map Node.toJson)
  | numeral value => Node.numeralJson value
  | string value => .string value
  | boolean value => .boolean value
  | unaryOperator value => .string value.token
  | binaryOperator value => .string value.token

/-- The nodes that a part consists of. -/
def subtrees : Part → List Node
  | node value => [value]
  | nodes value => value
  | _ => []

end Part

namespace Node

theorem allToJson_eq_map (nodes : List Node) : allToJson nodes = nodes.map toJson := by
  induction nodes with
  | nil => rfl
  | cons node rest ih => rw [allToJson, ih, List.map_cons]

/-- The members that a node is written with after its tag. -/
def jsonMembers (node : Node) : List (String × Json) :=
  node.parts.map fun part => (part.1, part.2.toJson)

theorem toJson_eq_tagged (node : Node) : node.toJson = tagged node.kind node.jsonMembers := by
  cases node <;> simp [toJson, jsonMembers, kind, parts, Part.toJson, allToJson_eq_map]

theorem ofParts_parts (node : Node) : ofParts node.parts node.kind = .ok node := by
  cases node <;> rfl

theorem subtrees_subset_children (node : Node) :
    ∀ part ∈ node.parts, ∀ child ∈ part.2.subtrees, child ∈ node.children := by
  cases node <;> simp +contextual [parts, Part.subtrees, children]

/-! ## 2. Schemas -/

end Node

namespace Kind

theorem names_nodup (kind : Kind) : (kind.schema.map Member.name).Nodup := by
  cases kind <;> decide

/-- No member of a node has the name of the tag. -/
theorem type_not_mem_names (kind : Kind) : "type" ∉ kind.schema.map Member.name := by
  cases kind <;> decide

theorem name_ne_type {kind : Kind} {entry : Member} (h : entry ∈ kind.schema) :
    entry.name ≠ "type" :=
  fun hname => kind.type_not_mem_names (hname ▸ List.mem_map_of_mem h)

theorem schema_find?_eq_none_iff {kind : Kind} {name : String} :
    kind.schema.find? (fun entry => entry.name == name) = none ↔
      name ∉ kind.schema.map Member.name := by
  simp [List.find?_eq_none]

theorem schema_find? (kind : Kind) :
    ∀ entry ∈ kind.schema,
      kind.schema.find? (fun other => other.name == entry.name) = some entry := by
  cases kind <;> simp [schema]

theorem ofName_name (kind : Kind) : ofName kind.name = kind := by
  cases kind <;> rfl

end Kind

namespace Node

/-- The schema of a node's kind lists its parts. -/
theorem schema_eq_parts (node : Node) :
    node.kind.schema.map (fun entry => (entry.name, entry.type)) =
      node.parts.map fun part => (part.1, part.2.type) := by
  cases node <;> rfl

theorem names_parts (node : Node) :
    node.parts.map Prod.fst = node.kind.schema.map Member.name := by
  have h := congrArg (List.map Prod.fst) node.schema_eq_parts
  rw [List.map_map, List.map_map] at h
  exact h.symm

theorem schema_find?_parts {node : Node} {part : String × Part} (h : part ∈ node.parts) :
    ∃ entry, node.kind.schema.find? (fun entry => entry.name == part.1) = some entry ∧
      entry.type = part.2.type := by
  have hmem : (part.1, part.2.type) ∈
      node.kind.schema.map fun entry => (entry.name, entry.type) := by
    rw [schema_eq_parts]
    exact List.mem_map_of_mem h
  obtain ⟨entry, hentry, heq⟩ := List.mem_map.mp hmem
  obtain ⟨hname, htype⟩ := Prod.mk.inj heq
  exact ⟨entry, hname ▸ node.kind.schema_find? entry hentry, htype⟩

/-! ## 3. Numbers -/

/-- The number that a numeric literal holds. -/
def number? : Node → Option Float
  | numeric (.number x) => some x
  | _ => none

/-- Whether every number in a tree is finite. -/
def hasFiniteNumbers (node : Node) : Bool :=
  node.number?.all Float.isFinite &&
    node.children.attach.all fun child => child.1.hasFiniteNumbers
termination_by node.size
decreasing_by exact size_lt_of_mem_children child.2

theorem hasFiniteNumbers_eq (node : Node) :
    node.hasFiniteNumbers =
      (node.number?.all Float.isFinite && node.children.all hasFiniteNumbers) := by
  rw [hasFiniteNumbers, List.all_subtype (g := hasFiniteNumbers) fun _ _ => rfl,
    List.unattach_attach]

/-- What holds of all numbers in a tree holds of its own number and of those in its children. -/
theorem forall_number_iff {good : Float → Prop} {node : Node} :
    (∀ x, node.Contains (number x) → good x) ↔
      (∀ x ∈ node.number?, good x) ∧
        ∀ child ∈ node.children, ∀ x, child.Contains (number x) → good x := by
  have hnumber : ∀ x, number x = node ↔ x ∈ node.number? := by
    intro x
    cases node with
    | numeric value => cases value <;> simp [number, number?, eq_comm]
    | _ => simp [number, number?]
  constructor
  · intro h
    refine ⟨fun x hx => h x ?_, fun child hchild x hx => h x (hx.of_child hchild)⟩
    exact contains_iff.mpr (Or.inl ((hnumber x).mpr hx))
  · rintro ⟨hown, hchildren⟩ x hx
    rcases contains_iff.mp hx with hself | ⟨child, hchild, hx⟩
    · exact hown x ((hnumber x).mp hself)
    · exact hchildren child hchild x hx

theorem hasFiniteNumbers_iff {node : Node} :
    node.hasFiniteNumbers = true ↔ ∀ x, node.Contains (number x) → x.isFinite = true := by
  induction node using children_induction with
  | inherit node ih =>
    rw [hasFiniteNumbers_eq, Bool.and_eq_true, List.all_eq_true, forall_number_iff,
      Option.all_eq_true]
    exact and_congr_right fun _ => forall₂_congr ih

end Node

def Part.hasFiniteNumbers : Part → Bool
  | numeral (.number x) => x.isFinite
  | part => part.subtrees.all Node.hasFiniteNumbers

theorem Node.hasFiniteNumbers_parts (node : Node) :
    node.hasFiniteNumbers = node.parts.all fun part => part.2.hasFiniteNumbers := by
  rw [hasFiniteNumbers_eq]
  cases node with
  | numeric value =>
    cases value <;> simp [number?, children, parts, Part.hasFiniteNumbers, Part.subtrees]
  | _ => simp [number?, children, parts, Part.hasFiniteNumbers, Part.subtrees, Bool.and_comm]

namespace Node

mutual

/-- The tree with other numbers in the places of its numbers. -/
def mapNumbers (f : Float → Float) : Node → Node
  | program body => program (mapNumbersAll f body)
  | set assignee value => set (assignee.mapNumbers f) (value.mapNumbers f)
  | branch test body alternate =>
    branch (test.mapNumbers f) (mapNumbersAll f body) (mapNumbersAll f alternate)
  | loop target iterable body =>
    loop (target.mapNumbers f) (iterable.mapNumbers f) (mapNumbersAll f body)
  | numeric (.number x) => number (f x)
  | numeric (.text source) => numeric (.text source)
  | string value => string value
  | boolean value => boolean value
  | identifier name => identifier name
  | call callee args => call (callee.mapNumbers f) (mapNumbersAll f args)
  | member object property computed =>
    member (object.mapNumbers f) (property.mapNumbers f) computed
  | unary operator argument => unary operator (argument.mapNumbers f)
  | binary operator left right => binary operator (left.mapNumbers f) (right.mapNumbers f)
  | unknown => unknown

def mapNumbersAll (f : Float → Float) : List Node → List Node
  | [] => []
  | node :: rest => node.mapNumbers f :: mapNumbersAll f rest

end

end Node

def Part.mapNumbers (f : Float → Float) : Part → Part
  | node value => node (value.mapNumbers f)
  | nodes value => nodes (value.map (Node.mapNumbers f))
  | numeral (.number x) => numeral (.number (f x))
  | part => part

namespace Node

variable {f : Float → Float}

theorem mapNumbersAll_eq_map (nodes : List Node) :
    mapNumbersAll f nodes = nodes.map (mapNumbers f) := by
  induction nodes with
  | nil => rfl
  | cons node rest ih => rw [mapNumbersAll, ih, List.map_cons]

theorem kind_mapNumbers (node : Node) : (node.mapNumbers f).kind = node.kind := by
  cases node with
  | numeric value => cases value <;> rfl
  | _ => rfl

theorem parts_mapNumbers (node : Node) :
    (node.mapNumbers f).parts = node.parts.map fun part => (part.1, part.2.mapNumbers f) := by
  cases node with
  | numeric value => cases value <;> rfl
  | _ => simp [mapNumbers, parts, Part.mapNumbers, mapNumbersAll_eq_map]

theorem mapNumbersAll_eq_iff {nodes : List Node} :
    mapNumbersAll f nodes = nodes ↔ ∀ node ∈ nodes, node.mapNumbers f = node := by
  induction nodes with
  | nil => simp [mapNumbersAll]
  | cons node rest ih => rw [mapNumbersAll, List.cons_eq_cons, ih, List.forall_mem_cons]

/-- A tree with other numbers is the same tree exactly if they are the same numbers. -/
theorem mapNumbers_eq_iff {node : Node} :
    node.mapNumbers f = node ↔ ∀ x, node.Contains (number x) → f x = x := by
  induction node using children_induction with
  | inherit node ih =>
    rw [forall_number_iff, ← forall₂_congr ih]
    cases node with
    | numeric value => cases value <;> simp [mapNumbers, number, number?, children]
    | _ => simp [mapNumbers, number?, children, mapNumbersAll_eq_iff, or_imp, forall_and, and_comm]

end Node

/-! ## 4. Nodes put together -/

namespace Node

variable {parts : List (String × Part)}

theorem mem_of_lookup {name : String} {part : Part} (h : parts.lookup name = some part) :
    (name, part) ∈ parts := by
  obtain ⟨before, after, rfl, -⟩ := List.lookup_eq_some_iff.mp h
  exact List.mem_append_right _ List.mem_cons_self

/-- Where names are distinct, a part is found under its name wherever it stands. -/
theorem lookup_eq_some_iff (hdistinct : (parts.map Prod.fst).Nodup) {name : String} {part : Part} :
    parts.lookup name = some part ↔ (name, part) ∈ parts := by
  refine ⟨mem_of_lookup, fun h => ?_⟩
  obtain ⟨before, after, rfl⟩ := List.append_of_mem h
  refine List.lookup_eq_some_iff.mpr ⟨before, after, rfl, fun other hother => ?_⟩
  rw [List.map_append, List.nodup_append] at hdistinct
  exact bne_iff_ne.mpr (Ne.symm
    (hdistinct.2.2 _ (List.mem_map_of_mem hother) _ List.mem_cons_self))

end Node

/-- What stands for a member that is left out. -/
def Member.default? (entry : Member) : Option Part :=
  match entry.optional, entry.type with
  | true, .nodes => some (.nodes [])
  | true, .boolean => some (.boolean false)
  | _, _ => none

/-- The part for an entry of a schema: the one of this name, if it is of this type, or else what
stands for a member that is left out. -/
def Member.part? (entry : Member) (parts : List (String × Part)) : Option Part :=
  ((parts.lookup entry.name).filter fun part => part.type = entry.type).or entry.default?

/-- The part for an entry is among the given ones, or it stands for a member that is left out. -/
theorem Member.part?_cases {entry : Member} {parts : List (String × Part)} {part : Part}
    (h : entry.part? parts = some part) :
    (entry.name, part) ∈ parts ∨ entry.default? = some part := by
  rcases Option.or_eq_some_iff.mp h with h | ⟨-, h⟩
  · exact Or.inl (Node.mem_of_lookup (Option.filter_eq_some_iff.mp h).1)
  · exact Or.inr h

theorem Member.default?_cases {entry : Member} {part : Part} (h : entry.default? = some part) :
    part = .boolean false ∨ part = .nodes [] := by
  unfold default? at h
  split at h
  next => exact Or.inr (Option.some.inj h).symm
  next => exact Or.inl (Option.some.inj h).symm
  next => cases h

theorem Member.type_of_part? {entry : Member} {parts : List (String × Part)} {part : Part}
    (h : entry.part? parts = some part) : part.type = entry.type := by
  rcases Option.or_eq_some_iff.mp h with h | ⟨-, h⟩
  · exact of_decide_eq_true (Option.filter_eq_some_iff.mp h).2
  · unfold default? at h
    split at h
    next htype =>
      cases h
      exact htype.symm
    next htype =>
      cases h
      exact htype.symm
    next => cases h

/-- A kind with a list of nodes that may be left out also has one that must be there. -/
theorem Kind.exists_required_nodes {kind : Kind} {entry : Member} (h : entry ∈ kind.schema)
    (hdefault : entry.default? = some (.nodes [])) :
    ∃ other ∈ kind.schema, other.type = .nodes ∧ other.default? = none := by
  revert entry
  cases kind <;> simp [schema, Member.default?]

namespace Part

/-- The parts of a type are those that `wrap` makes, and `read` takes them apart. -/
structure Reads {α : Type} (type : PartType) (read : Part → Option α) (wrap : α → Part) : Prop where
  read_wrap : ∀ x, read (wrap x) = some x
  type_wrap : ∀ x, (wrap x).type = type
  eq_wrap : ∀ {part}, part.type = type ∨ (read part).isSome → ∃ x, part = wrap x

theorem reads_node : Reads .node node? node where
  read_wrap _ := rfl
  type_wrap _ := rfl
  eq_wrap {part} := by cases part <;> simp [type, node?]

theorem reads_nodes : Reads .nodes nodes? nodes where
  read_wrap _ := rfl
  type_wrap _ := rfl
  eq_wrap {part} := by cases part <;> simp [type, nodes?]

theorem reads_numeral : Reads .numeral numeral? numeral where
  read_wrap _ := rfl
  type_wrap _ := rfl
  eq_wrap {part} := by cases part <;> simp [type, numeral?]

theorem reads_string : Reads .string string? string where
  read_wrap _ := rfl
  type_wrap _ := rfl
  eq_wrap {part} := by cases part <;> simp [type, string?]

theorem reads_boolean : Reads .boolean boolean? boolean where
  read_wrap _ := rfl
  type_wrap _ := rfl
  eq_wrap {part} := by cases part <;> simp [type, boolean?]

theorem reads_unaryOperator : Reads .unaryOperator unaryOperator? unaryOperator where
  read_wrap _ := rfl
  type_wrap _ := rfl
  eq_wrap {part} := by cases part <;> simp [type, unaryOperator?]

theorem reads_binaryOperator : Reads .binaryOperator binaryOperator? binaryOperator where
  read_wrap _ := rfl
  type_wrap _ := rfl
  eq_wrap {part} := by cases part <;> simp [type, binaryOperator?]

end Part

namespace Node

variable {parts : List (String × Part)} {kind : Kind}

section

variable {α : Type} {type : PartType} {read : Part → Option α} {wrap : α → Part} {name : String}

/-- Only parts of the right type are read. -/
theorem bind_read (h : Part.Reads type read wrap) (part? : Option Part) :
    part?.bind read = (part?.filter fun part => part.type = type).bind read := by
  cases part? with
  | none => rfl
  | some part =>
    by_cases htype : part.type = type
    · rw [Option.filter_some_pos (by simpa using htype)]
    · rw [Option.filter_some_neg (by simpa using htype), Option.bind_some, Option.bind_none]
      refine Option.eq_none_iff_forall_ne_some.mpr fun x hx => htype ?_
      obtain ⟨y, rfl⟩ := h.eq_wrap (Or.inr (by rw [hx]; rfl))
      exact h.type_wrap y

theorem required_eq (h : Part.Reads type read wrap) :
    required parts name read =
      match (Member.part? ⟨name, type, false⟩ parts).bind read with
      | some value => .ok value
      | none => .error (.shape (.missingField name)) := by
  have hdefault : Member.default? ⟨name, type, false⟩ = none := rfl
  have hread : (Member.part? ⟨name, type, false⟩ parts).bind read =
      (parts.lookup name).bind read := by
    rw [bind_read h (parts.lookup name), Member.part?, hdefault, Option.or_none]
  rw [hread]
  rfl

theorem optional_eq (h : Part.Reads type read wrap) {default : α}
    (hdefault : Member.default? ⟨name, type, true⟩ = some (wrap default)) :
    optional parts name read default =
      ((Member.part? ⟨name, type, true⟩ parts).bind read).getD default := by
  rw [optional, bind_read h, Member.part?, hdefault]
  cases (parts.lookup name).filter fun part => part.type = type with
  | none => rw [Option.none_or, Option.bind_some, h.read_wrap]; rfl
  | some part => rfl

theorem part?_of_required (h : Part.Reads type read wrap) {x : α}
    (hx : required parts name read = .ok x) :
    Member.part? ⟨name, type, false⟩ parts = some (wrap x) := by
  rw [required_eq h] at hx
  split at hx
  next value hvalue =>
    cases hx
    obtain ⟨part, hpart, hread⟩ := Option.bind_eq_some_iff.mp hvalue
    obtain ⟨y, rfl⟩ := h.eq_wrap (Or.inr (by rw [hread]; rfl))
    rw [h.read_wrap] at hread
    rw [hpart, Option.some.inj hread]
  next => cases hx

theorem part?_of_optional (h : Part.Reads type read wrap) {default : α}
    (hdefault : Member.default? ⟨name, type, true⟩ = some (wrap default)) :
    Member.part? ⟨name, type, true⟩ parts = some (wrap (optional parts name read default)) := by
  rw [optional_eq h hdefault]
  cases hpart : Member.part? ⟨name, type, true⟩ parts with
  | none =>
    rw [Member.part?, hdefault, Option.or_eq_none_iff] at hpart
    cases hpart.2
  | some part =>
    obtain ⟨y, rfl⟩ := h.eq_wrap (Or.inl (Member.type_of_part? hpart))
    rw [Option.bind_some, h.read_wrap]
    rfl

theorem optional_nodes_eq :
    optional parts name Part.nodes? [] =
      ((Member.part? ⟨name, .nodes, true⟩ parts).bind Part.nodes?).getD [] :=
  optional_eq Part.reads_nodes rfl

theorem optional_boolean_eq :
    optional parts name Part.boolean? false =
      ((Member.part? ⟨name, .boolean, true⟩ parts).bind Part.boolean?).getD false :=
  optional_eq Part.reads_boolean rfl

theorem part?_optional_nodes :
    Member.part? ⟨name, .nodes, true⟩ parts =
      some (.nodes (optional parts name Part.nodes? [])) :=
  part?_of_optional Part.reads_nodes rfl

theorem part?_optional_boolean :
    Member.part? ⟨name, .boolean, true⟩ parts =
      some (.boolean (optional parts name Part.boolean? false)) :=
  part?_of_optional Part.reads_boolean rfl

end

/-- A node depends on nothing but the parts for the entries of its schema. -/
theorem ofParts_congr {parts' : List (String × Part)}
    (h : ∀ entry ∈ kind.schema, entry.part? parts = entry.part? parts') :
    ofParts parts kind = ofParts parts' kind := by
  cases kind <;>
    simp only [Kind.schema, List.forall_mem_cons] at h <;>
    simp only [ofParts, required_eq Part.reads_node, required_eq Part.reads_nodes,
      required_eq Part.reads_numeral, required_eq Part.reads_string,
      required_eq Part.reads_boolean, required_eq Part.reads_unaryOperator,
      required_eq Part.reads_binaryOperator, optional_nodes_eq, optional_boolean_eq, h]

/-- The order of the parts does not matter. -/
theorem ofParts_perm {parts' : List (String × Part)} (hdistinct : (parts.map Prod.fst).Nodup)
    (h : parts.Perm parts') : ofParts parts kind = ofParts parts' kind := by
  have hdistinct' := (h.map Prod.fst).nodup_iff.mp hdistinct
  refine ofParts_congr fun entry _ => ?_
  have hlookup : parts.lookup entry.name = parts'.lookup entry.name := by
    refine Option.ext fun part => ?_
    rw [lookup_eq_some_iff hdistinct, lookup_eq_some_iff hdistinct', h.mem_iff]
  rw [Member.part?, Member.part?, hlookup]

/-- The parts of a node are those for the entries of its schema. -/
theorem lookup_parts {node : Node} (h : ofParts parts kind = .ok node) :
    node.kind = kind ∧ ∀ entry ∈ kind.schema, node.parts.lookup entry.name = entry.part? parts := by
  cases kind with
  | program =>
    obtain ⟨body, hbody, h⟩ := bind_eq_ok.mp h
    cases h
    simp [Node.kind, Kind.schema, Node.parts, part?_of_required Part.reads_nodes hbody]
  | set =>
    obtain ⟨assignee, hassignee, h⟩ := bind_eq_ok.mp h
    obtain ⟨value, hvalue, h⟩ := bind_eq_ok.mp h
    cases h
    simp [Node.kind, Kind.schema, Node.parts, List.lookup_cons,
      part?_of_required Part.reads_node hassignee, part?_of_required Part.reads_node hvalue]
  | branch =>
    obtain ⟨test, htest, h⟩ := bind_eq_ok.mp h
    obtain ⟨body, hbody, h⟩ := bind_eq_ok.mp h
    cases h
    simp [Node.kind, Kind.schema, Node.parts, List.lookup_cons,
      part?_of_required Part.reads_node htest, part?_of_required Part.reads_nodes hbody,
      part?_optional_nodes]
  | loop =>
    obtain ⟨target, htarget, h⟩ := bind_eq_ok.mp h
    obtain ⟨iterable, hiterable, h⟩ := bind_eq_ok.mp h
    obtain ⟨body, hbody, h⟩ := bind_eq_ok.mp h
    cases h
    simp [Node.kind, Kind.schema, Node.parts, List.lookup_cons,
      part?_of_required Part.reads_node htarget, part?_of_required Part.reads_node hiterable,
      part?_of_required Part.reads_nodes hbody]
  | numeric =>
    obtain ⟨value, hvalue, h⟩ := bind_eq_ok.mp h
    cases h
    simp [Node.kind, Kind.schema, Node.parts, part?_of_required Part.reads_numeral hvalue]
  | string =>
    obtain ⟨value, hvalue, h⟩ := bind_eq_ok.mp h
    cases h
    simp [Node.kind, Kind.schema, Node.parts, part?_of_required Part.reads_string hvalue]
  | boolean =>
    obtain ⟨value, hvalue, h⟩ := bind_eq_ok.mp h
    cases h
    simp [Node.kind, Kind.schema, Node.parts, part?_of_required Part.reads_boolean hvalue]
  | identifier =>
    obtain ⟨name, hname, h⟩ := bind_eq_ok.mp h
    cases h
    simp [Node.kind, Kind.schema, Node.parts, part?_of_required Part.reads_string hname]
  | call =>
    obtain ⟨callee, hcallee, h⟩ := bind_eq_ok.mp h
    obtain ⟨args, hargs, h⟩ := bind_eq_ok.mp h
    cases h
    simp [Node.kind, Kind.schema, Node.parts, List.lookup_cons,
      part?_of_required Part.reads_node hcallee, part?_of_required Part.reads_nodes hargs]
  | member =>
    obtain ⟨object, hobject, h⟩ := bind_eq_ok.mp h
    obtain ⟨property, hproperty, h⟩ := bind_eq_ok.mp h
    cases h
    simp [Node.kind, Kind.schema, Node.parts, List.lookup_cons,
      part?_of_required Part.reads_node hobject, part?_of_required Part.reads_node hproperty,
      part?_optional_boolean]
  | unary =>
    obtain ⟨operator, hoperator, h⟩ := bind_eq_ok.mp h
    obtain ⟨argument, hargument, h⟩ := bind_eq_ok.mp h
    cases h
    simp [Node.kind, Kind.schema, Node.parts, List.lookup_cons,
      part?_of_required Part.reads_unaryOperator hoperator,
      part?_of_required Part.reads_node hargument]
  | binary =>
    obtain ⟨operator, hoperator, h⟩ := bind_eq_ok.mp h
    obtain ⟨left, hleft, h⟩ := bind_eq_ok.mp h
    obtain ⟨right, hright, h⟩ := bind_eq_ok.mp h
    cases h
    simp [Node.kind, Kind.schema, Node.parts, List.lookup_cons,
      part?_of_required Part.reads_binaryOperator hoperator,
      part?_of_required Part.reads_node hleft, part?_of_required Part.reads_node hright]
  | unknown =>
    cases h
    simp [Node.kind, Kind.schema]

theorem isSome_lookup_parts {node : Node} {entry : Member} (h : entry ∈ node.kind.schema) :
    (node.parts.lookup entry.name).isSome := by
  have hname : entry.name ∈ node.parts.map Prod.fst :=
    names_parts node ▸ List.mem_map_of_mem h
  obtain ⟨⟨name, part⟩, hpart, rfl⟩ := List.mem_map.mp hname
  rw [(lookup_eq_some_iff (names_parts node ▸ node.kind.names_nodup)).mpr hpart]
  rfl

/-- A property that the given parts have and that missing parts are given holds of all parts of the
node. -/
theorem ofParts_forall {P : Part → Prop} {node : Node} (hboolean : P (.boolean false))
    (hnodes : ∀ nodes, P (.nodes nodes) → P (.nodes [])) (hparts : ∀ part ∈ parts, P part.2)
    (h : ofParts parts kind = .ok node) : ∀ part ∈ node.parts, P part.2 := by
  obtain ⟨rfl, hlookup⟩ := lookup_parts h
  have hdistinct : (node.parts.map Prod.fst).Nodup := names_parts node ▸ node.kind.names_nodup
  rintro ⟨name, part⟩ hpart
  have hname : name ∈ node.kind.schema.map Member.name :=
    names_parts node ▸ List.mem_map_of_mem hpart
  obtain ⟨entry, hentry, rfl⟩ := List.mem_map.mp hname
  have hgiven := hlookup entry hentry
  rw [(lookup_eq_some_iff hdistinct).mpr hpart] at hgiven
  rcases Member.part?_cases hgiven.symm with hgiven | hdefault
  · exact hparts _ hgiven
  rcases Member.default?_cases hdefault with rfl | rfl
  · exact hboolean
  · -- A list that was given stands for the one left out.
    obtain ⟨other, hother, htype, hnone⟩ := Kind.exists_required_nodes hentry hdefault
    obtain ⟨nodes, hgiven⟩ := Option.isSome_iff_exists.mp (isSome_lookup_parts hother)
    rw [hlookup other hother] at hgiven
    have htype := (Member.type_of_part? hgiven).trans htype
    obtain ⟨nodes, rfl⟩ := Part.reads_nodes.eq_wrap (Or.inl htype)
    rcases Member.part?_cases hgiven with hgiven | hdefault
    · exact hnodes nodes (hparts _ hgiven)
    · cases hnone.symm.trans hdefault

end Node

end Templating
