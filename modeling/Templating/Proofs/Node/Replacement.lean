import Templating.Proofs.Fields
import Templating.Proofs.Node.Reading
import Templating.Proofs.Node.Site

/-!
# Unknown nodes in place of others

A position of a tree is also a position of the value that the tree was read from. What is put there
in the value, in place of a node, is read as a node there, and the rest of the tree stays as it is.

* `Json.node?` and `Json.setNode` are `Node.part?` and `Node.setPart` for values, `Json.nodeAt?` and
  `Json.replaceNodeAt` are `Node.at?` and `Node.replaceAt`.
* `Node.Holds` says of a value that it is one of a node with some parts.

Results:
1. `partOfJson_child?`, `partOfJson_setChild`: the nodes in a part are read from the values in its
   value.
2. `partsOfMembers_modify`, `partsOfItems_modify`: where the value of a member is another one, its
   part is another one.
3. `exists_parts`: a value is read as the node of the parts that it holds.
4. `ofJson_nodeAt?`, `ofJson_replaceNodeAt`: the value at a position is that of the node there, and
   another value there is read as another node there.
5. `legible_replaceNodeAt`, `tagIsString_replaceNodeAt`: what texts can stand for and what the
   outermost node must be like is kept.
6. `parse_replaced`: an object with an unknown tag in place of a node is loaded as an unknown node.
-/

namespace Templating

/-! ## Definitions -/

namespace Json

/-- The value itself, or the one at an index of a list. -/
def child? : Json → Option Nat → Option Json
  | json, none => some json
  | array items, some i => items[i]?
  | _, some _ => none

def setChild : Json → Option Nat → Json → Json
  | _, none, new => new
  | array items, some i, new => array (items.set i new)
  | json, some _, _ => json

/-- The kind of the node that a value is written for, if it has one tag. -/
def nodeKind? : Json → Option Kind
  | object members => (Node.kindOfMembers none members).toOption
  | array (tag :: _) => (Node.kindOfTag tag).toOption
  | _ => none

/-- Where the value of a member stands in a node of a kind that is written as an array. -/
def memberIndex (kind : Kind) (name : String) : Nat :=
  kind.schema.findIdx fun entry => entry.name == name

/-- The value of a member in a node of a kind. -/
def member? (kind : Kind) (name : String) : Json → Option Json
  | object members => members.lookup name
  | array (_ :: items) => items[memberIndex kind name]?
  | _ => none

/-- The node of a kind with another value of a member. -/
def modifyMember (kind : Kind) (name : String) (f : Json → Json) : Json → Json
  | object members => object (Fields.modify name f members)
  | array (tag :: items) => array (tag :: items.modify (memberIndex kind name) f)
  | json => json

/-- The value of the node that a step leads to. -/
def node? (json : Json) (step : Step) : Option Json :=
  if json.nodeKind? = some step.site.kind then
    (json.member? step.site.kind step.site.member).bind (·.child? step.site.index?)
  else none

/-- The value with another one where a step leads to. -/
def setNode (json : Json) (step : Step) (new : Json) : Json :=
  json.modifyMember step.site.kind step.site.member (·.setChild step.site.index? new)

/-- The value of the node at a position. -/
def nodeAt? : Json → Position → Option Json
  | json, [] => some json
  | json, step :: rest => (json.node? step).bind (·.nodeAt? rest)

/-- The value with another one at a position of its nodes. A position that leads nowhere changes
nothing. -/
def replaceNodeAt : Json → Position → Json → Json
  | _, [], new => new
  | json, step :: rest, new =>
    match json.node? step with
    | some inner => json.setNode step (inner.replaceNodeAt rest new)
    | none => json

end Json

namespace Node

/-! ## 1. Nodes in a part -/

variable {kind : Kind}

theorem type_of_partOfJson {json : Json} {part : Part} {index? : Option Nat}
    (h : partOfJson (.ofIndex? index?) json = .ok part) : part.type = .ofIndex? index? := by
  cases index? with
  | none =>
    rw [PartType.ofIndex?, partOfJson_node] at h
    obtain ⟨node, -, h⟩ := bind_eq_ok.mp h
    cases h
    rfl
  | some i =>
    cases json with
    | array items =>
      rw [PartType.ofIndex?, partOfJson_nodes] at h
      obtain ⟨nodes, -, h⟩ := bind_eq_ok.mp h
      cases h
      rfl
    | _ => cases h

theorem allOfJson_getElem? {items : List Json} {nodes : List Node}
    (h : allOfJson items = .ok nodes) (i : Nat) : items[i]?.map ofJson = nodes[i]?.map .ok := by
  induction items generalizing nodes i with
  | nil =>
    cases h
    rfl
  | cons item rest ih =>
    obtain ⟨node, hnode, h⟩ := bind_eq_ok.mp h
    obtain ⟨more, hmore, h⟩ := bind_eq_ok.mp h
    cases h
    cases i with
    | zero => exact congrArg some hnode
    | succ i => exact ih hmore i

theorem allOfJson_set {items : List Json} {nodes : List Node} {new : Json} {newNode : Node}
    (h : allOfJson items = .ok nodes) (hnew : ofJson new = .ok newNode) (i : Nat) :
    allOfJson (items.set i new) = .ok (nodes.set i newNode) := by
  induction items generalizing nodes i with
  | nil =>
    cases h
    rfl
  | cons item rest ih =>
    obtain ⟨node, hnode, h⟩ := bind_eq_ok.mp h
    obtain ⟨more, hmore, h⟩ := bind_eq_ok.mp h
    cases h
    cases i with
    | zero => exact bind_eq_ok.mpr ⟨newNode, hnew, bind_eq_ok.mpr ⟨more, hmore, rfl⟩⟩
    | succ i => exact bind_eq_ok.mpr ⟨node, hnode, bind_eq_ok.mpr ⟨_, ih hmore i, rfl⟩⟩

theorem partOfJson_child? {json : Json} {part : Part} {index? : Option Nat}
    (h : partOfJson (.ofIndex? index?) json = .ok part) :
    (json.child? index?).map ofJson = (part.child? index?).map .ok := by
  cases index? with
  | none =>
    rw [PartType.ofIndex?, partOfJson_node] at h
    obtain ⟨node, hnode, h⟩ := bind_eq_ok.mp h
    cases h
    rw [Json.child?, Option.map_some, hnode]
    rfl
  | some i =>
    cases json with
    | array items =>
      rw [PartType.ofIndex?, partOfJson_nodes] at h
      obtain ⟨nodes, hnodes, h⟩ := bind_eq_ok.mp h
      cases h
      exact allOfJson_getElem? hnodes i
    | _ => cases h

theorem partOfJson_setChild {json new : Json} {part : Part} {newNode : Node} {index? : Option Nat}
    (h : partOfJson (.ofIndex? index?) json = .ok part) (hnew : ofJson new = .ok newNode) :
    partOfJson (.ofIndex? index?) (json.setChild index? new) =
      .ok (part.setChild index? newNode) := by
  cases index? with
  | none =>
    rw [PartType.ofIndex?, partOfJson_node] at h ⊢
    obtain ⟨node, -, h⟩ := bind_eq_ok.mp h
    cases h
    exact bind_eq_ok.mpr ⟨newNode, hnew, rfl⟩
  | some i =>
    cases json with
    | array items =>
      rw [PartType.ofIndex?, partOfJson_nodes] at h
      obtain ⟨nodes, hnodes, h⟩ := bind_eq_ok.mp h
      cases h
      rw [PartType.ofIndex?, Json.setChild, partOfJson_nodes]
      exact bind_eq_ok.mpr ⟨_, allOfJson_set hnodes hnew i, rfl⟩
    | _ => cases h

/-! ## 2. Members and items -/

section

variable {members : List (String × Json)} {seen : List String} {parts : List (String × Part)}
  {entry : Member} {f : Json → Json} {g : Part → Part}

theorem kindOfMembers_modify {name : String} (hname : name ≠ "type") (seen : Option Kind) :
    kindOfMembers seen (Fields.modify name f members) = kindOfMembers seen members := by
  induction members generalizing seen with
  | nil => rfl
  | cons member rest ih =>
    obtain ⟨other, value⟩ := member
    rw [Fields.modify_cons]
    by_cases hother : other = "type"
    · subst hother
      rw [if_neg hname.symm]
      cases seen with
      | none =>
        rw [kindOfMembers_tag, kindOfMembers_tag]
        simp only [ih]
      | some found => rw [kindOfMembers_duplicate, kindOfMembers_duplicate]
    · rw [kindOfMembers_other _ hother, kindOfMembers_other _ hother, ih]

/-- The value of a member is read as the part of its name. -/
theorem partsOfMembers_lookup (hentry : entry ∈ kind.schema)
    (h : partsOfMembers kind seen members = .ok parts) :
    (members.lookup entry.name).map (partOfJson entry.type) =
      (parts.lookup entry.name).map .ok := by
  induction members generalizing seen parts with
  | nil =>
    cases h
    rfl
  | cons member rest ih =>
    obtain ⟨name, value⟩ := member
    rw [partsOfMembers] at h
    split at h
    next hunknown =>
      have hne : entry.name ≠ name := by
        rintro rfl
        cases hunknown.symm.trans (kind.schema_find? entry hentry)
      rw [List.lookup_cons, beq_false_of_ne hne]
      exact ih h
    next found hfound =>
      split at h
      next => cases h
      next =>
        obtain ⟨part, hpart, h⟩ := bind_eq_ok.mp h
        obtain ⟨more, hmore, h⟩ := bind_eq_ok.mp h
        cases h
        rw [List.lookup_cons, List.lookup_cons]
        by_cases hsame : entry.name = name
        · subst hsame
          cases hfound.symm.trans (kind.schema_find? entry hentry)
          rw [beq_self_eq_true]
          exact congrArg some hpart
        · rw [beq_false_of_ne hsame]
          exact ih hmore

/-- Another value of a member is read as another part. -/
theorem partsOfMembers_modify (hentry : entry ∈ kind.schema)
    (hread : ∀ value part, partOfJson entry.type value = .ok part →
      partOfJson entry.type (f value) = .ok (g part))
    (h : partsOfMembers kind seen members = .ok parts) :
    partsOfMembers kind seen (Fields.modify entry.name f members) =
      .ok (Fields.modify entry.name g parts) := by
  induction members generalizing seen parts with
  | nil =>
    cases h
    rfl
  | cons member rest ih =>
    obtain ⟨name, value⟩ := member
    rw [Fields.modify_cons, partsOfMembers]
    rw [partsOfMembers] at h
    split at h
    next => exact ih h
    next found hfound =>
      split at h
      next => cases h
      next hseen =>
        obtain ⟨part, hpart, h⟩ := bind_eq_ok.mp h
        obtain ⟨more, hmore, h⟩ := bind_eq_ok.mp h
        cases h
        rw [if_neg hseen, Fields.modify_cons]
        have hchanged : partOfJson found.type (if name = entry.name then f value else value) =
            .ok (if name = entry.name then g part else part) := by
          split
          next hsame =>
            subst hsame
            cases hfound.symm.trans (kind.schema_find? entry hentry)
            exact hread value part hpart
          next => exact hpart
        exact bind_eq_ok.mpr ⟨_, hchanged, bind_eq_ok.mpr ⟨_, ih hmore, rfl⟩⟩

end

section

variable {schema : List Member} {read : Nat} {items : List Json} {parts : List (String × Part)}
  {entry : Member} {f : Json → Json} {g : Part → Part}

theorem partsOfItems_lookup
    (hentry : schema.find? (fun other => other.name == entry.name) = some entry)
    (h : partsOfItems kind schema read items = .ok parts) :
    items[schema.findIdx fun other => other.name == entry.name]?.map (partOfJson entry.type) =
      (parts.lookup entry.name).map .ok := by
  induction items generalizing schema read parts with
  | nil =>
    rw [partsOfItems] at h
    split at h
    next =>
      cases h
      rfl
    next => cases h
  | cons item rest ih =>
    cases schema with
    | nil => cases h
    | cons first schema =>
      obtain ⟨part, hpart, h⟩ := bind_eq_ok.mp h
      obtain ⟨more, hmore, h⟩ := bind_eq_ok.mp h
      cases h
      rw [List.find?_cons] at hentry
      rw [List.findIdx_cons, List.lookup_cons]
      by_cases hsame : first.name = entry.name
      · rw [beq_iff_eq.mpr hsame] at hentry
        cases hentry
        simp [hpart]
      · rw [beq_false_of_ne hsame] at hentry
        rw [beq_false_of_ne hsame, beq_false_of_ne (Ne.symm hsame)]
        exact ih hentry hmore

/-- Parts that are not in the schema are not there. -/
theorem names_of_partsOfItems (h : partsOfItems kind schema read items = .ok parts) :
    parts.map Prod.fst <+: schema.map Member.name := by
  induction items generalizing schema read parts with
  | nil =>
    rw [partsOfItems] at h
    split at h
    next =>
      cases h
      exact List.nil_prefix
    next => cases h
  | cons item rest ih =>
    cases schema with
    | nil => cases h
    | cons first schema =>
      obtain ⟨part, hpart, h⟩ := bind_eq_ok.mp h
      obtain ⟨more, hmore, h⟩ := bind_eq_ok.mp h
      cases h
      exact (List.prefix_cons_inj _).mpr (ih hmore)

theorem partsOfItems_modify (hdistinct : (schema.map Member.name).Nodup)
    (hentry : schema.find? (fun other => other.name == entry.name) = some entry)
    (hread : ∀ value part, partOfJson entry.type value = .ok part →
      partOfJson entry.type (f value) = .ok (g part))
    (h : partsOfItems kind schema read items = .ok parts) :
    partsOfItems kind schema read
        (items.modify (schema.findIdx fun other => other.name == entry.name) f) =
      .ok (Fields.modify entry.name g parts) := by
  induction items generalizing schema read parts with
  | nil =>
    have hparts := h
    rw [partsOfItems] at hparts
    split at hparts
    next =>
      cases hparts
      rw [List.modify_nil]
      exact h
    next => cases hparts
  | cons item rest ih =>
    cases schema with
    | nil => cases h
    | cons first schema =>
      obtain ⟨part, hpart, h⟩ := bind_eq_ok.mp h
      obtain ⟨more, hmore, h⟩ := bind_eq_ok.mp h
      cases h
      rw [List.map_cons, List.nodup_cons] at hdistinct
      rw [List.find?_cons] at hentry
      rw [List.findIdx_cons, Fields.modify_cons]
      by_cases hsame : first.name = entry.name
      · rw [beq_iff_eq.mpr hsame] at hentry
        cases hentry
        have hmissing : entry.name ∉ more.map Prod.fst :=
          fun hmem => hdistinct.1 ((names_of_partsOfItems hmore).subset hmem)
        rw [beq_self_eq_true, if_pos rfl, Fields.modify_of_not_mem hmissing]
        exact bind_eq_ok.mpr ⟨_, hread item part hpart, bind_eq_ok.mpr ⟨more, hmore, rfl⟩⟩
      · rw [beq_false_of_ne hsame] at hentry
        rw [beq_false_of_ne hsame, if_neg hsame]
        exact bind_eq_ok.mpr
          ⟨part, hpart, bind_eq_ok.mpr ⟨_, ih hdistinct.2 hentry hmore, rfl⟩⟩

end

/-! ## 3. Nodes -/

/-- The value is one of a node with the given parts: each part is read from the value of the member
of its name, and with another value of this member another part is read. -/
structure Holds (json : Json) (kind : Kind) (parts : List (String × Part)) : Prop where
  nodeKind : json.nodeKind? = some kind
  lookup : ∀ entry ∈ kind.schema,
    (json.member? kind entry.name).map (partOfJson entry.type) = (parts.lookup entry.name).map .ok
  modify : ∀ entry ∈ kind.schema, ∀ (f : Json → Json) (g : Part → Part),
    (∀ value part, partOfJson entry.type value = .ok part →
      partOfJson entry.type (f value) = .ok (g part)) →
    ∀ node, ofParts (Fields.modify entry.name g parts) kind = .ok node →
      ofJson (json.modifyMember kind entry.name f) = .ok node

/-- A value is read as the node of the parts that it holds, be it an object or an array. -/
theorem exists_parts {json : Json} {node : Node} (h : ofJson json = .ok node) :
    ∃ kind parts, Holds json kind parts ∧ ofParts parts kind = .ok node := by
  cases json with
  | object members =>
    obtain ⟨kind, parts, hkind, hparts, hnode⟩ := ofJson_object_eq_ok_iff.mp h
    refine ⟨kind, parts, ⟨?_, fun entry hentry => partsOfMembers_lookup hentry hparts, ?_⟩, hnode⟩
    · rw [Json.nodeKind?, hkind]
      rfl
    · intro entry hentry f g hread other hother
      refine ofJson_object_eq_ok_iff.mpr
        ⟨kind, _, ?_, partsOfMembers_modify hentry hread hparts, hother⟩
      rw [kindOfMembers_modify (Kind.name_ne_type hentry), hkind]
  | array items =>
    cases items with
    | nil => cases h
    | cons tag items =>
      obtain ⟨kind, parts, hkind, hparts, hnode⟩ := ofJson_array_eq_ok_iff.mp h
      refine ⟨kind, parts, ⟨?_, fun entry hentry => ?_, ?_⟩, hnode⟩
      · rw [Json.nodeKind?, hkind]
        rfl
      · exact partsOfItems_lookup (kind.schema_find? entry hentry) hparts
      · intro entry hentry f g hread other hother
        exact ofJson_array_eq_ok_iff.mpr ⟨kind, _, hkind,
          partsOfItems_modify kind.names_nodup (kind.schema_find? entry hentry) hread hparts,
          hother⟩
  | _ => cases h

/-! ## 4. Positions -/

variable {json new : Json} {node newNode : Node} {step : Step}

/-- The value that a step leads to is that of the node there. -/
theorem ofJson_node? (h : ofJson json = .ok node) :
    (json.node? step).map ofJson = (node.part? step).map .ok := by
  obtain ⟨kind, parts, hholds, hnode⟩ := exists_parts h
  obtain ⟨hkind, -⟩ := lookup_parts hnode
  rw [Json.node?, hholds.nodeKind]
  by_cases hsame : kind = step.site.kind
  · subst hsame
    obtain ⟨entry, hentry, hname, htype⟩ := step.exists_entry
    have hlookup := hholds.lookup entry hentry
    rw [hname, htype] at hlookup
    have htyped : ∀ part, parts.lookup step.site.member = some part →
        part.type = .ofIndex? step.site.index? := by
      intro part hpart
      rw [hpart] at hlookup
      obtain ⟨value, -, hvalue⟩ := Option.map_eq_some_iff.mp hlookup
      exact type_of_partOfJson hvalue
    rw [if_pos rfl, part?_of_ofParts hnode htyped]
    generalize json.member? step.site.kind step.site.member = value? at hlookup
    generalize parts.lookup step.site.member = part? at hlookup
    cases value? with
    | none =>
      cases part? with
      | none => rfl
      | some part => cases hlookup
    | some value =>
      cases part? with
      | none => cases hlookup
      | some part => exact partOfJson_child? (Option.some.inj hlookup)
  · rw [part?_eq, hkind, if_neg hsame, if_neg fun heq => hsame (Option.some.inj heq)]
    rfl

/-- Another value where a step leads to is read as another node there. -/
theorem ofJson_setNode (h : ofJson json = .ok node) (hstep : (json.node? step).isSome)
    (hnew : ofJson new = .ok newNode) :
    ofJson (json.setNode step new) = .ok (node.setPart step newNode) := by
  obtain ⟨kind, parts, hholds, hnode⟩ := exists_parts h
  have hkind : kind = step.site.kind := by
    by_contra hne
    rw [Json.node?, hholds.nodeKind, if_neg fun heq => hne (Option.some.inj heq)] at hstep
    cases hstep
  subst hkind
  obtain ⟨entry, hentry, hname, htype⟩ := step.exists_entry
  have hmodify := hholds.modify entry hentry (·.setChild step.site.index? new)
    (·.setChild step.site.index? newNode)
    fun value part hpart => htype ▸ partOfJson_setChild (htype ▸ hpart) hnew
  rw [hname] at hmodify
  exact hmodify _ (ofParts_modify hnode newNode)

/-- A step leads from a value and from its node to a value and its node, or nowhere. -/
theorem node?_cases (h : ofJson json = .ok node) (step : Step) :
    json.node? step = none ∧ node.part? step = none ∨
      ∃ inner part, json.node? step = some inner ∧ node.part? step = some part ∧
        ofJson inner = .ok part := by
  have hstep := @ofJson_node? _ _ step h
  cases hjson : json.node? step with
  | none =>
    rw [hjson, Option.map_none, eq_comm, Option.map_eq_none_iff] at hstep
    exact Or.inl ⟨rfl, hstep⟩
  | some inner =>
    rw [hjson, Option.map_some, eq_comm, Option.map_eq_some_iff] at hstep
    obtain ⟨part, hpart, hinner⟩ := hstep
    exact Or.inr ⟨inner, part, rfl, hpart, hinner.symm⟩

/-- The value at a position is that of the node there. -/
theorem ofJson_nodeAt? (h : ofJson json = .ok node) (position : Position) :
    (json.nodeAt? position).map ofJson = (node.at? position).map .ok := by
  induction position generalizing json node with
  | nil => exact congrArg some h
  | cons step rest ih =>
    rw [Json.nodeAt?, at?]
    rcases node?_cases h step with ⟨hjson, hnode⟩ | ⟨inner, part, hjson, hnode, hinner⟩
    · rw [hjson, hnode]
      rfl
    · rw [hjson, hnode]
      exact ih hinner

/-- Another value at a position is read as another node there, and nothing else is read otherwise. -/
theorem ofJson_replaceNodeAt (h : ofJson json = .ok node) (hnew : ofJson new = .ok newNode)
    (position : Position) :
    ofJson (json.replaceNodeAt position new) = .ok (node.replaceAt position newNode) := by
  induction position generalizing json node with
  | nil => exact hnew
  | cons step rest ih =>
    rw [Json.replaceNodeAt, replaceAt]
    rcases node?_cases h step with ⟨hjson, hnode⟩ | ⟨inner, part, hjson, hnode, hinner⟩
    · rw [hjson, hnode]
      exact h
    · rw [hjson, hnode]
      exact ofJson_setNode h (Option.isSome_iff_exists.mpr ⟨inner, hjson⟩) (ih hinner)

end Node

/-! ## 5. Values of texts -/

namespace Json

variable {json new inner : Json} {kind : Kind} {name : String} {step : Step}

theorem legible_node? (h : json.Legible) (hinner : json.node? step = some inner) : inner.Legible := by
  rw [node?] at hinner
  split at hinner
  next =>
    obtain ⟨value, hvalue, hchild⟩ := Option.bind_eq_some_iff.mp hinner
    have hlegible : value.Legible := by
      unfold member? at hvalue
      split at hvalue
      next members => exact legible_object_iff.mp h _ (Fields.mem_of_find? hvalue)
      next tag items =>
        exact legible_array_iff.mp h _ (List.mem_cons_of_mem _ (List.mem_of_getElem? hvalue))
      next => cases hvalue
    unfold child? at hchild
    split at hchild
    next => exact Option.some.inj hchild ▸ hlegible
    next => exact legible_array_iff.mp hlegible _ (List.mem_of_getElem? hchild)
    next => cases hchild
  next => cases hinner

theorem legible_setChild (h : json.Legible) (hnew : new.Legible) (index? : Option Nat) :
    (json.setChild index? new).Legible := by
  unfold setChild
  split
  next => exact hnew
  next items i =>
    refine legible_array_iff.mpr fun item hitem => ?_
    rcases List.mem_or_eq_of_mem_set hitem with hitem | rfl
    · exact legible_array_iff.mp h item hitem
    · exact hnew
  next => exact h

theorem legible_modifyMember {f : Json → Json} (h : json.Legible)
    (hf : ∀ value : Json, value.Legible → (f value).Legible) :
    (json.modifyMember kind name f).Legible := by
  unfold modifyMember
  split
  next members =>
    refine legible_object_iff.mpr fun member hmember => ?_
    obtain ⟨old, hold, rfl⟩ := List.mem_map.mp hmember
    have hlegible := legible_object_iff.mp h old hold
    split
    · exact hf _ hlegible
    · exact hlegible
  next tag items =>
    refine legible_array_iff.mpr (List.forall_mem_cons.mpr ⟨?_, fun item hitem => ?_⟩)
    · exact legible_array_iff.mp h tag List.mem_cons_self
    · obtain ⟨i, hi⟩ := List.mem_iff_getElem?.mp hitem
      rw [List.getElem?_modify] at hi
      obtain ⟨old, hold, rfl⟩ := Option.map_eq_some_iff.mp hi
      have hlegible :=
        legible_array_iff.mp h old (List.mem_cons_of_mem _ (List.mem_of_getElem? hold))
      split
      · exact hf _ hlegible
      · exact hlegible
  next => exact h

/-- A value of the form in which values are read keeps this form. -/
theorem legible_replaceNodeAt (h : json.Legible) (hnew : new.Legible) (position : Position) :
    (json.replaceNodeAt position new).Legible := by
  induction position generalizing json with
  | nil => exact hnew
  | cons step rest ih =>
    rw [replaceNodeAt]
    split
    next inner hinner =>
      exact legible_modifyMember h fun value hvalue =>
        legible_setChild hvalue (ih (legible_node? h hinner)) _
    next => exact h

theorem tagIsString_replaceNodeAt (h : json.TagIsString) (hnew : new.TagIsString)
    (position : Position) : (json.replaceNodeAt position new).TagIsString := by
  cases position with
  | nil => exact hnew
  | cons step rest =>
    rw [replaceNodeAt]
    split
    next inner _ =>
      cases json with
      | object members =>
        obtain ⟨entry, hentry, hname, -⟩ := step.exists_entry
        intro member hmember htype
        obtain ⟨old, hold, rfl⟩ := List.mem_map.mp hmember
        split at htype
        next hsame => exact absurd (hname.trans (hsame.symm.trans htype)) (Kind.name_ne_type hentry)
        next hsame =>
          rw [if_neg hsame]
          exact h old hold htype
      | array items =>
        cases items with
        | nil => exact h
        | cons tag items => exact h
      | _ => exact h
    next => exact h

end Json

/-! ## 6. Unknown nodes -/

namespace Node

theorem ofName_eq_unknown {name : String} (h : name ∉ Kind.known.map Kind.name) :
    Kind.ofName name = .unknown := by
  rw [Kind.ofName, List.find?_eq_none.mpr]
  · rfl
  · intro kind hkind hname
    exact h (beq_iff_eq.mp hname ▸ List.mem_map_of_mem hkind)

/-- An object with an unknown tag is an unknown node, whatever its other members are. -/
theorem ofJson_unknown {name : String} {before after : List (String × Json)}
    (hname : name ∉ Kind.known.map Kind.name)
    (hother : ∀ member ∈ before ++ after, member.1 ≠ "type") :
    ofJson (.object (before ++ ("type", .string name) :: after)) = .ok unknown := by
  rw [List.forall_mem_append] at hother
  have htags : ∀ members : List (String × Json), (∀ member ∈ members, member.1 ≠ "type") →
      members.filter (fun member => member.1 = "type") = [] := by
    intro members hmembers
    simpa [List.filter_eq_nil_iff] using hmembers
  refine ofJson_object_eq_ok_iff.mpr ⟨.unknown, [], kindOfMembers_eq_ok_iff.mpr
    ⟨.string name, ?_, ?_⟩, partsOfMembers_eq_ok_iff.mpr ?_, rfl⟩
  · rw [List.filter_append, List.filter_cons_of_pos (by simp), htags before hother.1,
      htags after hother.2, List.nil_append]
  · rw [kindOfTag, ofName_eq_unknown hname]
  · have hnone : knownMembers .unknown (before ++ ("type", .string name) :: after) = [] := by
      simp [knownMembers, Kind.schema]
    rw [hnone]
    exact ⟨List.nodup_nil, List.disjoint_nil_left _, .nil⟩

/-- Where a text is loaded as a tree, each position of the tree is one of the text's value. If the
node there is written as an object, any other object with an unknown tag may stand in its place: the
value that this gives has a text if it is not nested too deeply, and each of its texts is loaded as
the tree with an unknown node at the position. -/
theorem parse_replaced {text : String} {node : Node} (h : Node.parse text = .ok node) :
    ∃ json, Json.parse text = .ok json ∧
      (∀ position, (json.nodeAt? position).map ofJson = (node.at? position).map .ok) ∧
      ∀ position members, json.nodeAt? position = some (.object members) →
        ∀ name before after, name ∉ Kind.known.map Kind.name →
          (∀ member ∈ before ++ after, member.1 ≠ "type" ∧ member.2.Readable) →
          let json' := json.replaceNodeAt position
            (.object (before ++ ("type", .string name) :: after))
          json'.nesting ≤ 127 →
            json'.Readable ∧ ∀ text', Json.parse text' = .ok json' →
              Node.parse text' = .ok (node.replaceAt position unknown) := by
  obtain ⟨json, hjson, hstring, hnode⟩ := parse_eq_ok_iff.mp h
  refine ⟨json, hjson, ofJson_nodeAt? hnode, ?_⟩
  intro position members _ name before after hname hother json' hnesting
  have hunknown := ofJson_unknown hname fun member hmember => (hother member hmember).1
  rw [List.forall_mem_append] at hother
  constructor
  · refine Json.readable_iff.mpr ⟨Json.legible_replaceNodeAt ?_ ?_ position, hnesting⟩
    · exact (Json.readable_iff.mp ⟨text, hjson⟩).legible
    · have hlegible := fun (member : String × Json) (hreadable : member.2.Readable) =>
        (Json.readable_iff.mp hreadable).legible
      refine Json.legible_object_iff.mpr (List.forall_mem_append.mpr ⟨?_, List.forall_mem_cons.mpr ?_⟩)
      · exact fun member hmember => hlegible member (hother.1 member hmember).2
      · exact ⟨.string name, fun member hmember => hlegible member (hother.2 member hmember).2⟩
  · intro text' hjson'
    refine parse_eq_ok_iff.mpr ⟨json', hjson', Json.tagIsString_replaceNodeAt hstring ?_ position,
      ofJson_replaceNodeAt hnode hunknown position⟩
    refine List.forall_mem_append.mpr ⟨?_, List.forall_mem_cons.mpr ⟨fun _ => ⟨name, rfl⟩, ?_⟩⟩
    · exact fun member hmember htype => absurd htype (hother.1 member hmember).1
    · exact fun member hmember htype => absurd htype (hother.2 member hmember).1

set_option maxRecDepth 1000 in
/-- The test of a statement that is written as an array, in place of which there is an object that
its old tag would not allow. -/
theorem parse_replaced_test :
    let text := "[\"Program\",[[2,\x7b\"type\":\"Identifier\",\"value\":\"x\"\x7d,[]]]]"
    let text' := "[\"Program\",[[2,\x7b\"value\":[],\"type\":\"Regex\"\x7d,[]]]]"
    Node.parse text = .ok (program [branch (identifier "x") [] []]) ∧
      Node.parse text' = .ok (program [branch unknown [] []]) := by
  intro text text'
  have hjson : Json.parse text = .ok (.array [.string "Program", .array [.array [.integer 2,
      .object [("type", .string "Identifier"), ("value", .string "x")], .array []]]]) := by cbv
  have hjson' : Json.parse text' = .ok (.array [.string "Program", .array [.array [.integer 2,
      .object [("value", .array []), ("type", .string "Regex")], .array []]]]) := by cbv
  have hparse : Node.parse text = .ok (program [branch (identifier "x") [] []]) :=
    parse_eq_ok_iff.mpr ⟨_, hjson, ⟨_, rfl⟩, rfl⟩
  have hother : ∀ member ∈ [("value", Json.array [])] ++ [],
      member.1 ≠ "type" ∧ member.2.Readable :=
    List.forall_mem_singleton.mpr ⟨by decide,
      Json.readable_iff.mpr (Json.plain_array_iff.mpr ⟨_, rfl, List.forall_mem_nil _⟩)⟩
  obtain ⟨json, hread, -, hreplaced⟩ := parse_replaced hparse
  cases hjson.symm.trans hread
  exact ⟨hparse, (hreplaced [.statement 0, .test] _ rfl "Regex" _ [] (by decide) hother
    (by decide)).2 text' hjson'⟩

end Node

end Templating
