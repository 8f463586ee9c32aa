import Templating.Proofs.Node.Parts

/-!
# Where the nodes inside a node are written

A node that a step leads to is a part of the node the step starts from, or it is in a list of nodes
that is such a part.

* `Step.site` is the kind of nodes that a step starts from, the member that it leads into and, if
  this is a list, an index.
* `Part.child?` and `Part.setChild` are `Node.part?` and `Node.setPart` for parts.
* `Fields.modify` changes the values of a name.

Results:
1. `lookup_modify`: what is found after such a change.
2. `part?_eq`, `parts_setPart`: steps, said of the parts of a node.
3. `part?_of_ofParts`, `ofParts_modify`: steps, said of the parts that a node is put together from.
-/

namespace Templating

/-! ## Definitions -/

/-- Where a node is written inside another one. -/
structure Site where
  kind : Kind
  member : String
  /-- The index in the member, if this is a list of nodes. -/
  index? : Option Nat

/-- Where the node that a step leads to is written. -/
def Step.site : Step → Site
  | .statement i => ⟨.program, "body", some i⟩
  | .assignee => ⟨.set, "assignee", none⟩
  | .value => ⟨.set, "value", none⟩
  | .test => ⟨.branch, "test", none⟩
  | .consequent i => ⟨.branch, "body", some i⟩
  | .alternate i => ⟨.branch, "alternate", some i⟩
  | .target => ⟨.loop, "loopvar", none⟩
  | .iterable => ⟨.loop, "iterable", none⟩
  | .loopBody i => ⟨.loop, "body", some i⟩
  | .callee => ⟨.call, "callee", none⟩
  | .argument i => ⟨.call, "args", some i⟩
  | .object => ⟨.member, "object", none⟩
  | .property => ⟨.member, "property", none⟩
  | .operand => ⟨.unary, "argument", none⟩
  | .left => ⟨.binary, "left", none⟩
  | .right => ⟨.binary, "right", none⟩

/-- The type of a part that holds a node, or a list of nodes with a node at an index. -/
def PartType.ofIndex? : Option Nat → PartType
  | none => .node
  | some _ => .nodes

/-- Changes the values of a name. -/
def Fields.modify {α : Type} (name : String) (f : α → α) (fields : List (String × α)) :
    List (String × α) :=
  fields.map fun field => if field.1 = name then (field.1, f field.2) else field

namespace Part

/-- The node that a part is, or the one at an index of a list. -/
def child? : Part → Option Nat → Option Node
  | node value, none => some value
  | nodes value, some i => value[i]?
  | _, _ => none

def setChild : Part → Option Nat → Node → Part
  | node _, none, new => node new
  | nodes value, some i, new => nodes (value.set i new)
  | part, _, _ => part

end Part

/-! ## 1. Fields -/

namespace Fields

variable {α : Type} {name other : String} {f : α → α} {fields : List (String × α)}

theorem modify_cons (value : α) :
    modify name f ((other, value) :: fields) =
      (other, if other = name then f value else value) :: modify name f fields := by
  rw [modify, List.map_cons]
  split
  · rfl
  · rfl

theorem modify_of_not_mem (h : name ∉ fields.map Prod.fst) : modify name f fields = fields := by
  induction fields with
  | nil => rfl
  | cons field rest ih =>
    obtain ⟨present, value⟩ := field
    rw [List.map_cons, List.mem_cons, not_or] at h
    rw [modify_cons, if_neg (Ne.symm h.1), ih h.2]

theorem lookup_modify :
    (modify name f fields).lookup other =
      if other = name then (fields.lookup other).map f else fields.lookup other := by
  induction fields with
  | nil => simp [modify]
  | cons field rest ih =>
    obtain ⟨present, value⟩ := field
    rw [modify_cons, List.lookup_cons, List.lookup_cons, ih]
    by_cases hother : other = present
    · subst hother
      rw [beq_self_eq_true]
      simp only
      split <;> rfl
    · rw [beq_false_of_ne hother]

end Fields

/-! ## 2. Parts of a node -/

namespace Step

/-- The member that a step leads into is one of the kind, and it holds nodes. -/
theorem exists_entry (step : Step) :
    ∃ entry ∈ step.site.kind.schema, entry.name = step.site.member ∧
      entry.type = .ofIndex? step.site.index? := by
  cases step <;> simp [site, Kind.schema, PartType.ofIndex?]

end Step

namespace Part

theorem type_setChild (part : Part) (index? : Option Nat) (new : Node) :
    (part.setChild index? new).type = part.type := by
  cases part <;> cases index? <;> rfl

/-- What stands for a missing part holds no nodes. -/
theorem child?_default {entry : Member} {part : Part} (h : entry.default? = some part)
    (index? : Option Nat) : part.child? index? = none := by
  rcases Member.default?_cases h with rfl | rfl
  · rfl
  · cases index? <;> rfl

theorem setChild_default {entry : Member} {part : Part} (h : entry.default? = some part)
    (index? : Option Nat) (new : Node) : part.setChild index? new = part := by
  rcases Member.default?_cases h with rfl | rfl
  · rfl
  · cases index? <;> rfl

end Part

namespace Node

theorem part?_eq (node : Node) (step : Step) :
    node.part? step =
      if node.kind = step.site.kind then
        (node.parts.lookup step.site.member).bind (·.child? step.site.index?)
      else none := by
  cases step <;> cases node <;> rfl

theorem parts_setPart {node : Node} {step : Step} (h : node.kind = step.site.kind) (new : Node) :
    (node.setPart step new).parts =
      Fields.modify step.site.member (·.setChild step.site.index? new) node.parts := by
  cases step <;> cases node <;> first | rfl | cases h

/-! ## 3. Parts that a node is put together from -/

theorem part?_modify {entry : Member} {parts : List (String × Part)} {name : String}
    {f : Part → Part} (htype : ∀ part, (f part).type = part.type)
    (hdefault : ∀ part, entry.default? = some part → f part = part) :
    entry.part? (Fields.modify name f parts) =
      if entry.name = name then (entry.part? parts).map f else entry.part? parts := by
  rw [Member.part?, Member.part?, Fields.lookup_modify]
  split
  next =>
    have hmissing : entry.default?.map f = entry.default? := by
      cases hpart : entry.default? with
      | none => rfl
      | some part => rw [Option.map_some, hdefault part hpart]
    cases parts.lookup entry.name with
    | none => simp [hmissing]
    | some part =>
      by_cases hpart : part.type = entry.type
      · simp [Option.filter, htype, hpart]
      · simp [Option.filter, htype, hpart, hmissing]
  next => rfl

/-- Where one of the parts is another node, so is the part of the node put together from them. -/
theorem ofParts_modify {parts : List (String × Part)} {node : Node} {step : Step}
    (h : ofParts parts step.site.kind = .ok node) (new : Node) :
    ofParts (Fields.modify step.site.member (·.setChild step.site.index? new) parts)
      step.site.kind = .ok (node.setPart step new) := by
  obtain ⟨hkind, hparts⟩ := lookup_parts h
  obtain ⟨-, hown⟩ := lookup_parts (ofParts_parts node)
  rw [← ofParts_parts (node.setPart step new), kind_setPart, hkind, parts_setPart hkind]
  refine ofParts_congr fun entry hentry => ?_
  have hsame : entry.part? parts = entry.part? node.parts :=
    (hparts entry hentry).symm.trans (hown entry (hkind ▸ hentry))
  have htype := fun part => Part.type_setChild part step.site.index? new
  have hdefault := fun part hpart =>
    @Part.setChild_default entry part hpart step.site.index? new
  rw [part?_modify htype hdefault, part?_modify htype hdefault, hsame]

/-- A step leads into the part of the member that it belongs to. -/
theorem part?_of_ofParts {parts : List (String × Part)} {node : Node} {step : Step}
    (h : ofParts parts step.site.kind = .ok node)
    (htyped : ∀ part, parts.lookup step.site.member = some part →
      part.type = .ofIndex? step.site.index?) :
    node.part? step =
      (parts.lookup step.site.member).bind (·.child? step.site.index?) := by
  obtain ⟨hkind, hparts⟩ := lookup_parts h
  obtain ⟨entry, hentry, hname, htype⟩ := step.exists_entry
  rw [part?_eq, if_pos hkind, ← hname, hparts entry hentry, Member.part?]
  cases hlookup : parts.lookup entry.name with
  | none =>
    cases hdefault : entry.default? with
    | none => rfl
    | some part => simp [Part.child?_default hdefault]
  | some part =>
    rw [hname] at hlookup
    simp [Option.filter, htyped part hlookup, htype]

end Node

end Templating
