import Templating.Proofs.Node.Reading

/-!
# The order of members and unknown members

A tree is loaded alike however the members of its nodes are ordered, and whatever members its nodes
have besides those of their kind.

Results:
1. `ofJson_members`: a node is read from its members in any order, with unknown ones among them.
2. `partOfJson_rearranged`: a part is read alike with any number of such nodes in it.
3. `exact_rearranged`, `tagIsString_rearranged`: what texts can stand for and what the outermost
   node must be like is kept.
4. `parse_rearranged`: where a text is loaded as a tree, so is each text of a rearranged value.
-/

namespace Templating.Node

/-- The second value is the first one, read as a part of the given type, with the members of any
number of nodes in another order and unknown members added to them. -/
inductive Rearranged : PartType → Json → Json → Prop where
  | refl (type : PartType) (json : Json) : Rearranged type json json
  | trans {type : PartType} {json json' json'' : Json} :
    Rearranged type json json' → Rearranged type json' json'' → Rearranged type json json''
  /-- The members of one node. Their tag may stand anywhere, and what is added has neither the name
  of the tag nor that of a member of the node's kind. -/
  | node {kind : Kind} {members added members' : List (String × Json)}
    (hkind : kindOfMembers none members = .ok kind)
    (hadded : ∀ member ∈ added, member.1 ≠ "type" ∧ member.1 ∉ kind.schema.map Member.name ∧
      member.2.Readable)
    (hperm : members'.Perm (members ++ added)) :
    Rearranged .node (.object members) (.object members')
  /-- Inside a member of a node. -/
  | member {kind : Kind} {entry : Member} {before after : List (String × Json)} {value value' : Json}
    (hkind : kindOfMembers none (before ++ (entry.name, value) :: after) = .ok kind)
    (hentry : entry ∈ kind.schema) (hvalue : Rearranged entry.type value value') :
    Rearranged .node (.object (before ++ (entry.name, value) :: after))
      (.object (before ++ (entry.name, value') :: after))
  /-- Inside a node that is written as an array. -/
  | item {kind : Kind} {entry : Member} {tag : Json} {before after : List Json} {value value' : Json}
    (hkind : kindOfTag tag = .ok kind) (hentry : kind.schema[before.length]? = some entry)
    (hvalue : Rearranged entry.type value value') :
    Rearranged .node (.array (tag :: (before ++ value :: after)))
      (.array (tag :: (before ++ value' :: after)))
  /-- Inside a list of nodes. -/
  | listed {before after : List Json} {json json' : Json} (hnode : Rearranged .node json json') :
    Rearranged .nodes (.array (before ++ json :: after)) (.array (before ++ json' :: after))

/-! ## 1. One node -/

section

variable {kind : Kind} {members members' added : List (String × Json)} {node : Node}

/-- The tag is found in any order, among members of other names. -/
theorem kindOfMembers_perm (hadded : ∀ member ∈ added, member.1 ≠ "type")
    (hperm : members'.Perm (members ++ added)) (h : kindOfMembers none members = .ok kind) :
    kindOfMembers none members' = .ok kind := by
  obtain ⟨tag, htag, hkind⟩ := kindOfMembers_eq_ok_iff.mp h
  refine kindOfMembers_eq_ok_iff.mpr ⟨tag, ?_, hkind⟩
  have hnone : added.filter (fun member => member.1 = "type") = [] := by
    simpa [List.filter_eq_nil_iff] using hadded
  have hfilter := hperm.filter fun member => decide (member.1 = "type")
  rw [List.filter_append, htag, hnone, List.append_nil] at hfilter
  exact List.perm_singleton.mp hfilter

/-- The parts of a node are found in any order, among unknown members. -/
theorem partsOfMembers_perm {parts : List (String × Part)}
    (hadded : ∀ member ∈ added, member.1 ∉ kind.schema.map Member.name)
    (hperm : members'.Perm (members ++ added)) (h : partsOfMembers kind [] members = .ok parts) :
    ∃ parts', partsOfMembers kind [] members' = .ok parts' ∧ parts'.Perm parts ∧
      (parts'.map Prod.fst).Nodup := by
  obtain ⟨hnodup, -, hparts⟩ := partsOfMembers_eq_ok_iff.mp h
  have hknown : (knownMembers kind members').Perm (knownMembers kind members) := by
    have hnone : knownMembers kind added = [] := by
      simpa [knownMembers, List.filter_eq_nil_iff] using hadded
    have hfilter : (knownMembers kind members').Perm (knownMembers kind (members ++ added)) :=
      hperm.filter _
    rwa [knownMembers_append, hnone, List.append_nil] at hfilter
  have hnames := (hknown.map Prod.fst).nodup_iff.mpr hnodup
  obtain ⟨parts', hparts', hpermParts⟩ := List.perm_comp_forall₂ hknown hparts
  refine ⟨parts', partsOfMembers_eq_ok_iff.mpr ⟨hnames, ?_, hparts'⟩, hpermParts, ?_⟩
  · exact List.disjoint_nil_right _
  · rw [names_of_standsFor hparts']
    exact hnames

/-- A node is read from its members in any order, with unknown ones among them. -/
theorem ofJson_members (hkind : kindOfMembers none members = .ok kind)
    (hadded : ∀ member ∈ added, member.1 ≠ "type" ∧ member.1 ∉ kind.schema.map Member.name)
    (hperm : members'.Perm (members ++ added)) (h : ofJson (.object members) = .ok node) :
    ofJson (.object members') = .ok node := by
  obtain ⟨found, parts, hfound, hparts, hnode⟩ := ofJson_object_eq_ok_iff.mp h
  cases hkind.symm.trans hfound
  obtain ⟨parts', hparts', hpermParts, hnodup⟩ := partsOfMembers_perm
    (fun member hmember => (hadded member hmember).2) hperm hparts
  refine ofJson_object_eq_ok_iff.mpr ⟨kind, parts', ?_, hparts', ?_⟩
  · exact kindOfMembers_perm (fun member hmember => (hadded member hmember).1) hperm hkind
  · rw [ofParts_perm hnodup hpermParts]
    exact hnode

end

/-! ## 2. Parts -/

/-- The kind does not depend on the value of another member than the tag. -/
theorem kindOfMembers_replace {kind : Kind} {name : String} (hname : name ≠ "type")
    {value : Json} (value' : Json) {before after : List (String × Json)}
    (h : kindOfMembers none (before ++ (name, value) :: after) = .ok kind) :
    kindOfMembers none (before ++ (name, value') :: after) = .ok kind := by
  rw [kindOfMembers_eq_ok_iff, List.filter_append,
    List.filter_cons_of_neg (by simpa using hname)] at h ⊢
  exact h

/-- A part is read alike from a rearranged value. -/
theorem partOfJson_rearranged {type : PartType} {json json' : Json} {part : Part}
    (h : Rearranged type json json') (hpart : partOfJson type json = .ok part) :
    partOfJson type json' = .ok part := by
  induction h generalizing part with
  | refl => exact hpart
  | trans _ _ ihFirst ihSecond => exact ihSecond (ihFirst hpart)
  | node hkind hadded hperm =>
    rw [partOfJson_node] at hpart ⊢
    obtain ⟨node, hnode, hpart⟩ := bind_eq_ok.mp hpart
    have hunknown := fun member hmember => (hadded member hmember).imp_right And.left
    exact bind_eq_ok.mpr ⟨node, ofJson_members hkind hunknown hperm hnode, hpart⟩
  | @member kind entry before after value value' hkind hentry _ ih =>
    rw [partOfJson_node] at hpart ⊢
    obtain ⟨node, hnode, hpart⟩ := bind_eq_ok.mp hpart
    obtain ⟨found, parts, hfound, hparts, hnode⟩ := ofJson_object_eq_ok_iff.mp hnode
    cases hkind.symm.trans hfound
    refine bind_eq_ok.mpr ⟨node, ofJson_object_eq_ok_iff.mpr ⟨kind, parts, ?_, ?_, hnode⟩, hpart⟩
    · exact kindOfMembers_replace (Kind.name_ne_type hentry) value' hkind
    · refine partsOfMembers_replace (fun other hother hname part hpart => ?_) hparts
      -- A name belongs to one member of the kind.
      have hsame := kind.schema_find? other hother
      rw [hname, kind.schema_find? entry hentry] at hsame
      cases hsame
      exact ih hpart
  | @item kind entry tag before after value value' hkind hentry _ ih =>
    rw [partOfJson_node] at hpart ⊢
    obtain ⟨node, hnode, hpart⟩ := bind_eq_ok.mp hpart
    obtain ⟨found, parts, hfound, hparts, hnode⟩ := ofJson_array_eq_ok_iff.mp hnode
    cases hkind.symm.trans hfound
    refine bind_eq_ok.mpr
      ⟨node, ofJson_array_eq_ok_iff.mpr ⟨kind, parts, hkind, ?_, hnode⟩, hpart⟩
    refine partsOfItems_replace (fun other hother part hpart => ?_) hparts
    cases hentry.symm.trans hother
    exact ih hpart
  | listed _ ih =>
    rw [partOfJson_nodes] at hpart ⊢
    obtain ⟨nodes, hnodes, hpart⟩ := bind_eq_ok.mp hpart
    refine bind_eq_ok.mpr ⟨nodes, allOfJson_replace (fun node hnode => ?_) hnodes, hpart⟩
    exact partOfJson_node_eq_ok_iff.mp (ih (partOfJson_node_eq_ok_iff.mpr hnode))

/-! ## 3. Texts -/

/-- A rearranged value has the form of values that are read. -/
theorem legible_rearranged {type : PartType} {json json' : Json} (h : Rearranged type json json')
    (hlegible : json.Legible) : json'.Legible := by
  induction h with
  | refl => exact hlegible
  | trans _ _ ihFirst ihSecond => exact ihSecond (ihFirst hlegible)
  | node _ hadded hperm =>
    have hmembers := Json.legible_object_iff.mp hlegible
    refine Json.legible_object_iff.mpr fun member hmember => ?_
    rcases List.mem_append.mp (hperm.mem_iff.mp hmember) with hold | hnew
    · exact hmembers member hold
    · exact (Json.readable_iff.mp (hadded member hnew).2.2).legible
  | member _ _ _ ih =>
    have hmembers := Json.legible_object_iff.mp hlegible
    rw [List.forall_mem_append, List.forall_mem_cons] at hmembers
    refine Json.legible_object_iff.mpr ?_
    rw [List.forall_mem_append, List.forall_mem_cons]
    exact ⟨hmembers.1, ih hmembers.2.1, hmembers.2.2⟩
  | item _ _ _ ih =>
    have hitems := Json.legible_array_iff.mp hlegible
    rw [List.forall_mem_cons, List.forall_mem_append, List.forall_mem_cons] at hitems
    refine Json.legible_array_iff.mpr ?_
    rw [List.forall_mem_cons, List.forall_mem_append, List.forall_mem_cons]
    exact ⟨hitems.1, hitems.2.1, ih hitems.2.2.1, hitems.2.2.2⟩
  | listed _ ih =>
    have hitems := Json.legible_array_iff.mp hlegible
    rw [List.forall_mem_append, List.forall_mem_cons] at hitems
    refine Json.legible_array_iff.mpr ?_
    rw [List.forall_mem_append, List.forall_mem_cons]
    exact ⟨hitems.1, ih hitems.2.1, hitems.2.2⟩

/-- The tag of a rearranged node is written as before. -/
theorem tagIsString_rearranged {type : PartType} {json json' : Json}
    (h : Rearranged type json json') (htype : type = .node) (hstring : json.TagIsString) :
    json'.TagIsString := by
  induction h with
  | refl => exact hstring
  | trans _ _ ihFirst ihSecond => exact ihSecond htype (ihFirst htype hstring)
  | node _ hadded hperm =>
    intro member hmember hname
    rcases List.mem_append.mp (hperm.mem_iff.mp hmember) with hold | hnew
    · exact hstring member hold hname
    · exact absurd hname (hadded member hnew).1
  | member _ hentry _ _ =>
    rw [Json.TagIsString, List.forall_mem_append, List.forall_mem_cons] at hstring ⊢
    exact ⟨hstring.1, fun hname => absurd hname (Kind.name_ne_type hentry), hstring.2.2⟩
  | item => exact hstring
  | listed => cases htype

/-- Where a text is loaded as a tree, every rearrangement of its value that is not nested too deeply
has a text, and each of its texts is loaded as the same tree. -/
theorem parse_rearranged {text : String} {node : Node} (h : Node.parse text = .ok node) :
    ∃ json, Json.parse text = .ok json ∧
      ∀ json', Rearranged .node json json' → json'.nesting ≤ 127 →
        json'.Readable ∧ ∀ text', Json.parse text' = .ok json' → Node.parse text' = .ok node := by
  obtain ⟨json, hjson, hstring, hnode⟩ := parse_eq_ok_iff.mp h
  refine ⟨json, hjson, fun json' hrearranged hnesting => ⟨?_, fun text' hjson' => ?_⟩⟩
  · have hlegible := (Json.readable_iff.mp ⟨text, hjson⟩).legible
    exact Json.readable_iff.mpr ⟨legible_rearranged hrearranged hlegible, hnesting⟩
  · have hpart := partOfJson_rearranged hrearranged (partOfJson_node_eq_ok_iff.mpr hnode)
    exact parse_eq_ok_iff.mpr ⟨json', hjson', tagIsString_rearranged hrearranged rfl hstring,
      partOfJson_node_eq_ok_iff.mp hpart⟩

set_option maxRecDepth 1000 in
/-- The tag after the other members, with a member that only nodes of another kind have. -/
theorem parse_rearranged_tag_last :
    let text := "[\"Program\", [\x7b\"type\": \"BooleanLiteral\", \"value\": true\x7d]]"
    let text' := "[\"Program\", [\x7b\"test\": [], \"value\": true, " ++
      "\"type\": \"BooleanLiteral\"\x7d]]"
    Node.parse text = .ok (program [boolean true]) ∧
      Node.parse text' = .ok (program [boolean true]) := by
  intro text text'
  have hjson : Json.parse text = .ok (.array [.string "Program", .array [.object
      [("type", .string "BooleanLiteral"), ("value", .boolean true)]]]) := by cbv
  have hjson' : Json.parse text' = .ok (.array [.string "Program", .array [.object
      [("test", .array []), ("value", .boolean true), ("type", .string "BooleanLiteral")]]]) := by
    cbv
  have hparse : Node.parse text = .ok (program [boolean true]) :=
    parse_eq_ok_iff.mpr ⟨_, hjson, ⟨_, rfl⟩, rfl⟩
  have hadded : ∀ member ∈ [("test", Json.array [])], member.1 ≠ "type" ∧
      member.1 ∉ Kind.boolean.schema.map Member.name ∧ member.2.Readable :=
    List.forall_mem_singleton.mpr ⟨by decide, by decide,
      Json.readable_iff.mpr (Json.plain_array_iff.mpr ⟨_, rfl, List.forall_mem_nil _⟩)⟩
  have hnode := @Rearranged.node .boolean [("type", .string "BooleanLiteral"),
    ("value", .boolean true)] _ _ rfl hadded (List.reverse_perm _)
  have hprogram := @Rearranged.item .program ⟨"body", .nodes, false⟩ (.string "Program") [] []
    _ _ rfl rfl (@Rearranged.listed [] [] _ _ hnode)
  obtain ⟨json, hread, hall⟩ := parse_rearranged hparse
  cases hjson.symm.trans hread
  exact ⟨hparse, (hall _ hprogram (by decide)).2 text' hjson'⟩

end Templating.Node
