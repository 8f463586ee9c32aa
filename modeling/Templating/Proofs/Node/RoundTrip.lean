import Templating.Proofs.Json.RoundTrip
import Templating.Proofs.Node.Parts

/-!
# Printed trees

A tree is printed and read back. Numbers that are not finite are printed as `null`, which no
numeral is, and the outermost node takes one of the levels that nesting is allowed for. Finite
numbers come back as what their texts are read as, which need not be the same numbers.

* `Node.reread` is the tree that comes back.
* `Node.NumbersReread` says of a tree that its finite numbers are read back from their texts.

Results:
1. `inRange_toJson`: what a node is written as can be printed. `reread_eq_iff`: which trees come back
   as they were.
2. `ofJson_toJson`: a nested node is read back from its value.
3. `parse_print_reread`: what the text of a tree is read as. `parse_print`: a tree whose numbers are
   read back is read back itself.
-/

namespace Templating

open Json.Reader

/-! ## 1. The values that nodes are written as -/

namespace Node

/-- The tree that the text of a tree is read as. -/
def reread (node : Node) : Node := node.mapNumbers Json.rereadDouble

/-- Every finite number in the tree is read back from the text that it is printed as. -/
def NumbersReread (node : Node) : Prop :=
  ∀ x, node.Contains (number x) → x.isFinite = true → Json.IsReread x

/-- A tree comes back as it was exactly if its numbers do. -/
theorem reread_eq_iff {node : Node} (hfinite : node.hasFiniteNumbers = true) :
    node.reread = node ↔ node.NumbersReread := by
  rw [reread, mapNumbers_eq_iff, NumbersReread]
  refine forall₂_congr fun x hx => ?_
  have hx := hasFiniteNumbers_iff.mp hfinite x hx
  rw [Json.isReread_iff]
  exact ⟨fun heq _ => ⟨hx, heq⟩, fun h => (h hx).2⟩

theorem inRange_toJson (node : Node) : node.toJson.InRange fun _ => True := by
  induction node using children_induction with
  | inherit node ih =>
    rw [toJson_eq_tagged, tagged]
    refine .object fun member hmember => ?_
    rcases List.mem_cons.mp hmember with rfl | hmember
    · exact .string _
    · obtain ⟨⟨name, part⟩, hpart, rfl⟩ := List.mem_map.mp hmember
      have hchildren := fun child hchild =>
        ih child (subtrees_subset_children node _ hpart child hchild)
      cases part with
      | node value => exact hchildren value (List.mem_singleton.mpr rfl)
      | nodes value =>
        refine .array fun item hitem => ?_
        obtain ⟨child, hchild, rfl⟩ := List.mem_map.mp hitem
        exact hchildren child hchild
      | numeral value =>
        cases value with
        | number x => exact .float trivial
        | text source => exact .string source
      | boolean value => exact .boolean value
      | string value => exact .string value
      | unaryOperator value => exact .string _
      | binaryOperator value => exact .string _

/-! ## 2. Nested nodes -/

/-- The error for a number that is not finite, which is printed as `null`. -/
def notFinite : Json.Error := .shape (.noVariant "Numeral")

/-- A nested node is read back from its value. -/
def Rereads (node : Node) : Prop :=
  ofJson node.toJson.reread = Json.okIf node.hasFiniteNumbers notFinite node.reread

theorem allOfJson_toJson {nodes : List Node} (h : ∀ node ∈ nodes, node.Rereads) :
    allOfJson (Json.rereadItems (nodes.map toJson)) =
      Json.okIf (nodes.all hasFiniteNumbers) notFinite (nodes.map reread) := by
  induction nodes with
  | nil => rfl
  | cons node rest ih =>
    have hrest := ih fun other hother => h other (List.mem_cons_of_mem _ hother)
    rw [List.map_cons, Json.rereadItems, allOfJson, h node (List.mem_cons_self ..), List.all_cons,
      Json.okIf_congr (Bool.and_eq_true_iff)]
    refine Json.okIf_bind ?_
    rw [hrest, Json.okIf_map, List.map_cons]

theorem partOfJson_nodes (items : List Json) :
    partOfJson .nodes (.array items) = (do .ok (.nodes (← allOfJson items))) := by
  rw [partOfJson]

theorem partOfJson_node (json : Json) :
    partOfJson .node json = (do .ok (.node (← ofJson json))) := by
  cases json with
  | array items =>
    cases items with
    | nil => rfl
    | cons tag items =>
      rw [partOfJson, ofJson]
      simp only [bind_assoc]
  | object members =>
    rw [partOfJson, ofJson]
    simp only [bind_assoc]
  | _ => rfl

/-- A part is read back from its value. -/
theorem partOfJson_toJson {part : Part} (h : ∀ node ∈ part.subtrees, node.Rereads) :
    partOfJson part.type part.toJson.reread =
      Json.okIf part.hasFiniteNumbers notFinite (part.mapNumbers Json.rereadDouble) := by
  cases part with
  | node value =>
    have hvalue := h value (List.mem_singleton.mpr rfl)
    have hfinite : (Part.node value).hasFiniteNumbers = value.hasFiniteNumbers := Bool.and_true _
    rw [Part.type, Part.toJson, partOfJson_node, hvalue, hfinite]
    exact Json.okIf_map Part.node
  | nodes value =>
    have hvalue : allOfJson (Json.rereadItems (value.map toJson)) = _ := allOfJson_toJson h
    refine (partOfJson_nodes _).trans ?_
    rw [hvalue]
    exact Json.okIf_map Part.nodes
  | numeral value =>
    cases value with
    | text source => rfl
    | number x =>
      rw [Part.toJson, numeralJson, Json.reread, Part.hasFiniteNumbers, Json.okIf]
      split <;> rfl
  | boolean value => rfl
  | string value => rfl
  | unaryOperator value => cases value <;> rfl
  | binaryOperator value => cases value <;> rfl

/-- The members of a printed node, without its tag. -/
def rereadParts (parts : List (String × Part)) : List (String × Json) :=
  Json.rereadMembers (parts.map fun part => (part.1, part.2.toJson))

/-- Parts with the names and types of a schema are read back. -/
theorem partsOfMembers_parts {kind : Kind} {parts : List (String × Part)} {seen : List String}
    (hschema : ∀ part ∈ parts, ∃ entry,
      kind.schema.find? (fun entry => entry.name == part.1) = some entry ∧ entry.type = part.2.type)
    (hnames : (parts.map Prod.fst ++ seen).Nodup)
    (h : ∀ part ∈ parts, ∀ node ∈ part.2.subtrees, node.Rereads) :
    partsOfMembers kind seen (rereadParts parts) =
      Json.okIf (parts.all fun part => part.2.hasFiniteNumbers) notFinite
        (parts.map fun part => (part.1, part.2.mapNumbers Json.rereadDouble)) := by
  induction parts generalizing seen with
  | nil => rfl
  | cons part rest ih =>
    obtain ⟨name, part⟩ := part
    obtain ⟨entry, hfind, htype⟩ := hschema _ (List.mem_cons_self ..)
    rw [List.map_cons, List.cons_append, ← List.nodup_middle] at hnames
    have hseen : seen.contains name = false := by
      have hmem := (List.nodup_cons.mp (List.nodup_append.mp hnames).2.1).1
      simpa using hmem
    have hrest : partsOfMembers kind (name :: seen) (rereadParts rest) = _ :=
      ih (fun other hother => hschema other (List.mem_cons_of_mem _ hother)) hnames
        fun other hother => h other (List.mem_cons_of_mem _ hother)
    have hpart := partOfJson_toJson (h _ (List.mem_cons_self ..))
    rw [rereadParts, List.map_cons, Json.rereadMembers, partsOfMembers, hfind]
    simp only [hseen, Bool.false_eq_true, ↓reduceIte, htype, hpart]
    rw [List.all_cons, Json.okIf_congr (Bool.and_eq_true_iff)]
    refine Json.okIf_bind ?_
    rw [← rereadParts, hrest, Json.okIf_map, List.map_cons]

section

variable {members : List (String × Json)}

theorem kindOfMembers_other (seen : Option Kind) {name : String} (hname : name ≠ "type")
    (value : Json) : kindOfMembers seen ((name, value) :: members) = kindOfMembers seen members := by
  cases seen <;> rw [kindOfMembers, if_neg hname]

theorem kindOfMembers_duplicate (found : Kind) (value : Json) :
    kindOfMembers (some found) (("type", value) :: members) =
      .error (.shape (.duplicateField "type")) := by
  rw [kindOfMembers, if_pos rfl]

/-- After the tag there is no further one. -/
theorem kindOfMembers_some_eq_ok_iff {found kind : Kind} :
    kindOfMembers (some found) members = .ok kind ↔
      found = kind ∧ "type" ∉ members.map Prod.fst := by
  induction members with
  | nil => simp [kindOfMembers]
  | cons member rest ih =>
    obtain ⟨name, value⟩ := member
    by_cases hname : name = "type"
    · subst hname
      simp [kindOfMembers_duplicate]
    · rw [kindOfMembers_other _ hname, ih, List.map_cons, List.mem_cons, not_or]
      simp only [Ne.symm hname, not_false_eq_true, true_and]

end

theorem names_rereadParts (parts : List (String × Part)) :
    (rereadParts parts).map Prod.fst = parts.map Prod.fst := by
  induction parts with
  | nil => rfl
  | cons part rest ih =>
    rw [rereadParts, List.map_cons, Json.rereadMembers, List.map_cons, List.map_cons, ← ih,
      rereadParts]

/-- A node is put together from the members that it was printed with. -/
theorem ofParts_rereadParts (node : Node) (h : ∀ child ∈ node.children, child.Rereads) :
    (do ofParts (← partsOfMembers node.kind [] (rereadParts node.parts)) node.kind) =
      Json.okIf node.hasFiniteNumbers notFinite node.reread := by
  have hnames : (node.parts.map Prod.fst ++ []).Nodup := by
    rw [List.append_nil, names_parts]
    exact node.kind.names_nodup
  rw [partsOfMembers_parts (fun part => schema_find?_parts) hnames fun part hpart child hchild =>
    h child (subtrees_subset_children node part hpart child hchild), ← hasFiniteNumbers_parts,
    ← parts_mapNumbers, ← kind_mapNumbers (f := Json.rereadDouble) node]
  by_cases hfinite : node.hasFiniteNumbers = true
  · simp only [Json.okIf, hfinite, ↓reduceIte]
    exact ofParts_parts (node.mapNumbers Json.rereadDouble)
  · simp only [Json.okIf, hfinite]
    rfl

/-- A nested node is read back from its value. -/
theorem ofJson_toJson (node : Node) : node.Rereads := by
  induction node using children_induction with
  | inherit node ih =>
    have hkind : kindOfMembers none (("type", .string node.kind.name) :: rereadParts node.parts) =
        .ok node.kind := by
      have htype := node.kind.type_not_mem_names
      rw [← names_parts, ← names_rereadParts] at htype
      rw [kindOfMembers, if_pos rfl]
      simp only [kindOfTag, Kind.ofName_name]
      exact kindOfMembers_some_eq_ok_iff.mpr ⟨rfl, htype⟩
    -- The tag is passed over where the parts are read.
    have htag := Kind.schema_find?_eq_none_iff.mpr node.kind.type_not_mem_names
    rw [Rereads, toJson_eq_tagged, tagged]
    have hreread : (Json.object (("type", .string node.kind.name) :: node.jsonMembers)).reread =
        .object (("type", .string node.kind.name) :: rereadParts node.parts) := rfl
    rw [hreread, ofJson, hkind]
    simp only [bind, Except.bind]
    rw [partsOfMembers, htag]
    exact ofParts_rereadParts node ih

/-! ## 3. The outermost node -/

theorem outerTag_text (name : String) (rest : List Char) :
    outerTag (Json.stringText name ++ rest) = .ok (Kind.ofName name, rest) := by
  have hstring := string_text name rest
  rw [Json.stringText, List.append_assoc, List.append_assoc, List.singleton_append,
    List.singleton_append, outerTag, skipBlank_cons rfl]
  simp only [↓reduceIte, hstring]
  rfl

variable {depth fuel : Nat}

/-- The members after the tag are read. -/
theorem outerMembers_more {spelled : List (String × List Char)} {members : List (String × Json)}
    {kind : Kind} (h : List.Forall₂ SpellsMember spelled members)
    (htype : "type" ∉ members.map Prod.fst) (rest : List Char)
    (hfuel : (moreText (spelled.map memberText) ++ '\x7d' :: rest).length < fuel) :
    outerMembers (value depth) fuel false (some kind)
        (moreText (spelled.map memberText) ++ '\x7d' :: rest) =
      Json.okIf (Json.nestingMembers members ≤ depth) (.syntactic .tooDeep)
        (some kind, members, rest) := by
  induction h generalizing fuel with
  | nil =>
    obtain ⟨fuel, rfl⟩ := Nat.exists_eq_add_one_of_ne_zero (Nat.ne_zero_of_lt hfuel)
    rfl
  | @cons head member spelled members hmember hmembers ih =>
    obtain ⟨fuel, rfl⟩ := Nat.exists_eq_add_one_of_ne_zero (Nat.ne_zero_of_lt hfuel)
    obtain ⟨hname, hvalue⟩ := hmember
    rw [List.map_cons, List.mem_cons, not_or] at htype
    rw [List.map_cons, moreText_cons, memberText, List.cons_append, List.append_assoc,
      List.append_assoc, List.cons_append] at hfuel ⊢
    have hread := hvalue.reads depth _
      (endsNumber_more (Or.inr rfl) (spelled.map memberText) rest)
    have hlength : (moreText (spelled.map memberText) ++ '\x7d' :: rest).length < fuel := by
      simp only [List.length_cons, List.length_append] at hfuel ⊢
      omega
    rw [outerMembers, nextMember_comma, Json.nestingMembers, Json.okIf_congr Nat.max_le]
    show (if head.1 = "type" then _ else _) = _
    rw [hname, if_neg (Ne.symm htype.1)]
    show (value depth (head.2 ++ (moreText (spelled.map memberText) ++ '\x7d' :: rest)) >>= _) = _
    rw [hread]
    refine Json.okIf_bind ?_
    simp only [ih htype.2 hlength]
    exact Json.okIf_map _

/-- The members of a tagged object are read. -/
theorem outerMembers_tagged {spelled : List (String × List Char)} {members : List (String × Json)}
    (kind : Kind) (h : List.Forall₂ SpellsMember spelled members)
    (htype : "type" ∉ members.map Prod.fst) (rest : List Char)
    (hfuel : (Json.stringText "type" ++ ':' :: (Json.stringText kind.name ++
      (moreText (spelled.map memberText) ++ '\x7d' :: rest))).length < fuel) :
    outerMembers (value depth) fuel true none (Json.stringText "type" ++ ':' :: (Json.stringText kind.name ++
        (moreText (spelled.map memberText) ++ '\x7d' :: rest))) =
      Json.okIf (Json.nestingMembers members ≤ depth) (.syntactic .tooDeep)
        (some kind, members, rest) := by
  obtain ⟨fuel, rfl⟩ := Nat.exists_eq_add_one_of_ne_zero (Nat.ne_zero_of_lt hfuel)
  have hcolon : ∀ cs, colon (':' :: cs) = .ok cs := fun _ => rfl
  have htag := outerTag_text kind.name (moreText (spelled.map memberText) ++ '\x7d' :: rest)
  have hmore : (moreText (spelled.map memberText) ++ '\x7d' :: rest).length < fuel := by
    simp only [List.length_cons, List.length_append] at hfuel
    simp only [List.length_cons, List.length_append]
    omega
  rw [outerMembers, nextMember_first]
  simp only [bind, Except.bind, ↓reduceIte, hcolon, htag, Kind.ofName_name]
  exact outerMembers_more h htype rest hmore

theorem nesting_toJson (node : Node) :
    node.toJson.nesting = 1 + Json.nestingMembers node.jsonMembers := by
  rw [toJson_eq_tagged, tagged, Json.nesting_object, Json.nestingMembers]
  exact congrArg (1 + ·) (Nat.max_eq_right (Nat.zero_le _))

/-- The members of a node after its tag are spelled by their texts. -/
theorem spells_rereadParts (node : Node) :
    List.Forall₂ SpellsMember (spelledMembers node.jsonMembers) (rereadParts node.parts) := by
  have hrange : ∀ member ∈ node.jsonMembers, member.2.InRange fun _ => True := by
    intro member hmember
    have h := inRange_toJson node
    rw [toJson_eq_tagged] at h
    cases h with
    | object h => exact h member (List.mem_cons_of_mem _ hmember)
  have hreread : rereadParts node.parts = Json.rereadMembers node.jsonMembers := rfl
  rw [hreread, Json.rereadMembers_eq_map, spelledMembers, List.forall₂_map_left_iff,
    List.forall₂_map_right_iff, List.forall₂_same]
  exact fun member hmember => ⟨rfl, spells_text (hrange member hmember)⟩

/-- The text of a node is read, whatever follows it. -/
theorem read_text (node : Node) (rest : List Char) :
    read (node.toJson.text ++ rest) =
      if node.toJson.nesting ≤ maxNesting then
        Json.okIf node.hasFiniteNumbers notFinite (node.reread, rest)
      else fail .tooDeep := by
  have htype : "type" ∉ (rereadParts node.parts).map Prod.fst := by
    rw [names_rereadParts]
    exact fun h => node.kind.type_not_mem_names (node.names_parts ▸ h)
  have htext : node.toJson.text ++ rest = '\x7b' ::
      (Json.stringText "type" ++ ':' :: (Json.stringText node.kind.name ++
        (moreText ((spelledMembers node.jsonMembers).map memberText) ++ '\x7d' :: rest))) := by
    rw [toJson_eq_tagged, tagged, Json.text, membersText_eq, spelledMembers, List.map_cons,
      List.map_cons, partsText, memberText, ← spelledMembers]
    simp [Json.text]
  -- The outermost object is read without `value`, but it counts as a level.
  have hdepth : node.toJson.nesting ≤ maxNesting ↔
      Json.nestingMembers (rereadParts node.parts) ≤ maxNesting - 1 := by
    have hnesting : Json.nestingMembers (rereadParts node.parts) =
        Json.nestingMembers node.jsonMembers := Json.nesting_rereadMembers _
    rw [nesting_toJson, maxNesting, hnesting]
    omega
  have hmembers : outerMembers (value (maxNesting - 1)) _ true none _ = _ :=
    outerMembers_tagged node.kind node.spells_rereadParts htype rest (Nat.lt_succ_self _)
  have hnode : (do
      let node ← ofParts (← partsOfMembers node.kind [] (rereadParts node.parts)) node.kind
      .ok (node, rest)) = Json.okIf node.hasFiniteNumbers notFinite (node.reread, rest) := by
    rw [← bind_assoc, ofParts_rereadParts node fun child _ => ofJson_toJson child]
    exact Json.okIf_map fun node => (node, rest)
  rw [htext, read, skipBlank_cons rfl]
  simp only [↓reduceIte, hmembers, hdepth]
  split
  next hfits =>
    simp only [Json.okIf, hfits, ↓reduceIte]
    exact hnode
  next hdeep =>
    simp only [Json.okIf, hdeep, ↓reduceIte]
    rfl

/-- What the text of a tree is read as. -/
theorem parse_print_reread (node : Node) :
    Node.parse node.print =
      if node.toJson.nesting ≤ 127 then Json.okIf node.hasFiniteNumbers notFinite node.reread
      else .error (.syntactic .tooDeep) := by
  have hread := read_text node []
  rw [List.append_nil, maxNesting] at hread
  rw [parse, print, Json.print, String.toList_ofList, hread, Json.okIf]
  split
  next =>
    rw [Json.okIf]
    cases node.hasFiniteNumbers <;> rfl
  next => rfl

/-- A tree whose numbers are read back is read back itself, exactly if its numbers are finite and
the text is not nested too deeply. -/
theorem parse_print {node : Node} (hnumbers : node.NumbersReread) :
    Node.parse node.print =
      if node.toJson.nesting ≤ 127 then
        if node.hasFiniteNumbers then .ok node else .error (.shape (.noVariant "Numeral"))
      else .error (.syntactic .tooDeep) := by
  rw [parse_print_reread, Json.okIf, notFinite]
  by_cases hfinite : node.hasFiniteNumbers = true
  · rw [(reread_eq_iff hfinite).mpr hnumbers]
  · rw [if_neg hfinite, if_neg hfinite]

/-- `12.5` is read back from its text, and a numeral that is a text of its own needs no number. -/
theorem parse_print_product :
    let tree := program [binary .multiply (number (Number.ofRatio false 25 2)) (numeric (.text "0.5"))]
    tree.NumbersReread ∧ Node.parse tree.print = .ok tree := by
  intro tree
  have hfinite : tree.hasFiniteNumbers = true := by
    simp [tree, hasFiniteNumbers_eq, number, number?, children]
    decide +kernel
  have hdouble : Json.rereadDouble (Number.ofRatio false 25 2) = Number.ofRatio false 25 2 := by
    decide +kernel
  have hnumbers : tree.NumbersReread := by
    refine (reread_eq_iff hfinite).mp ?_
    simp only [tree, reread, number, mapNumbers, mapNumbersAll, hdouble]
  have hnesting : tree.toJson.nesting ≤ 127 := by decide
  refine ⟨hnumbers, ?_⟩
  rw [parse_print hnumbers, if_pos hnesting, if_pos hfinite]

end Node

end Templating
