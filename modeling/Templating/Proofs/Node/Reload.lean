import Templating.Proofs.Node.Reading

/-!
# Loading what was saved

Whatever spelling a text uses for its tree, the tree has only finite numbers and is written with no
deeper nesting than the text, so that what is saved can be loaded again.

Results:
1. `partOfJson_fits`: a part has finite numbers and is written no deeper than the value it was read
   from.
2. `parse_stable`: a tree that was loaded is saved to a text that can be loaded again, as the same
   tree exactly if its numbers are read back.
-/

namespace Templating

/-- The part has only finite numbers and is written with at most the given nesting. -/
structure Part.Fits (depth : Nat) (part : Part) : Prop where
  finite : part.hasFiniteNumbers = true
  nesting : part.toJson.nesting ≤ depth

namespace Node

/-! ## 1. Parts -/

variable {depth : Nat}

theorem fits_nodes {nodes : List Node} (h : ∀ node ∈ nodes, (Part.node node).Fits depth) :
    (Part.nodes nodes).Fits (depth + 1) where
  finite := by
    refine List.all_eq_true.mpr fun node hnode => ?_
    simpa [Part.hasFiniteNumbers, Part.subtrees] using (h node hnode).finite
  nesting := by
    have hitems : Json.nestingItems (nodes.map toJson) ≤ depth := by
      refine Json.nestingItems_le_iff.mpr fun json hjson => ?_
      obtain ⟨node, hnode, rfl⟩ := List.mem_map.mp hjson
      exact (h node hnode).nesting
    rw [Part.toJson, Json.nesting_array]
    omega

theorem fits_node {node : Node} (h : ∀ part ∈ node.parts, part.2.Fits depth) :
    (Part.node node).Fits (depth + 1) where
  finite := by
    have hfinite : node.hasFiniteNumbers = true := by
      rw [hasFiniteNumbers_parts]
      exact List.all_eq_true.mpr fun part hpart => (h part hpart).finite
    simpa [Part.hasFiniteNumbers, Part.subtrees] using hfinite
  nesting := by
    have hmembers : Json.nestingMembers node.jsonMembers ≤ depth := by
      refine Json.nestingMembers_le_iff.mpr fun member hmember => ?_
      obtain ⟨part, hpart, rfl⟩ := List.mem_map.mp hmember
      exact (h part hpart).nesting
    rw [Part.toJson, nesting_toJson]
    omega

/-- A node that is put together from parts fits where an object with these parts does: what stands
for missing parts is nested no deeper than a part that must be there. -/
theorem ofParts_fits {parts : List (String × Part)} {kind : Kind} {node : Node}
    (hparts : ∀ part ∈ parts, part.2.Fits depth) (h : ofParts parts kind = .ok node) :
    (Part.node node).Fits (depth + 1) := by
  refine fits_node (ofParts_forall ⟨rfl, Nat.zero_le _⟩ (fun nodes hnodes => ⟨rfl, ?_⟩) hparts h)
  have hlist := hnodes.nesting
  rw [Part.toJson, Json.nesting_array] at hlist ⊢
  exact Nat.le_trans (Nat.add_le_add_left (Nat.zero_le _) 1) hlist

/-- Numerals of a text are finite numbers, and parts that hold no nodes are not nested at all. -/
theorem leafPart_fits {type : PartType} {json : Json} {part : Part} (hexact : json.Exact)
    (h : leafPart type json = .ok part) : part.Fits depth := by
  cases type with
  | numeral =>
    cases json with
    | integer n =>
      cases h
      exact ⟨Json.isFinite_ofInt hexact, Nat.zero_le _⟩
    | float x =>
      cases h
      exact ⟨Json.isFinite_of_exact hexact, Nat.zero_le _⟩
    | string s =>
      cases h
      exact ⟨rfl, Nat.zero_le _⟩
    | _ => cases h
  | string =>
    cases json with
    | string s =>
      cases h
      exact ⟨rfl, Nat.zero_le _⟩
    | _ => cases h
  | boolean =>
    cases json with
    | boolean b =>
      cases h
      exact ⟨rfl, Nat.zero_le _⟩
    | _ => cases h
  | unaryOperator =>
    obtain ⟨operator, -, h⟩ := bind_eq_ok.mp h
    cases h
    exact ⟨rfl, Nat.zero_le _⟩
  | binaryOperator =>
    obtain ⟨operator, -, h⟩ := bind_eq_ok.mp h
    cases h
    exact ⟨rfl, Nat.zero_le _⟩
  | node => cases h
  | nodes => cases h

/-- A part has finite numbers and is written no deeper than the value it was read from. The
induction is on the nesting, each level of which belongs to a node or to a list of nodes. -/
theorem partOfJson_fits {type : PartType} {json : Json} {part : Part} (hplain : json.Plain depth)
    (h : partOfJson type json = .ok part) : part.Fits depth := by
  induction depth using Nat.strong_induction_on generalizing type json part with
  | _ depth ih =>
  cases type with
  | node =>
    rw [partOfJson_node] at h
    obtain ⟨node, hnode, h⟩ := bind_eq_ok.mp h
    cases h
    cases json with
    | array items =>
      obtain ⟨inner, rfl, hitems⟩ := Json.plain_array_iff.mp hplain
      cases items with
      | nil => cases hnode
      | cons tag items =>
        obtain ⟨kind, parts, -, hparts, hnode⟩ := ofJson_array_eq_ok_iff.mp hnode
        refine ofParts_fits (partsOfItems_forall (fun item hitem type part hpart => ?_) hparts)
          hnode
        exact ih inner (Nat.lt_succ_self _) (hitems item (List.mem_cons_of_mem _ hitem)) hpart
    | object members =>
      obtain ⟨inner, rfl, hmembers⟩ := Json.plain_object_iff.mp hplain
      obtain ⟨kind, parts, -, hparts, hnode⟩ := ofJson_object_eq_ok_iff.mp hnode
      refine ofParts_fits (partsOfMembers_forall (fun member hmember type part hpart => ?_) hparts)
        hnode
      exact ih inner (Nat.lt_succ_self _) (hmembers member hmember) hpart
    | _ => cases hnode
  | nodes =>
    cases json with
    | array items =>
      obtain ⟨inner, rfl, hitems⟩ := Json.plain_array_iff.mp hplain
      rw [partOfJson_nodes] at h
      obtain ⟨nodes, hnodes, h⟩ := bind_eq_ok.mp h
      cases h
      refine fits_nodes (allOfJson_forall (fun item hitem node hnode => ?_) hnodes)
      exact ih inner (Nat.lt_succ_self _) (hitems item hitem) (partOfJson_node_eq_ok_iff.mpr hnode)
    | _ => cases h
  | _ =>
    exact leafPart_fits hplain.legible.exact
      ((partOfJson_leaf (by decide) (by decide) json).symm.trans h)

/-! ## 2. Texts -/

/-- A tree with finite numbers whose text is not nested too deeply can be loaded again. What is
loaded is the same tree exactly if the numbers are read back. -/
theorem exists_reloaded {node : Node} (hfinite : node.hasFiniteNumbers = true)
    (hnesting : node.toJson.nesting ≤ Json.Reader.maxNesting) :
    ∃ reloaded, Node.parse node.print = .ok reloaded ∧ (reloaded = node ↔ node.NumbersReread) := by
  refine ⟨node.reread, ?_, reread_eq_iff hfinite⟩
  rw [Json.Reader.maxNesting] at hnesting
  rw [parse_print_reread, if_pos hnesting, Json.okIf, if_pos hfinite]

/-- A tree that was loaded has only finite numbers and is written no deeper than the text that it
was loaded from. What it is saved to can be loaded again, as the same tree exactly if its numbers
are read back. -/
theorem parse_stable {text : String} {node : Node} (h : Node.parse text = .ok node) :
    node.hasFiniteNumbers = true ∧
      (∃ json, Json.parse text = .ok json ∧ node.toJson.nesting ≤ json.nesting) ∧
      ∃ reloaded, Node.parse node.print = .ok reloaded ∧ (reloaded = node ↔ node.NumbersReread) := by
  obtain ⟨json, hjson, -, hnode⟩ := parse_eq_ok_iff.mp h
  have hplain := Json.readable_iff.mp ⟨text, hjson⟩
  have hfits := partOfJson_fits ⟨hplain.legible, Nat.le_refl _⟩
    (partOfJson_node_eq_ok_iff.mpr hnode)
  have hfinite : node.hasFiniteNumbers = true := by
    simpa [Part.hasFiniteNumbers, Part.subtrees] using hfits.finite
  exact ⟨hfinite, ⟨json, hjson, hfits.nesting⟩,
    exists_reloaded hfinite (hfits.nesting.trans hplain.nesting)⟩

set_option maxRecDepth 1000 in
/-- Nodes as arrays with an index for a tag, a tag after other members, an unknown member, an
operator as an object and no `alternate`. -/
theorem parse_stable_mixed_spelling :
    let text := "[\"Program\", [[2, \x7b\"argument\": [4, 2], \"note\": 0, \"type\": 10, " ++
      "\"operator\": \x7b\"-\": null\x7d\x7d, []]]]"
    let tree := program [branch (unary .negate (numeric (.number (Number.ofInt 2)))) [] []]
    Node.parse text = .ok tree ∧ tree.hasFiniteNumbers = true ∧ tree.NumbersReread ∧
      Node.parse tree.print = .ok tree := by
  intro text tree
  have hjson : Json.parse text = .ok (.array [.string "Program", .array [.array [.integer 2,
      .object [("argument", .array [.integer 4, .integer 2]), ("note", .integer 0),
        ("type", .integer 10), ("operator", .object [("-", .null)])], .array []]]]) := by cbv
  have hparse : Node.parse text = .ok tree := parse_eq_ok_iff.mpr ⟨_, hjson, ⟨_, rfl⟩, rfl⟩
  obtain ⟨hfinite, -, reloaded, hreloaded, hsame⟩ := parse_stable hparse
  have hdouble : Json.rereadDouble (Number.ofInt 2) = Number.ofInt 2 := by decide +kernel
  have hnumbers : tree.NumbersReread := by
    refine (reread_eq_iff hfinite).mp ?_
    simp only [tree, reread, number, mapNumbers, mapNumbersAll, hdouble]
  exact ⟨hparse, hfinite, hnumbers, hsame.mpr hnumbers ▸ hreloaded⟩

end Node

end Templating
