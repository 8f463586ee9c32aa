import Mathlib.Data.List.Forall2
import Templating.Proofs.Json.Reading
import Templating.Proofs.Node.RoundTrip

/-!
# Trees that are read

Reading a text as a tree is reading it as a value and taking this value for a node. Which members
are parts, and under which conditions they are accepted, does not depend on their order.

Results:
1. `kindOfMembers_eq_ok_iff`, `partsOfMembers_eq_ok_iff`: there is one tag, and the parts are read
   from the known members, none of which stands twice.
2. `partsOfItems_forall`, `partsOfItems_replace` and their likes: what all parts have that items
   stand for, and that another item may stand for the same part.
3. `parse_eq_ok_iff`: a text holds a tree if it holds the value of a node whose tag is a string.
-/

namespace Templating

open Json.Reader

/-- The tag of a node is written as a string, wherever it stands. -/
def Json.TagIsString : Json → Prop
  | .array (tag :: _) => ∃ name, tag = .string name
  | .object members => ∀ member ∈ members, member.1 = "type" → ∃ name, member.2 = .string name
  | _ => True

namespace Node

/-! ## 1. Members -/

theorem partOfJson_node_eq_ok_iff {json : Json} {node : Node} :
    partOfJson .node json = .ok (.node node) ↔ ofJson json = .ok node := by
  rw [partOfJson_node, bind_eq_ok]
  constructor
  · rintro ⟨found, hfound, h⟩
    cases h
    exact hfound
  · exact fun h => ⟨node, h, rfl⟩

theorem ofJson_object_eq_ok_iff {members : List (String × Json)} {node : Node} :
    ofJson (.object members) = .ok node ↔
      ∃ kind parts, kindOfMembers none members = .ok kind ∧
        partsOfMembers kind [] members = .ok parts ∧ ofParts parts kind = .ok node := by
  rw [ofJson, bind_eq_ok]
  simp only [bind_eq_ok, exists_and_left]

theorem ofJson_array_eq_ok_iff {tag : Json} {items : List Json} {node : Node} :
    ofJson (.array (tag :: items)) = .ok node ↔
      ∃ kind parts, kindOfTag tag = .ok kind ∧
        partsOfItems kind kind.schema 0 items = .ok parts ∧ ofParts parts kind = .ok node := by
  rw [ofJson, bind_eq_ok]
  simp only [bind_eq_ok, exists_and_left]

theorem partOfJson_leaf {type : PartType} (hnode : type ≠ .node) (hnodes : type ≠ .nodes)
    (json : Json) : partOfJson type json = leafPart type json := by
  cases type with
  | node => exact absurd rfl hnode
  | nodes => exact absurd rfl hnodes
  | _ => cases json <;> rfl

section

variable {kind : Kind} {members : List (String × Json)}

theorem kindOfMembers_tag (value : Json) :
    kindOfMembers none (("type", value) :: members) =
      (do kindOfMembers (some (← kindOfTag value)) members) := by
  rw [kindOfMembers, if_pos rfl]

/-- A nested node has one tag, wherever it stands. -/
theorem kindOfMembers_eq_ok_iff :
    kindOfMembers none members = .ok kind ↔
      ∃ tag, members.filter (fun member => member.1 = "type") = [("type", tag)] ∧
        kindOfTag tag = .ok kind := by
  induction members with
  | nil => simp [kindOfMembers]
  | cons member rest ih =>
    obtain ⟨name, value⟩ := member
    by_cases hname : name = "type"
    · subst hname
      rw [kindOfMembers_tag, List.filter_cons_of_pos (by simp), bind_eq_ok]
      have hnone : "type" ∉ rest.map Prod.fst ↔
          rest.filter (fun member => member.1 = "type") = [] := by
        rw [List.filter_eq_nil_iff, List.mem_map]
        simp only [decide_eq_true_eq, not_exists, not_and]
      simp only [kindOfMembers_some_eq_ok_iff, hnone]
      constructor
      · rintro ⟨found, hfound, rfl, hrest⟩
        exact ⟨value, by rw [hrest], hfound⟩
      · rintro ⟨tag, htag, hkind⟩
        obtain ⟨hvalue, hrest⟩ := List.cons.inj htag
        cases hvalue
        exact ⟨kind, hkind, rfl, hrest⟩
    · rw [kindOfMembers_other _ hname, ih, List.filter_cons_of_neg (by simpa using hname)]

theorem partsOfMembers_other {name : String} (hname : name ∉ kind.schema.map Member.name)
    (value : Json) (seen : List String) :
    partsOfMembers kind seen ((name, value) :: members) = partsOfMembers kind seen members := by
  rw [partsOfMembers, Kind.schema_find?_eq_none_iff.mpr hname]

/-- The tag is not among the parts. -/
theorem partsOfMembers_filter (kind : Kind) (seen : List String)
    (members : List (String × Json)) :
    partsOfMembers kind seen (members.filter fun member => member.1 ≠ "type") =
      partsOfMembers kind seen members := by
  induction members generalizing seen with
  | nil => rfl
  | cons member rest ih =>
    obtain ⟨name, value⟩ := member
    by_cases hname : name = "type"
    · subst hname
      rw [List.filter_cons_of_neg (by simp), ih,
        partsOfMembers_other kind.type_not_mem_names]
    · rw [List.filter_cons_of_pos (by simpa using hname), partsOfMembers, partsOfMembers]
      simp only [ih]

/-- The members whose names a kind knows. -/
def knownMembers (kind : Kind) (members : List (String × Json)) : List (String × Json) :=
  members.filter fun member => member.1 ∈ kind.schema.map Member.name

theorem knownMembers_append (kind : Kind) (xs ys : List (String × Json)) :
    knownMembers kind (xs ++ ys) = knownMembers kind xs ++ knownMembers kind ys :=
  List.filter_append ..

/-- A known member stands for a part. -/
structure StandsFor (kind : Kind) (member : String × Json) (part : String × Part) : Prop where
  name : part.1 = member.1
  read : ∃ entry, kind.schema.find? (fun entry => entry.name == member.1) = some entry ∧
    partOfJson entry.type member.2 = .ok part.2

/-- The parts of a node are read from its known members, none of which stands twice. -/
theorem partsOfMembers_eq_ok_iff {seen : List String} {parts : List (String × Part)} :
    partsOfMembers kind seen members = .ok parts ↔
      ((knownMembers kind members).map Prod.fst).Nodup ∧
        ((knownMembers kind members).map Prod.fst).Disjoint seen ∧
        List.Forall₂ (StandsFor kind) (knownMembers kind members) parts := by
  induction members generalizing seen parts with
  | nil => simp [partsOfMembers, knownMembers, eq_comm]
  | cons member rest ih =>
    obtain ⟨name, value⟩ := member
    by_cases hknown : name ∈ kind.schema.map Member.name
    · have hmembers : knownMembers kind ((name, value) :: rest) =
          (name, value) :: knownMembers kind rest :=
        List.filter_cons_of_pos (decide_eq_true hknown)
      obtain ⟨entry, hentry⟩ := Option.ne_none_iff_exists'.mp
        (mt Kind.schema_find?_eq_none_iff.mp (not_not.mpr hknown))
      rw [hmembers, partsOfMembers, hentry, List.map_cons, List.nodup_cons, List.disjoint_cons_left]
      simp only
      constructor
      · intro h
        split at h
        next => cases h
        next hseen =>
          obtain ⟨part, hpart, h⟩ := bind_eq_ok.mp h
          obtain ⟨more, hmore, h⟩ := bind_eq_ok.mp h
          cases h
          obtain ⟨hnodup, hdisjoint, hparts⟩ := ih.mp hmore
          rw [List.disjoint_cons_right] at hdisjoint
          refine ⟨⟨hdisjoint.1, hnodup⟩, ⟨by simpa using hseen, hdisjoint.2⟩, ?_⟩
          exact .cons ⟨rfl, entry, hentry, hpart⟩ hparts
      · rintro ⟨⟨hname, hnodup⟩, ⟨hseen, hdisjoint⟩, hparts⟩
        rw [if_neg (by simpa using hseen)]
        cases hparts with
        | @cons _ part _ more hpart hparts =>
          obtain ⟨found, part⟩ := part
          obtain ⟨hfound, other, hother, hpart⟩ := hpart
          cases hfound
          cases hentry.symm.trans hother
          have hmore := ih.mpr ⟨hnodup, List.disjoint_cons_right.mpr ⟨hname, hdisjoint⟩, hparts⟩
          exact bind_eq_ok.mpr ⟨part, hpart, bind_eq_ok.mpr ⟨more, hmore, rfl⟩⟩
    · have hmembers : knownMembers kind ((name, value) :: rest) = knownMembers kind rest :=
        List.filter_cons_of_neg (by simpa using hknown)
      rw [hmembers, partsOfMembers_other hknown, ih]

theorem names_of_standsFor {parts : List (String × Part)}
    (h : List.Forall₂ (StandsFor kind) members parts) :
    parts.map Prod.fst = members.map Prod.fst := by
  induction h with
  | nil => rfl
  | cons hpart _ ih => rw [List.map_cons, List.map_cons, hpart.name, ih]

/-- A property of all parts that members may stand for. -/
theorem partsOfMembers_forall {P : Part → Prop} {seen : List String}
    {parts : List (String × Part)}
    (hread : ∀ member ∈ members, ∀ type part, partOfJson type member.2 = .ok part → P part)
    (h : partsOfMembers kind seen members = .ok parts) : ∀ part ∈ parts, P part.2 := by
  have hknown : ∀ member ∈ knownMembers kind members, ∀ type part,
      partOfJson type member.2 = .ok part → P part :=
    fun member hmember => hread member (List.mem_of_mem_filter hmember)
  obtain ⟨-, -, hparts⟩ := partsOfMembers_eq_ok_iff.mp h
  clear h
  generalize knownMembers kind members = known at hknown hparts
  induction hparts with
  | nil => exact List.forall_mem_nil _
  | cons hpart _ ih =>
    obtain ⟨hfirst, hrest⟩ := List.forall_mem_cons.mp hknown
    obtain ⟨-, entry, -, hpart⟩ := hpart
    exact List.forall_mem_cons.mpr ⟨hfirst entry.type _ hpart, ih hrest⟩

/-- Another value of a member that is read as the same part. -/
theorem partsOfMembers_replace {name : String} {value value' : Json}
    {before : List (String × Json)} {seen : List String} {parts : List (String × Part)}
    (hvalue : ∀ entry ∈ kind.schema, entry.name = name → ∀ part,
      partOfJson entry.type value = .ok part → partOfJson entry.type value' = .ok part)
    (h : partsOfMembers kind seen (before ++ (name, value) :: members) = .ok parts) :
    partsOfMembers kind seen (before ++ (name, value') :: members) = .ok parts := by
  induction before generalizing seen parts with
  | nil =>
    rw [List.nil_append, partsOfMembers] at h ⊢
    split at h
    next => exact h
    next entry hentry =>
      split at h
      next => cases h
      next hseen =>
        obtain ⟨part, hpart, h⟩ := bind_eq_ok.mp h
        rw [if_neg hseen]
        have hname : entry.name = name := by simpa using List.find?_some hentry
        exact bind_eq_ok.mpr
          ⟨part, hvalue entry (List.mem_of_find?_eq_some hentry) hname part hpart, h⟩
  | cons member before ih =>
    rw [List.cons_append, partsOfMembers] at h ⊢
    split at h
    next => exact ih h
    next entry hentry =>
      split at h
      next => cases h
      next hseen =>
        obtain ⟨part, hpart, h⟩ := bind_eq_ok.mp h
        obtain ⟨more, hmore, h⟩ := bind_eq_ok.mp h
        rw [if_neg hseen]
        exact bind_eq_ok.mpr ⟨part, hpart, bind_eq_ok.mpr ⟨more, ih hmore, h⟩⟩

end

/-! ## 2. Items -/

section

variable {kind : Kind} {schema : List Member} {read : Nat} {items : List Json}

/-- A property of all parts that items may stand for. -/
theorem partsOfItems_forall {P : Part → Prop} {parts : List (String × Part)}
    (hread : ∀ item ∈ items, ∀ type part, partOfJson type item = .ok part → P part)
    (h : partsOfItems kind schema read items = .ok parts) : ∀ part ∈ parts, P part.2 := by
  induction items generalizing schema read parts with
  | nil =>
    rw [partsOfItems] at h
    split at h
    next =>
      cases h
      exact List.forall_mem_nil _
    next => cases h
  | cons item rest ih =>
    obtain ⟨hfirst, hrest⟩ := List.forall_mem_cons.mp hread
    cases schema with
    | nil => cases h
    | cons entry schema =>
      obtain ⟨part, hpart, h⟩ := bind_eq_ok.mp h
      obtain ⟨more, hmore, h⟩ := bind_eq_ok.mp h
      cases h
      exact List.forall_mem_cons.mpr ⟨hfirst entry.type part hpart, ih hrest hmore⟩

/-- Another item that is read as the same part. -/
theorem partsOfItems_replace {item item' : Json} {before : List Json}
    {parts : List (String × Part)}
    (hitem : ∀ entry ∈ schema[before.length]?, ∀ part,
      partOfJson entry.type item = .ok part → partOfJson entry.type item' = .ok part)
    (h : partsOfItems kind schema read (before ++ item :: items) = .ok parts) :
    partsOfItems kind schema read (before ++ item' :: items) = .ok parts := by
  induction before generalizing schema read parts with
  | nil =>
    cases schema with
    | nil => cases h
    | cons entry schema =>
      obtain ⟨part, hpart, h⟩ := bind_eq_ok.mp h
      exact bind_eq_ok.mpr ⟨part, hitem entry rfl part hpart, h⟩
  | cons other before ih =>
    cases schema with
    | nil => cases h
    | cons entry schema =>
      obtain ⟨part, hpart, h⟩ := bind_eq_ok.mp h
      obtain ⟨more, hmore, h⟩ := bind_eq_ok.mp h
      exact bind_eq_ok.mpr ⟨part, hpart, bind_eq_ok.mpr ⟨more, ih hitem hmore, h⟩⟩

/-- A property of all nodes that items may stand for. -/
theorem allOfJson_forall {P : Node → Prop} {nodes : List Node}
    (hread : ∀ item ∈ items, ∀ node, ofJson item = .ok node → P node)
    (h : allOfJson items = .ok nodes) : ∀ node ∈ nodes, P node := by
  induction items generalizing nodes with
  | nil =>
    cases h
    exact List.forall_mem_nil _
  | cons item rest ih =>
    obtain ⟨hfirst, hrest⟩ := List.forall_mem_cons.mp hread
    obtain ⟨node, hnode, h⟩ := bind_eq_ok.mp h
    obtain ⟨more, hmore, h⟩ := bind_eq_ok.mp h
    cases h
    exact List.forall_mem_cons.mpr ⟨hfirst node hnode, ih hrest hmore⟩

/-- Another item that is read as the same node. -/
theorem allOfJson_replace {item item' : Json} {before : List Json} {nodes : List Node}
    (hitem : ∀ node, ofJson item = .ok node → ofJson item' = .ok node)
    (h : allOfJson (before ++ item :: items) = .ok nodes) :
    allOfJson (before ++ item' :: items) = .ok nodes := by
  induction before generalizing nodes with
  | nil =>
    obtain ⟨node, hnode, h⟩ := bind_eq_ok.mp h
    exact bind_eq_ok.mpr ⟨node, hitem node hnode, h⟩
  | cons other before ih =>
    obtain ⟨node, hnode, h⟩ := bind_eq_ok.mp h
    obtain ⟨more, hmore, h⟩ := bind_eq_ok.mp h
    exact bind_eq_ok.mpr ⟨node, hnode, bind_eq_ok.mpr ⟨more, ih hmore, h⟩⟩

end

/-! ## 3. The outermost node -/

section

variable {depth fuel : Nat} {cs rest : List Char}

/-- A tag is read where a value that is a string would be read. -/
theorem outerTag_eq_ok_iff {kind : Kind} :
    outerTag cs = .ok (kind, rest) ↔
      ∃ name, value (depth + 1) cs = .ok (.string name, rest) ∧ Kind.ofName name = kind := by
  rw [outerTag, value]
  cases skipBlank cs with
  | nil =>
    constructor
    · intro h
      cases h
    · rintro ⟨name, h, -⟩
      cases h
  | cons c tail =>
    simp only
    by_cases hc : c = '"'
    · subst hc
      have hstring : valueFrom (some (value depth)) '"' tail =
          (do
            let read ← Json.Reader.string tail
            .ok (.string read.1, read.2)) := rfl
      rw [if_pos rfl, hstring]
      constructor
      · intro h
        obtain ⟨⟨name, after⟩, hname, h⟩ := bind_eq_ok.mp h
        cases h
        exact ⟨name, bind_eq_ok.mpr ⟨_, hname, rfl⟩, rfl⟩
      · rintro ⟨name, h, rfl⟩
        obtain ⟨⟨name, after⟩, hname, h⟩ := bind_eq_ok.mp h
        cases h
        exact bind_eq_ok.mpr ⟨_, hname, rfl⟩
    · rw [if_neg hc]
      constructor
      · intro h
        cases h
      · rintro ⟨name, h, -⟩
        exact absurd (valueFrom_opening h rfl) hc

/-- A tag takes at least its opening quote. -/
theorem outerTag_lt {kind : Kind} (h : outerTag cs = .ok (kind, rest)) :
    rest.length < cs.length := by
  unfold outerTag at h
  split at h
  next => cases h
  next c tail hblank =>
    split at h
    next =>
      obtain ⟨⟨name, after⟩, hname, h⟩ := bind_eq_ok.mp h
      cases h
      have hcs := (skipBlank_suffix cs).length_le
      have htail := (string_suffix hname).length_le
      rw [hblank, List.length_cons] at hcs
      omega
    next => cases h

/-- The members of the outermost node are those of an object, without the tag. -/
theorem objectMembers_of_outerMembers {first : Bool} {seen : Option Kind} {kind : Kind}
    {others : List (String × Json)}
    (h : outerMembers (value (depth + 1)) fuel first seen cs = .ok (some kind, others, rest)) :
    ∃ members, objectMembers (value (depth + 1)) fuel first cs = .ok (members, rest) ∧
      (Json.object members).TagIsString ∧ kindOfMembers seen members = .ok kind ∧
      members.filter (fun member => member.1 ≠ "type") = others := by
  induction fuel generalizing first seen cs others with
  | zero => cases h
  | succ fuel ih =>
    rw [outerMembers] at h
    obtain ⟨next, hnext, h⟩ := bind_eq_ok.mp h
    obtain ⟨after, -, rfl | ⟨name, rfl⟩⟩ := nextMember_cases hnext
    · cases h
      exact ⟨[], bind_eq_ok.mpr ⟨_, hnext, rfl⟩, List.forall_mem_nil _, rfl, rfl⟩
    by_cases hname : name = "type"
    · subst hname
      simp only [↓reduceIte] at h
      cases seen with
      | some kind => cases h
      | none =>
        obtain ⟨afterColon, hcolon, h⟩ := bind_eq_ok.mp h
        obtain ⟨⟨found, afterTag⟩, htag, h⟩ := bind_eq_ok.mp h
        obtain ⟨tag, hvalue, rfl⟩ := (@outerTag_eq_ok_iff depth _ _ _).mp htag
        obtain ⟨members, hmembers, hstrings, hkind, rfl⟩ := ih h
        refine ⟨("type", .string tag) :: members, ?_, ?_, hkind, rfl⟩
        · exact bind_eq_ok.mpr ⟨_, hnext, bind_eq_ok.mpr ⟨_, hcolon,
            bind_eq_ok.mpr ⟨_, hvalue, bind_eq_ok.mpr ⟨_, hmembers, rfl⟩⟩⟩⟩
        · exact List.forall_mem_cons.mpr ⟨fun _ => ⟨tag, rfl⟩, hstrings⟩
    · simp only [hname, ↓reduceIte] at h
      obtain ⟨afterColon, hcolon, h⟩ := bind_eq_ok.mp h
      obtain ⟨⟨json, afterValue⟩, hvalue, h⟩ := bind_eq_ok.mp h
      obtain ⟨⟨found, more, afterMore⟩, hmore, h⟩ := bind_eq_ok.mp h
      cases h
      obtain ⟨members, hmembers, hstrings, hkind, rfl⟩ := ih hmore
      refine ⟨(name, json) :: members, ?_, ?_, ?_, ?_⟩
      · exact bind_eq_ok.mpr ⟨_, hnext, bind_eq_ok.mpr ⟨_, hcolon,
          bind_eq_ok.mpr ⟨_, hvalue, bind_eq_ok.mpr ⟨_, hmembers, rfl⟩⟩⟩⟩
      · exact List.forall_mem_cons.mpr ⟨fun htype => absurd htype hname, hstrings⟩
      · rw [kindOfMembers_other _ hname]
        exact hkind
      · exact List.filter_cons_of_pos (by simpa using hname)

/-- An object whose tag is a string has the members that the outermost node can have. -/
theorem outerMembers_of_objectMembers {first : Bool} {seen : Option Kind} {kind : Kind}
    {members : List (String × Json)}
    (h : objectMembers (value (depth + 1)) fuel first cs = .ok (members, rest))
    (hstrings : (Json.object members).TagIsString) (hkind : kindOfMembers seen members = .ok kind) :
    outerMembers (value (depth + 1)) fuel first seen cs =
      .ok (some kind, members.filter (fun member => member.1 ≠ "type"), rest) := by
  induction fuel generalizing first seen cs members with
  | zero => cases h
  | succ fuel ih =>
    rw [objectMembers] at h
    rw [outerMembers]
    obtain ⟨next, hnext, h⟩ := bind_eq_ok.mp h
    refine bind_eq_ok.mpr ⟨next, hnext, ?_⟩
    obtain ⟨after, -, rfl | ⟨name, rfl⟩⟩ := nextMember_cases hnext
    · cases h
      cases seen with
      | some found =>
        cases hkind
        rfl
      | none => cases hkind
    obtain ⟨afterColon, hcolon, h⟩ := bind_eq_ok.mp h
    obtain ⟨⟨json, afterValue⟩, hvalue, h⟩ := bind_eq_ok.mp h
    obtain ⟨⟨more, afterMore⟩, hmore, h⟩ := bind_eq_ok.mp h
    cases h
    obtain ⟨hjson, hmoreStrings⟩ := List.forall_mem_cons.mp hstrings
    by_cases hname : name = "type"
    · subst hname
      obtain ⟨tag, rfl⟩ := hjson rfl
      cases seen with
      | some found =>
        rw [kindOfMembers_duplicate] at hkind
        cases hkind
      | none =>
        rw [List.filter_cons_of_neg (by simp)]
        simp only [↓reduceIte]
        exact bind_eq_ok.mpr ⟨_, hcolon,
          bind_eq_ok.mpr ⟨_, outerTag_eq_ok_iff.mpr ⟨tag, hvalue, rfl⟩,
            ih hmore hmoreStrings hkind⟩⟩
    · rw [kindOfMembers_other _ hname] at hkind
      rw [List.filter_cons_of_pos (by simpa using hname)]
      simp only [hname, ↓reduceIte]
      exact bind_eq_ok.mpr ⟨_, hcolon, bind_eq_ok.mpr ⟨_, hvalue,
        bind_eq_ok.mpr ⟨_, ih hmore hmoreStrings hkind, rfl⟩⟩⟩

/-- Items that were read are read with any fuel beyond the number of characters. -/
theorem listItems_fuel {α : Type} {item : List Char → Except Json.Error (Read α)} {xs : List α}
    {fuel' : Nat} (hitem : ∀ cs x rest, item cs = .ok (x, rest) → rest <:+ cs)
    (h : listItems item fuel false cs = .ok (xs, rest)) (hfuel : cs.length < fuel') :
    listItems item fuel' false cs = .ok (xs, rest) := by
  induction fuel generalizing fuel' cs xs with
  | zero => cases h
  | succ fuel ih =>
    obtain ⟨fuel', rfl⟩ := Nat.exists_eq_add_one_of_ne_zero (Nat.ne_zero_of_lt hfuel)
    rw [listItems] at h ⊢
    obtain ⟨next, hnext, h⟩ := bind_eq_ok.mp h
    refine bind_eq_ok.mpr ⟨next, hnext, ?_⟩
    cases next with
    | close after => exact h
    | item after =>
      obtain ⟨⟨x, afterItem⟩, hx, h⟩ := bind_eq_ok.mp h
      obtain ⟨⟨more, afterMore⟩, hmore, h⟩ := bind_eq_ok.mp h
      have hafter := item_lt hnext
      have hlength := (hitem _ _ _ hx).length_le
      cases h
      exact bind_eq_ok.mpr ⟨_, hx, bind_eq_ok.mpr ⟨_, ih hmore (by omega), rfl⟩⟩

theorem read_object {node : Node} :
    read ('\x7b' :: cs) = .ok (node, rest) ↔
      ∃ members, objectMembers (value (maxNesting - 1)) (cs.length + 1) true cs =
          .ok (members, rest) ∧
        (Json.object members).TagIsString ∧ ofJson (.object members) = .ok node := by
  rw [read, skipBlank_cons rfl]
  simp only [↓reduceIte]
  constructor
  · intro h
    obtain ⟨⟨kind?, others, after⟩, hothers, h⟩ := bind_eq_ok.mp h
    cases kind? with
    | none => cases h
    | some kind =>
      obtain ⟨parts, hparts, h⟩ := bind_eq_ok.mp h
      obtain ⟨node, hnode, h⟩ := bind_eq_ok.mp h
      cases h
      obtain ⟨members, hmembers, hstrings, hkind, rfl⟩ := objectMembers_of_outerMembers hothers
      rw [partsOfMembers_filter] at hparts
      exact ⟨members, hmembers, hstrings,
        ofJson_object_eq_ok_iff.mpr ⟨kind, parts, hkind, hparts, hnode⟩⟩
  · rintro ⟨members, hmembers, hstrings, hnode⟩
    obtain ⟨kind, parts, hkind, hparts, hnode⟩ := ofJson_object_eq_ok_iff.mp hnode
    rw [← partsOfMembers_filter] at hparts
    exact bind_eq_ok.mpr ⟨_, outerMembers_of_objectMembers hmembers hstrings hkind,
      bind_eq_ok.mpr ⟨parts, hparts, bind_eq_ok.mpr ⟨node, hnode, rfl⟩⟩⟩

theorem read_list {node : Node} :
    read ('[' :: cs) = .ok (node, rest) ↔
      ∃ items, listItems (value (maxNesting - 1)) (cs.length + 1) true cs = .ok (items, rest) ∧
        (Json.array items).TagIsString ∧ ofJson (.array items) = .ok node := by
  have hvalue : ∀ cs x rest, value (maxNesting - 1) cs = .ok (x, rest) → rest <:+ cs :=
    fun cs x rest h => (value_reads _ cs x rest h).1
  rw [read, skipBlank_cons rfl]
  simp only [Char.reduceEq, ↓reduceIte]
  constructor
  · intro h
    obtain ⟨next, hnext, h⟩ := bind_eq_ok.mp h
    cases next with
    | close after => cases h
    | item after =>
      obtain ⟨⟨kind, afterTag⟩, htag, h⟩ := bind_eq_ok.mp h
      obtain ⟨⟨items, afterItems⟩, hitems, h⟩ := bind_eq_ok.mp h
      obtain ⟨parts, hparts, h⟩ := bind_eq_ok.mp h
      obtain ⟨node, hnode, h⟩ := bind_eq_ok.mp h
      cases h
      obtain ⟨name, hname, rfl⟩ := (@outerTag_eq_ok_iff 125 _ _ _).mp htag
      have hlength := (item_suffix hnext).length_le
      have htagLength := outerTag_lt htag
      refine ⟨.string name :: items, ?_, ⟨name, rfl⟩,
        ofJson_array_eq_ok_iff.mpr ⟨_, parts, rfl, hparts, hnode⟩⟩
      rw [listItems]
      exact bind_eq_ok.mpr ⟨_, hnext, bind_eq_ok.mpr ⟨_, hname,
        bind_eq_ok.mpr ⟨_, listItems_fuel hvalue hitems (by omega), rfl⟩⟩⟩
  · rintro ⟨items, hitems, hstring, hnode⟩
    cases items with
    | nil => cases hnode
    | cons tag items =>
      obtain ⟨name, rfl⟩ := hstring
      obtain ⟨kind, parts, hkind, hparts, hnode⟩ := ofJson_array_eq_ok_iff.mp hnode
      cases hkind
      rw [listItems] at hitems
      obtain ⟨next, hnext, hitems⟩ := bind_eq_ok.mp hitems
      refine bind_eq_ok.mpr ⟨next, hnext, ?_⟩
      cases next with
      | close after => cases hitems
      | item after =>
        obtain ⟨⟨tag, afterTag⟩, htag, hitems⟩ := bind_eq_ok.mp hitems
        obtain ⟨⟨more, afterMore⟩, hmore, hitems⟩ := bind_eq_ok.mp hitems
        cases hitems
        exact bind_eq_ok.mpr ⟨_, (@outerTag_eq_ok_iff 125 _ _ _).mpr ⟨name, htag, rfl⟩,
          bind_eq_ok.mpr ⟨_, listItems_fuel hvalue hmore (Nat.lt_succ_self _),
            bind_eq_ok.mpr ⟨parts, hparts, bind_eq_ok.mpr ⟨node, hnode, rfl⟩⟩⟩⟩

/-- The outermost node is read like any value, but its tag must be a string. -/
theorem read_eq_ok_iff {node : Node} :
    read cs = .ok (node, rest) ↔
      ∃ json, value maxNesting cs = .ok (json, rest) ∧ json.TagIsString ∧ ofJson json = .ok node := by
  have hvalue : value maxNesting cs = value (maxNesting - 1 + 1) cs := rfl
  have hblank : skipBlank (skipBlank cs) = skipBlank cs := List.dropWhile_idempotent ..
  have hread : read cs = read (skipBlank cs) := by
    unfold read
    rw [hblank]
  rw [hvalue, value, hread]
  cases hcs : skipBlank cs with
  | nil =>
    constructor
    · intro h
      cases h
    · rintro ⟨json, h, -⟩
      cases h
  | cons c tail =>
    constructor
    · intro h
      by_cases hobject : c = '\x7b'
      · subst hobject
        obtain ⟨members, hmembers, hstrings, hnode⟩ := read_object.mp h
        exact ⟨.object members, bind_eq_ok.mpr ⟨_, hmembers, rfl⟩, hstrings, hnode⟩
      by_cases hlist : c = '['
      · subst hlist
        obtain ⟨items, hitems, hstring, hnode⟩ := read_list.mp h
        exact ⟨.array items, bind_eq_ok.mpr ⟨_, hitems, rfl⟩, hstring, hnode⟩
      · rw [hcs] at hblank
        rw [read, hblank] at h
        simp only [hobject, hlist, ↓reduceIte] at h
        cases h
    · rintro ⟨json, hjson, hstring, hnode⟩
      obtain ⟨-, rfl | ⟨b, rfl⟩⟩ | ⟨-, s, -, rfl⟩ | hnumber | ⟨item, hitem, rfl, items, hitems, rfl⟩ |
        ⟨item, hitem, rfl, members, hmembers, rfl⟩ := valueFrom_cases hjson
      · cases hnode
      · cases hnode
      · cases hnode
      · have hopening := (number_reads 0 _ _ _ hnumber).2.opening
        cases json with
        | array items => cases hopening
        | object members => cases hopening
        | _ => cases hnode
      · cases hitem
        exact read_list.mpr ⟨items, hitems, hstring, hnode⟩
      · cases hitem
        exact read_object.mpr ⟨members, hmembers, hstring, hnode⟩

end

/-- A text holds a tree if it holds the value of a node whose tag is a string. -/
theorem parse_eq_ok_iff {text : String} {node : Node} :
    Node.parse text = .ok node ↔
      ∃ json, Json.parse text = .ok json ∧ json.TagIsString ∧ ofJson json = .ok node := by
  constructor
  · intro h
    obtain ⟨⟨node, rest⟩, hread, h⟩ := bind_eq_ok.mp h
    obtain ⟨done, hfinish, h⟩ := bind_eq_ok.mp h
    cases h
    obtain ⟨json, hjson, hstring, hnode⟩ := read_eq_ok_iff.mp hread
    exact ⟨json, bind_eq_ok.mpr ⟨_, hjson, bind_eq_ok.mpr ⟨done, hfinish, rfl⟩⟩, hstring, hnode⟩
  · rintro ⟨json, hjson, hstring, hnode⟩
    obtain ⟨⟨json, rest⟩, hvalue, hjson⟩ := bind_eq_ok.mp hjson
    obtain ⟨done, hfinish, hjson⟩ := bind_eq_ok.mp hjson
    cases hjson
    exact bind_eq_ok.mpr ⟨_, read_eq_ok_iff.mpr ⟨json, hvalue, hstring, hnode⟩,
      bind_eq_ok.mpr ⟨done, hfinish, rfl⟩⟩

end Node

end Templating
