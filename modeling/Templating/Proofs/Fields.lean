import Mathlib.Data.List.Forall2
import Mathlib.Data.List.Perm.Subperm
import Templating.Fields

/-!
# Sorted fields

Results:
1. `mem_insertAll`, `mem_ofList`: a record holds nothing but the fields that were put into it.
2. `Sorted.insertAll`, `sorted_ofList`: a record stays sorted, and so has each name once.
3. `find?_eq_some_iff`: where names are distinct, what is found under a name is the field of that
   name.
4. `Sorted.eq_of_find?`: a sorted record is determined by what is found in it.
5. `find?_ofList`, `Sorted.ofList_perm`: where names are distinct, putting fields into a record loses
   none of them, and sorted fields come back in whatever order they are put into it;
   `length_ofList_eq_iff`: otherwise some field is lost.
6. `find?_map`, `ofList_map`: values can be changed before or after fields are looked up or put into
   a record.
7. `Alike.find?`, `Sorted.alike_iff`: two sorted records are alike, field by field, if they have the
   same size and what is found in the one is related to what is found in the other.
-/

namespace Templating.Fields

variable {α β : Type}

/-- The names stand in ascending order, each of them once. -/
def Sorted (fields : List (String × α)) : Prop := (fields.map Prod.fst).Pairwise (· < ·)

instance (fields : List (String × α)) : Decidable (Sorted fields) :=
  inferInstanceAs (Decidable (List.Pairwise _ _))

/-! ## 1. Members -/

theorem mem_insert {name : String} {value : α} {fields : List (String × α)} {field : String × α}
    (h : field ∈ insert name value fields) : field = (name, value) ∨ field ∈ fields := by
  induction fields with
  | nil => exact Or.inl (List.mem_singleton.mp h)
  | cons head rest ih =>
    obtain ⟨other, old⟩ := head
    rw [insert] at h
    split at h
    · exact List.mem_cons.mp h
    · split at h
      · exact (List.mem_cons.mp h).imp_right (List.mem_cons_of_mem _)
      · rcases List.mem_cons.mp h with rfl | h
        · exact Or.inr List.mem_cons_self
        · exact (ih h).imp_right (List.mem_cons_of_mem _)

theorem mem_insertAll {fields added : List (String × α)} {field : String × α}
    (h : field ∈ insertAll fields added) : field ∈ fields ∨ field ∈ added := by
  induction added generalizing fields with
  | nil => exact Or.inl h
  | cons head rest ih =>
    rcases ih h with h | h
    · rcases mem_insert h with rfl | h
      · exact Or.inr List.mem_cons_self
      · exact Or.inl h
    · exact Or.inr (List.mem_cons_of_mem _ h)

theorem mem_ofList {fields : List (String × α)} {field : String × α} (h : field ∈ ofList fields) :
    field ∈ fields :=
  (mem_insertAll h).resolve_left List.not_mem_nil

/-! ## 2. Order -/

theorem lt_of_not_lt {name other : String} (hlt : ¬ name < other) (hne : name ≠ other) :
    other < name := by
  apply String.not_le.mp
  intro hle
  exact hne (String.le_antisymm hle (String.not_lt.mp hlt))

theorem Sorted.insert {fields : List (String × α)} (h : Sorted fields) (name : String) (value : α) :
    Sorted (insert name value fields) := by
  induction fields with
  | nil => exact List.pairwise_singleton _ _
  | cons head rest ih =>
    obtain ⟨other, old⟩ := head
    obtain ⟨hhead, hrest⟩ := List.pairwise_cons.mp h
    rw [Fields.insert]
    split
    next hlt =>
      refine List.pairwise_cons.mpr ⟨?_, h⟩
      intro present hpresent
      rcases List.mem_cons.mp hpresent with rfl | hpresent
      · exact hlt
      · exact String.lt_trans hlt (hhead present hpresent)
    next hlt =>
      split
      next hsame =>
        subst hsame
        exact List.pairwise_cons.mpr ⟨hhead, hrest⟩
      next hne =>
        refine List.pairwise_cons.mpr ⟨?_, ih hrest⟩
        intro present hpresent
        obtain ⟨field, hfield, rfl⟩ := List.mem_map.mp hpresent
        rcases mem_insert hfield with rfl | hfield
        · exact lt_of_not_lt hlt hne
        · exact hhead field.1 (List.mem_map_of_mem hfield)

theorem Sorted.insertAll {fields : List (String × α)} (h : Sorted fields)
    (added : List (String × α)) : Sorted (insertAll fields added) := by
  induction added generalizing fields with
  | nil => exact h
  | cons head rest ih => exact ih (h.insert head.1 head.2)

theorem sorted_nil : Sorted ([] : List (String × α)) := List.Pairwise.nil

theorem sorted_ofList (fields : List (String × α)) : Sorted (ofList fields) :=
  sorted_nil.insertAll fields

theorem Sorted.nodup {fields : List (String × α)} (h : Sorted fields) :
    (fields.map Prod.fst).Nodup := by
  refine h.imp ?_
  rintro name other hlt rfl
  exact String.lt_irrefl name hlt

/-! ## 3. Lookup -/

theorem mem_of_find? {fields : List (String × α)} {name : String} {value : α}
    (h : find? fields name = some value) : (name, value) ∈ fields := by
  obtain ⟨before, after, rfl, -⟩ := List.lookup_eq_some_iff.mp h
  exact List.mem_append_right before List.mem_cons_self

theorem find?_eq_none_of_not_mem {fields : List (String × α)} {name : String}
    (h : name ∉ fields.map Prod.fst) : find? fields name = none := by
  rw [Option.eq_none_iff_forall_not_mem]
  intro found hfound
  exact h (List.mem_map.mpr ⟨_, mem_of_find? hfound, rfl⟩)

/-- Where names are distinct, what is found under a name is the field of that name. -/
theorem find?_eq_some_iff {fields : List (String × α)} (h : (fields.map Prod.fst).Nodup)
    {name : String} {value : α} : find? fields name = some value ↔ (name, value) ∈ fields := by
  refine ⟨mem_of_find?, fun hmem => ?_⟩
  induction fields with
  | nil => exact absurd hmem List.not_mem_nil
  | cons head rest ih =>
    obtain ⟨other, old⟩ := head
    obtain ⟨hother, hrest⟩ := List.nodup_cons.mp h
    rw [find?_cons]
    rcases List.mem_cons.mp hmem with heq | hin
    · obtain ⟨rfl, rfl⟩ := Prod.mk.inj heq
      rw [if_pos rfl]
    · rw [if_neg, ih hrest hin]
      rintro rfl
      exact hother (List.mem_map.mpr ⟨_, hin, rfl⟩)

/-! ## 4. Equality -/

/-- A sorted record is determined by what is found in it. -/
theorem Sorted.eq_of_find? {fields others : List (String × α)} (hfields : Sorted fields)
    (hothers : Sorted others) (h : ∀ name, find? fields name = find? others name) :
    fields = others := by
  have hmem : ∀ field, field ∈ fields ↔ field ∈ others := by
    rintro ⟨name, value⟩
    rw [← find?_eq_some_iff hfields.nodup, ← find?_eq_some_iff hothers.nodup, h]
  have hnodup : ∀ {record : List (String × α)}, Sorted record → record.Nodup := fun h =>
    List.Pairwise.of_map Prod.fst (fun _ _ hne heq => hne (congrArg Prod.fst heq)) h.nodup
  have hperm : fields.Perm others :=
    (List.perm_ext_iff_of_nodup (hnodup hfields) (hnodup hothers)).mpr hmem
  refine hperm.eq_of_pairwise ?_ (List.pairwise_map.mp hfields) (List.pairwise_map.mp hothers)
  intro field other _ _ hlt hgt
  exact absurd (String.lt_trans hlt hgt) (String.lt_irrefl field.1)

/-! ## 5. Records of distinct names -/

theorem find?_insertAll {fields added : List (String × α)} (h : (added.map Prod.fst).Nodup)
    (name : String) :
    find? (insertAll fields added) name = (find? added name).or (find? fields name) := by
  induction added generalizing fields with
  | nil => rfl
  | cons head rest ih =>
    obtain ⟨other, value⟩ := head
    obtain ⟨hother, hrest⟩ := List.nodup_cons.mp h
    have hinsert : insertAll fields ((other, value) :: rest) =
        insertAll (insert other value fields) rest := rfl
    rw [hinsert, ih hrest, find?_insert, find?_cons]
    by_cases hname : name = other
    · subst hname
      rw [if_pos rfl, if_pos rfl, find?_eq_none_of_not_mem hother]
      rfl
    · rw [if_neg hname, if_neg hname]

theorem find?_ofList {fields : List (String × α)} (h : (fields.map Prod.fst).Nodup)
    (name : String) : find? (ofList fields) name = find? fields name :=
  (find?_insertAll h name).trans Option.or_none

theorem mem_names_insert {name other : String} {value : α} {fields : List (String × α)} :
    other ∈ (insert name value fields).map Prod.fst ↔
      other = name ∨ other ∈ fields.map Prod.fst := by
  induction fields with
  | nil => simp [insert]
  | cons head rest ih =>
    rw [insert]
    split
    · simp
    · split
      next _ hsame => simp [hsame]
      next => rw [List.map_cons, List.mem_cons, ih, List.map_cons, List.mem_cons, or_left_comm]

theorem mem_names_insertAll {other : String} {fields added : List (String × α)} :
    other ∈ (insertAll fields added).map Prod.fst ↔
      other ∈ fields.map Prod.fst ∨ other ∈ added.map Prod.fst := by
  induction added generalizing fields with
  | nil => simp [insertAll]
  | cons head rest ih =>
    have hinsert : insertAll fields (head :: rest) =
        insertAll (insert head.1 head.2 fields) rest := rfl
    rw [hinsert, ih, mem_names_insert, List.map_cons, List.mem_cons, or_assoc, or_left_comm]

theorem mem_names_ofList {other : String} {fields : List (String × α)} :
    other ∈ (ofList fields).map Prod.fst ↔ other ∈ fields.map Prod.fst := by
  rw [ofList, mem_names_insertAll, List.map_nil, or_iff_right List.not_mem_nil]

/-- A record has as many fields as were put into it only if their names are distinct. -/
theorem length_ofList_eq_iff {fields : List (String × α)} :
    (ofList fields).length = fields.length ↔ (fields.map Prod.fst).Nodup := by
  have hnodup := (sorted_ofList fields).nodup
  have hfewer : ((ofList fields).map Prod.fst).Subperm (fields.map Prod.fst) :=
    List.subperm_of_subset hnodup fun _ => mem_names_ofList.mp
  constructor
  · intro h
    have hlength : (fields.map Prod.fst).length ≤ ((ofList fields).map Prod.fst).length := by
      rw [List.length_map, List.length_map]
      exact Nat.le_of_eq h.symm
    exact (hfewer.perm_of_length_le hlength).nodup_iff.mp hnodup
  · intro h
    have hmore : (fields.map Prod.fst).Subperm ((ofList fields).map Prod.fst) :=
      List.subperm_of_subset h fun _ => mem_names_ofList.mpr
    simpa only [List.length_map] using Nat.le_antisymm hfewer.length_le hmore.length_le

/-- Sorted fields are a record, in whatever order they are put into it. -/
theorem Sorted.ofList_perm {fields others : List (String × α)} (h : Sorted fields)
    (hperm : others.Perm fields) : ofList others = fields := by
  have hnodup : (others.map Prod.fst).Nodup := (hperm.map Prod.fst).nodup_iff.mpr h.nodup
  refine (sorted_ofList others).eq_of_find? h fun name => Option.ext fun value => ?_
  rw [find?_ofList hnodup, find?_eq_some_iff hnodup, find?_eq_some_iff h.nodup, hperm.mem_iff]

theorem Sorted.ofList_eq {fields : List (String × α)} (h : Sorted fields) :
    ofList fields = fields := h.ofList_perm (List.Perm.refl fields)

/-! ## 6. Changed values -/

section

variable (f : α → β)

theorem find?_map (fields : List (String × α)) (name : String) :
    find? (fields.map fun field => (field.1, f field.2)) name = (find? fields name).map f := by
  induction fields with
  | nil => rfl
  | cons head rest ih =>
    rw [List.map_cons, find?_cons, find?_cons, ih]
    split <;> rfl

theorem insert_map (name : String) (value : α) (fields : List (String × α)) :
    insert name (f value) (fields.map fun field => (field.1, f field.2)) =
      (insert name value fields).map fun field => (field.1, f field.2) := by
  induction fields with
  | nil => rfl
  | cons head rest ih =>
    rw [List.map_cons, insert, insert]
    split
    · rfl
    · split
      · rfl
      · rw [ih, List.map_cons]

theorem ofList_map (fields : List (String × α)) :
    ofList (fields.map fun field => (field.1, f field.2)) =
      (ofList fields).map fun field => (field.1, f field.2) := by
  have hadd : ∀ record : List (String × α),
      insertAll (record.map fun field => (field.1, f field.2))
          (fields.map fun field => (field.1, f field.2)) =
        (insertAll record fields).map fun field => (field.1, f field.2) := by
    induction fields with
    | nil => exact fun _ => rfl
    | cons head rest ih =>
      intro record
      have hstep := ih (insert head.1 head.2 record)
      rw [← insert_map] at hstep
      exact hstep
  exact hadd []

end

/-! ## 7. Two records -/

section

variable {related : α → β → Prop} {fields : List (String × α)} {others : List (String × β)}

/-- The fields of two records have the same names in the same order, and their values are related. -/
def Alike (related : α → β → Prop) : List (String × α) → List (String × β) → Prop :=
  List.Forall₂ fun field other => field.1 = other.1 ∧ related field.2 other.2

theorem alike_cons {field : String × α} {other : String × β} :
    Alike related (field :: fields) (other :: others) ↔
      (field.1 = other.1 ∧ related field.2 other.2) ∧ Alike related fields others :=
  List.forall₂_cons

/-- Under each name, alike records have related values or none. -/
theorem Alike.find? (h : Alike related fields others) (name : String) :
    Option.Rel related (Fields.find? fields name) (Fields.find? others name) := by
  induction h with
  | nil => exact .none
  | @cons field other _ _ hfield _ ih =>
    obtain ⟨hname, hvalue⟩ := hfield
    rw [find?_cons, find?_cons, hname]
    split
    · exact .some hvalue
    · exact ih

/-- Sorted records of the same names have them in the same order. -/
theorem Sorted.names_eq (hfields : Sorted fields) (hothers : Sorted others)
    (hlength : fields.length = others.length)
    (hnames : ∀ name ∈ fields.map Prod.fst, name ∈ others.map Prod.fst) :
    fields.map Prod.fst = others.map Prod.fst := by
  have hsubperm := List.subperm_of_subset hfields.nodup hnames
  have hperm : (fields.map Prod.fst).Perm (others.map Prod.fst) :=
    hsubperm.perm_of_length_le (by simpa only [List.length_map] using Nat.le_of_eq hlength.symm)
  refine hperm.eq_of_pairwise ?_ hfields hothers
  intro name other _ _ hlt hgt
  exact absurd (String.lt_trans hlt hgt) (String.lt_irrefl name)

/-- Sorted records are alike if they have the same size and the value under each name of the one is
related to a value under this name of the other. -/
theorem Sorted.alike_iff (hfields : Sorted fields) (hothers : Sorted others) :
    Alike related fields others ↔
      fields.length = others.length ∧
        ∀ field ∈ fields, ∃ value, Fields.find? others field.1 = some value ∧
          related field.2 value := by
  constructor
  · intro h
    refine ⟨List.Forall₂.length_eq h, fun field hfield => ?_⟩
    have hrel := h.find? field.1
    rw [(find?_eq_some_iff hfields.nodup).mpr hfield] at hrel
    generalize Fields.find? others field.1 = found at hrel ⊢
    cases hrel with
    | some hvalue => exact ⟨_, rfl, hvalue⟩
  · rintro ⟨hlength, hfound⟩
    have hnames : fields.map Prod.fst = others.map Prod.fst := by
      refine hfields.names_eq hothers hlength fun name hname => ?_
      obtain ⟨field, hfield, rfl⟩ := List.mem_map.mp hname
      obtain ⟨value, hvalue, -⟩ := hfound field hfield
      exact List.mem_map.mpr ⟨_, mem_of_find? hvalue, rfl⟩
    refine List.forall₂_iff_get.mpr ⟨hlength, fun i hi hi' => ?_⟩
    have hname : (fields.get ⟨i, hi⟩).1 = (others.get ⟨i, hi'⟩).1 := by
      have hsame := congrArg (·[i]?) hnames
      simpa [hi, hi'] using hsame
    obtain ⟨value, hvalue, hrelated⟩ := hfound _ (List.get_mem fields ⟨i, hi⟩)
    rw [hname, (find?_eq_some_iff hothers.nodup).mpr (List.get_mem others ⟨i, hi'⟩)] at hvalue
    rw [Option.some.inj hvalue]
    exact ⟨hname, hrelated⟩

end

end Templating.Fields
