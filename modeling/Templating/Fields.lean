/-!
# Fields sorted by name

Records are lists of named fields in the order of their names, each name once. The order of strings
is that of their code points.

`insert` keeps the order, `ofList` builds a record in which the last of several fields of one name
counts. `find?_insert` says what an insertion changes.
-/

namespace Templating.Fields

variable {α β : Type}

/-- Adds a field, or replaces the one of the same name. -/
def insert (name : String) (value : α) : List (String × α) → List (String × α)
  | [] => [(name, value)]
  | (other, old) :: rest =>
    if name < other then (name, value) :: (other, old) :: rest
    else if name = other then (name, value) :: rest
    else (other, old) :: insert name value rest

/-- Adds the fields of a list from left to right. -/
def insertAll (fields added : List (String × α)) : List (String × α) :=
  added.foldl (fun record field => insert field.1 field.2 record) fields

def ofList (fields : List (String × α)) : List (String × α) := insertAll [] fields

def find? (fields : List (String × α)) (name : String) : Option α := fields.lookup name

theorem find?_cons (name other : String) (value : α) (rest : List (String × α)) :
    find? ((name, value) :: rest) other = if other = name then some value else find? rest other := by
  unfold find?
  by_cases h : other = name
  · subst h
    rw [List.lookup_cons_self, if_pos rfl]
  · rw [List.lookup_cons, if_neg h, beq_false_of_ne h]

theorem find?_insert (name other : String) (value : α) (fields : List (String × α)) :
    find? (insert name value fields) other =
      if other = name then some value else find? fields other := by
  induction fields with
  | nil => rw [insert, find?_cons]
  | cons field rest ih =>
    obtain ⟨present, old⟩ := field
    rw [insert]
    split
    · rw [find?_cons]
    · split
      · next same =>
        subst same
        rw [find?_cons, find?_cons]
        split <;> rfl
      · next different =>
        rw [find?_cons, find?_cons, ih]
        by_cases h : other = present
        · subst h
          rw [if_pos rfl, if_neg (Ne.symm different), if_pos rfl]
        · rw [if_neg h, if_neg h]

end Templating.Fields
