import Templating.Toml.Basic

/-!
# Building TOML documents

The statements of a document build its tables step by step. A table remembers how it came about,
because that decides what may still be added to it: tables that a header or braces define are
complete, tables that only stand on the way to something else are not.

* `insertKey` adds a value under a dotted key.
* `Draft` is a document under construction: the root and the table that the last header opened.
* `Item.toToml` gives the value of a finished item.
-/

namespace Templating.Toml

/-- Why a text is not a TOML document. -/
inductive Error where
  /-- The text breaks the grammar, or a number does not fit. -/
  | malformed
  /-- A name is defined twice, or something is added to what is already complete. -/
  | conflict
  /-- A value has not the type that is wanted. -/
  | wrongType
  deriving DecidableEq, Repr

/-- The first line of the message is the same for all errors. -/
def Error.message (_ : Error) : String := "TOML parse error"

/-- How a table came about. -/
inductive Origin where
  /-- By a header of its own. -/
  | header
  /-- On the way to the table of a header. -/
  | headerPath
  /-- On the way to the value of a dotted key. -/
  | keyPath
  /-- By braces. -/
  | braces
  /-- On the way to the value of a dotted key between braces. -/
  | keyPathInBraces
  deriving DecidableEq, Repr

/-- Whether a table has no definition of its own yet. -/
def Origin.isImplicit : Origin → Bool
  | .headerPath | .keyPath | .keyPathInBraces => true
  | .header | .braces => false

/-- Whether a table takes the values of dotted keys. -/
def Origin.isDotted : Origin → Bool
  | .keyPath | .keyPathInBraces => true
  | .header | .headerPath | .braces => false

/-- Whether a table stands between braces, where headers do not reach. -/
def Origin.isInline : Origin → Bool
  | .braces | .keyPathInBraces => true
  | .header | .headerPath | .keyPath => false

/-- A part of a document. The entries of tables stand in the order of their definition. -/
inductive Item where
  | scalar (value : Toml)
  | array (items : List Item)
  /-- The tables that headers in double brackets have added to an array. -/
  | tables (elements : List (List (String × Item)))
  | table (origin : Origin) (entries : List (String × Item))
  deriving Inhabited

abbrev Entries := List (String × Item)

namespace Entries

/-- Replaces the item of a name. -/
def replace (name : String) (item : Item) : Entries → Entries
  | [] => []
  | (other, old) :: rest =>
    if other = name then (name, item) :: rest else (other, old) :: replace name item rest

/-- Removes the item of a name. -/
def remove (name : String) : Entries → Entries
  | [] => []
  | (other, old) :: rest => if other = name then rest else (other, old) :: remove name rest

end Entries

/-- Adds an item under a dotted key, given as the path to a table and the name in it. Tables that
are missing on the way come about as `created`; `here` is the origin of the table the path starts
from, which is missing for the table that holds the whole key. -/
def insertKey (created : Origin) (name : String) (item : Item) :
    List String → Option Origin → Entries → Except Error Entries
  | [], here, entries =>
    if here.all Origin.isDotted && (entries.lookup name).isNone then
      .ok (entries ++ [(name, item)])
    else .error .conflict
  | step :: path, _, entries =>
    match entries.lookup step with
    | none => do
      let inner ← insertKey created name item path (some created) []
      .ok (entries ++ [(step, .table created inner)])
    | some (.table origin inner) =>
      if origin.isImplicit then do
        let inner ← insertKey created name item path (some origin) inner
        .ok (Entries.replace step (.table origin inner) entries)
      else .error .conflict
    | some (.tables elements) =>
      match elements.getLast? with
      | some last => do
        let last ← insertKey created name item path (some .header) last
        .ok (Entries.replace step (.tables (elements.dropLast ++ [last])) entries)
      | none => .error .conflict
    | some _ => .error .conflict

/-- Changes the entries at the end of a header's path and gives a result. Tables that are missing on
the way come about; an array of tables leads to its last one. -/
def atPath {α : Type} (change : Entries → Except Error (Entries × α)) :
    List String → Entries → Except Error (Entries × α)
  | [], entries => change entries
  | step :: path, entries =>
    match entries.lookup step with
    | none => do
      let (inner, result) ← atPath change path []
      .ok (entries ++ [(step, .table .headerPath inner)], result)
    | some (.table origin inner) =>
      if origin.isInline then .error .conflict
      else do
        let (inner, result) ← atPath change path inner
        .ok (Entries.replace step (.table origin inner) entries, result)
    | some (.tables elements) =>
      match elements.getLast? with
      | some last => do
        let (last, result) ← atPath change path last
        .ok (Entries.replace step (.tables (elements.dropLast ++ [last])) entries, result)
      | none => .error .conflict
    | some _ => .error .conflict

/-- What the last header has opened. -/
inductive Section where
  | root
  | table (path : List String) (name : String)
  | element (path : List String) (name : String)
  deriving DecidableEq, Repr

/-- A document under construction: its root without the open section, and that section. -/
structure Draft where
  root : Entries
  opened : Section
  entries : Entries

namespace Draft

def empty : Draft := ⟨[], .root, []⟩

/-- Adds a value under a dotted key to the open section. -/
def addValue (draft : Draft) (path : List String) (name : String) (item : Item) :
    Except Error Draft := do
  .ok { draft with entries := ← insertKey .keyPath name item path none draft.entries }

/-- Closes the open section and puts it into the root. -/
def close (draft : Draft) : Except Error Entries :=
  match draft.opened with
  | .root => .ok draft.entries
  | .table path name => do
    let (root, _) ← atPath (fun parent =>
      .ok (parent ++ [(name, .table .header draft.entries)], ())) path draft.root
    .ok root
  | .element path name => do
    let (root, _) ← atPath (fun parent =>
      match parent.lookup name with
      | some (.tables elements) =>
        .ok (Entries.replace name (.tables (elements ++ [draft.entries])) parent, ())
      | _ => .error .conflict) path draft.root
    .ok root

/-- Opens the table of a header. What stood on the way to other headers before becomes its first
content; every other definition of the name is a conflict. -/
def openTable (draft : Draft) (path : List String) (name : String) : Except Error Draft := do
  let root ← draft.close
  let (root, entries) ← atPath (fun parent =>
    match parent.lookup name with
    | none => .ok (parent, [])
    | some (.table .headerPath inner) => .ok (Entries.remove name parent, inner)
    | some _ => .error .conflict) path root
  .ok ⟨root, .table path name, entries⟩

/-- Opens a new table at the end of the array that a header in double brackets names. -/
def openElement (draft : Draft) (path : List String) (name : String) : Except Error Draft := do
  let root ← draft.close
  let (root, _) ← atPath (fun parent =>
    match parent.lookup name with
    | none => .ok (parent ++ [(name, .tables [])], ())
    | some (.tables _) => .ok (parent, ())
    | some _ => .error .conflict) path root
  .ok ⟨root, .element path name, []⟩

end Draft

namespace Item

/-- The date-time that an item spells. -/
def toDateTime : Item → Except Error Toml
  | scalar (.string text) =>
    match DateTime.parse? text with
    | some d => .ok (.dateTime d)
    | none => .error .wrongType
  | _ => .error .wrongType

mutual

/-- The value of a finished item. -/
def toToml : Item → Except Error Toml
  | scalar value => .ok value
  | array items => do .ok (.array (← itemValues items))
  | tables elements => do .ok (.array (← elementValues elements))
  | table _ entries => tableValue entries

/-- The value of a table. If its first entry has the reserved name of date-times, the table is the
date-time that this entry spells, and the other entries do not matter. -/
def tableValue : List (String × Item) → Except Error Toml
  | [] => .ok (.table [])
  | (name, item) :: rest =>
    if name = dateTimeName then item.toDateTime
    else do
      let value ← item.toToml
      .ok (.table (Fields.ofList ((name, value) :: (← entryValues rest))))

def itemValues : List Item → Except Error (List Toml)
  | [] => .ok []
  | item :: rest => do
    let value ← item.toToml
    .ok (value :: (← itemValues rest))

def elementValues : List (List (String × Item)) → Except Error (List Toml)
  | [] => .ok []
  | entries :: rest => do
    let value ← tableValue entries
    .ok (value :: (← elementValues rest))

def entryValues : List (String × Item) → Except Error (List (String × Toml))
  | [] => .ok []
  | (name, item) :: rest => do
    let value ← item.toToml
    .ok ((name, value) :: (← entryValues rest))

end

end Item

end Templating.Toml
