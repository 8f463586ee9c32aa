/-!
# Paths

A path is a text whose parts are separated by slashes. Empty parts and single dots mean nothing,
except for a dot that the path begins with.

* `Path.parent?` is the path of the directory that a path lies in, empty for the working directory.
* `Path.join` is the path of a name within a directory.
* `Path.hasExtension` looks at the end of a path's last name.
-/

namespace Templating.Path

/-- The parts of a path between its slashes. -/
def parts (path : String) : List String := (path.toList.splitOn '/').map String.ofList

/-- The parts of a path, the last one first. -/
def partsBack (path : String) : List String := (parts path).reverse

/-- Drops the last parts that mean nothing. The part that the path begins with is kept. -/
def dropTrivial : List String → List String
  | [] => []
  | [first] => [first]
  | part :: rest => if part = "" ∨ part = "." then dropTrivial rest else part :: rest

/-- The path of the given parts, the last one first. The root is a single empty part. -/
def ofPartsBack (parts : List String) : String :=
  if parts = [""] then "/" else "/".intercalate parts.reverse

/-- The root and the empty path have no parent. -/
def parent? (path : String) : Option String :=
  match dropTrivial (partsBack path) with
  | [] | [""] => none
  | _ :: rest => some (ofPartsBack (dropTrivial rest))

/-- The name that a path ends with. A dot and two dots are no names. -/
def fileName? (path : String) : Option String :=
  match dropTrivial (partsBack path) with
  | [] => none
  | part :: _ => if part = "" ∨ part = "." ∨ part = ".." then none else some part

/-- Whether the last dot of a path's name stands before the given extension. A dot that the name
begins with is part of the name. -/
def hasExtension (path extension : String) : Bool :=
  match fileName? path with
  | none => false
  | some name =>
    let back := name.toList.reverse
    let last := back.takeWhile (· != '.')
    last.reverse == extension.toList && last.length + 1 < back.length

def join (directory name : String) : String :=
  if directory = "" then name
  else if directory.endsWith "/" then directory ++ name
  else directory ++ "/" ++ name

end Templating.Path
