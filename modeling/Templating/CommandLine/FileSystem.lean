import Templating.Fields
import Templating.Loading
import Templating.Path

/-!
# Files

A command reads and writes files through a `FileSystem`, which has standard output beside the files.
`Directory` is one in memory: a working directory with everything below it. What lies outside of it
are directories without files, where nothing that is written is kept, and devices. Nothing can be
read from a device. Standard output leads to one of the devices.
-/

namespace Templating

/-- Access to files by their paths. -/
structure FileSystem (m : Type → Type) where
  read : String → m (Except FileError String)
  /-- Replaces the content of a file, or makes a new one. -/
  write : String → String → m (Except FileError Unit)
  /-- Whether a path leads to a file and not to a directory. -/
  isFile : String → m Bool
  workingDirectory : m (Option String)
  /-- Writes a text to standard output. -/
  print : String → m (Except FileError Unit)

/-- What becomes of a text that is written to a device. -/
inductive Device where
  /-- It is dropped. -/
  | null
  /-- There is no space for it. -/
  | full
  | output
  | errors
  deriving DecidableEq, Repr

/-- What a name in a directory stands for. -/
inductive Entry where
  | file (content : ByteArray)
  | directory

/-- The entries by their paths, which are lists of names from the working directory on. The
directories on the way to an entry need no entries of their own. -/
structure Directory where
  /-- The path of the working directory itself. -/
  path : String
  entries : List (List String × Entry)
  /-- What has been written to the device of standard output. -/
  output : String := ""
  /-- What has been written to the device of standard error. -/
  errors : String := ""
  /-- The device that standard output leads to. -/
  console : Device := .output

/-- The device of a name. Standard input is empty and takes any text. -/
def Device.ofName? : String → Option Device
  | "null" | "zero" | "random" | "urandom" | "stdin" => some .null
  | "full" => some .full
  | "stdout" => some .output
  | "stderr" => some .errors
  | _ => none

/-- Where a path leads. -/
inductive Location where
  | inside (names : List String)
  /-- A directory that the working directory lies in, or another one outside of it. -/
  | outside
  | root
  /-- The directory of the devices. -/
  | devices
  | device (device : Device)
  /-- A name outside of the working directory that stands for nothing. -/
  | absent
  deriving DecidableEq, Repr

/-- The names of directories that lie in the root of every machine. -/
def rootNames : List String :=
  ["bin", "boot", "etc", "home", "lib", "media", "mnt", "opt", "proc", "root", "run", "sbin",
    "srv", "sys", "tmp", "usr", "var"]

/-- The names of directories that lie in the directory of the devices. -/
def deviceDirectoryNames : List String := ["fd", "mqueue", "pts", "shm"]

/-- The directory that a location lies in. -/
def Location.parent : Location → Location
  | .inside [] => .outside
  | .inside names => .inside names.dropLast
  | .outside | .absent => .outside
  | .root | .devices => .root
  | .device _ => .devices

/-- The location of a name in a directory. -/
def Location.child (location : Location) (name : String) : Location :=
  match location with
  | .inside names => .inside (names ++ [name])
  | .root =>
    if name = "dev" then .devices
    else if rootNames.contains name then .outside
    else .absent
  | .devices =>
    match Device.ofName? name with
    | some found => .device found
    | none => if deviceDirectoryNames.contains name then .outside else .absent
  | .outside | .device _ | .absent => .absent

/-- The number of bytes that no path may reach. -/
def pathLimit : Nat := 4096

/-- The most bytes that a name may have. -/
def nameLimit : Nat := 255

namespace Directory

def entry? (directory : Directory) (names : List String) : Option Entry :=
  match directory.entries.lookup names with
  | some entry => some entry
  | none =>
    if names = [] ∨ directory.entries.any (fun entry => names.isPrefixOf entry.1) then
      some .directory
    else none

/-- Fails unless a location is a directory. -/
def requireDirectory (directory : Directory) (location : Location) : Except FileError Unit :=
  match location with
  | .outside | .root | .devices => .ok ()
  | .device _ => .error .notDirectory
  | .absent => .error .notFound
  | .inside names =>
    match directory.entry? names with
    | none => .error .notFound
    | some (.file _) => .error .notDirectory
    | some .directory => .ok ()

/-- Follows one part of a path. Only a directory can be left in any direction. -/
def follow (directory : Directory) (location : Location) (part : String) :
    Except FileError Location := do
  directory.requireDirectory location
  if part = "" ∨ part = "." then .ok location
  else if part = ".." then .ok location.parent
  else if nameLimit < part.utf8ByteSize then .error .nameTooLong
  else .ok (location.child part)

/-- The parts of a path with the location from which they are followed. -/
def start (directory : Directory) (path : String) : Except FileError (Location × List String) :=
  let parts := Path.parts path
  let own := Path.parts directory.path
  if path.contains '\x00' then .error .nulInName
  else if pathLimit ≤ path.utf8ByteSize then .error .nameTooLong
  else if path = "" then .error .notFound
  else if own.isPrefixOf parts then .ok (.inside [], parts.drop own.length)
  else if path.startsWith "/" then .ok (.root, parts)
  else .ok (.inside [], parts)

/-- Follows a path to the end. The last part need not exist. -/
def locate (directory : Directory) (path : String) : Except FileError Location := do
  let (location, parts) ← directory.start path
  parts.foldlM directory.follow location

/-- The content of what a location stands for. -/
def contentAt (directory : Directory) (location : Location) : Except FileError ByteArray :=
  match location with
  | .device _ => .ok ByteArray.empty
  | .outside | .root | .devices => .error .isDirectory
  | .absent => .error .notFound
  | .inside names =>
    match directory.entry? names with
    | none => .error .notFound
    | some .directory => .error .isDirectory
    | some (.file content) => .ok content

def read (directory : Directory) (path : String) : Except FileError String := do
  match String.fromUTF8? (← directory.contentAt (← directory.locate path)) with
  | some text => .ok text
  | none => .error .notText

def isFile (directory : Directory) (path : String) : Bool :=
  match directory.locate path with
  | .ok (.inside names) => (directory.contentAt (.inside names)).toBool
  | _ => false

/-- Puts a file in the place of what has its name. -/
def put (directory : Directory) (names : List String) (content : ByteArray) : Directory :=
  let others := directory.entries.filter (·.1 != names)
  { directory with entries := (names, .file content) :: others }

/-- Writes a text to a device. An empty text always fits. -/
def writeTo (directory : Directory) (device : Device) (text : String) :
    Except FileError Directory :=
  match device with
  | .null => .ok directory
  | .full => if text = "" then .ok directory else .error .noSpace
  | .output => .ok { directory with output := directory.output ++ text }
  | .errors => .ok { directory with errors := directory.errors ++ text }

/-- Replaces the content of a file at a location, or makes a new one. -/
def writeAt (directory : Directory) (location : Location) (text : String) :
    Except FileError Directory :=
  match location with
  | .absent => .ok directory
  | .device device => directory.writeTo device text
  | .outside | .root | .devices => .error .isDirectory
  | .inside names =>
    match directory.entry? names with
    | some .directory => .error .isDirectory
    | _ => .ok (directory.put names text.toUTF8)

/-- A path that ends with a slash never leads to a file that could be written, whatever its last
name is. -/
def write (directory : Directory) (path text : String) : Except FileError Directory := do
  let (location, parts) ← directory.start path
  let trimmed := (parts.reverse.dropWhile (· == "")).reverse
  let parent ← trimmed.dropLast.foldlM directory.follow location
  if trimmed.length < parts.length then
    directory.requireDirectory parent
    .error .isDirectory
  else directory.writeAt (← trimmed.getLast?.toList.foldlM directory.follow parent) text

/-- The files that are not the same in an earlier state, with their texts. -/
def changesSince (before after : Directory) : List (String × String) :=
  after.entries.filterMap fun (names, entry) =>
    match entry, before.entry? names with
    | .directory, _ => none
    | .file content, some (.file earlier) =>
      if content.data = earlier.data then none else textAt names content
    | .file content, _ => textAt names content
where
  textAt (names : List String) (content : ByteArray) : Option (String × String) :=
    (String.fromUTF8? content).map fun text => ("/".intercalate names, text)

/-- Keeps what a write leaves behind, if it has succeeded. -/
def keep : Except FileError Directory → StateM Directory (Except FileError Unit)
  | .ok after => do
    set after
    return .ok ()
  | .error error => return .error error

/-- A directory in memory as a file system. -/
def fileSystem : FileSystem (StateM Directory) where
  read path := return (← get).read path
  write path text := do keep ((← get).write path text)
  isFile path := return (← get).isFile path
  workingDirectory := return some (← get).path
  print text := do
    let directory ← get
    keep (directory.writeTo directory.console text)

end Directory

end Templating
