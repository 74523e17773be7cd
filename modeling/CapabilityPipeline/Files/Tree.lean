import CapabilityPipeline.Files.Path
import CapabilityPipeline.Text.Symbol

/-!
# File trees

A file tree holds files and directories by their place: the names on the way down from the top.
Operations follow paths, from the top or from the directory where relative paths start, and fail
the way a system does that knows directories and regular files and nothing else.

Results:

* `FileTree.entry?`: the entry at a place, the view of all operations.
* `FileTree.read`, `write`, `copy`, `rename`, `createDirectories`, `remove`: the
  operations.
-/

namespace CapabilityPipeline

open Text (Symbol)

/-- Why a file operation fails. -/
inductive FileError where
  | notFound
  | alreadyExists
  | notADirectory
  | isADirectory
  | permissionDenied
  | nameTooLong
  /-- A path holds the character that ends one. -/
  | nulInPath
  /-- Only regular files can be copied. -/
  | notAFile
  deriving DecidableEq, Repr

/-- The reason of a failed file operation in words. -/
def FileError.reason : FileError → String
  | notFound => "No such file or directory"
  | alreadyExists => "File exists"
  | notADirectory => "Not a directory"
  | isADirectory => "Is a directory"
  | permissionDenied => "Permission denied"
  | nameTooLong => "File name too long"
  | nulInPath => "file name contained an unexpected NUL byte"
  | notAFile => "the source path is neither a regular file nor a symlink to a regular file"

/-- The number by which systems know a reason. -/
def FileError.number? : FileError → Option Nat
  | notFound => some 2
  | alreadyExists => some 17
  | notADirectory => some 20
  | isADirectory => some 21
  | permissionDenied => some 13
  | nameTooLong => some 36
  | nulInPath | notAFile => none

/-- The wording of a failed file operation. -/
def FileError.message (e : FileError) : String :=
  match e.number? with
  | some number => s!"{e.reason} (os error {number})"
  | none => e.reason

/-- A file with its content, or a directory. -/
inductive Entry where
  | file (content : List Symbol)
  | directory
  deriving DecidableEq

/-- The names on the way down to an entry. -/
abbrev Place := List String

/-- Entries by place, and the place where relative paths start. The top is always a
directory. -/
structure FileTree where
  start : Place
  entries : List (Place × Entry)

namespace FileTree

/-- Nothing but the place where relative paths start, and the directories above it. -/
def empty (start : Place) : FileTree :=
  ⟨start, (List.range start.length).map fun n => (start.take (n + 1), .directory)⟩

/-- The entry at a place. -/
def entry? (t : FileTree) (place : Place) : Option Entry :=
  if place.isEmpty then some .directory else t.entries.lookup place

/-- The tree with an entry at a place. -/
def set (t : FileTree) (place : Place) (entry : Entry) : FileTree :=
  { t with entries := (place, entry) :: t.entries.filter fun e => e.1 ≠ place }

/-- The tree without the entry at a place and all below it. -/
def erase (t : FileTree) (place : Place) : FileTree :=
  { t with entries := t.entries.filter fun e => !place.isPrefixOf e.1 }

/-! ## Following paths -/

/-- How many bytes a path may have. -/
def maxPathBytes : Nat := 4095

/-- How many bytes a name may have. -/
def maxNameBytes : Nat := 255

/-- The place that names lead to from a place. All but the last must be directories; the last
need not exist. -/
def walk (t : FileTree) : Place → List String → Except FileError Place
  | place, [] => .ok place
  | place, name :: rest =>
    match t.entry? place with
    | none => .error .notFound
    | some (.file _) => .error .notADirectory
    | some .directory =>
      if name = "" || name = "." then walk t place rest
      else if name = ".." then walk t place.dropLast rest
      else if maxNameBytes < name.utf8ByteSize then .error .nameTooLong
      else walk t (place ++ [name]) rest

/-- The place that a path leads to. The path without any name leads nowhere. -/
def locate (t : FileTree) (path : String) : Except FileError Place :=
  if path.toList.contains '\x00' then .error .nulInPath
  else if maxPathBytes < path.utf8ByteSize then .error .nameTooLong
  else if path = "" then .error .notFound
  else t.walk (if Path.isAbsolute path then [] else t.start) (Path.components path)

/-- The entry that a path leads to. -/
def find (t : FileTree) (path : String) : Except FileError Entry := do
  let place ← t.locate path
  match t.entry? place with
  | some entry => return entry
  | none => throw .notFound

/-! ## Operations -/

/-- Something is at the path. -/
def pathExists (t : FileTree) (path : String) : Bool :=
  (t.find path).toOption.isSome

/-- A directory is at the path. -/
def isDirectory (t : FileTree) (path : String) : Bool :=
  (t.find path).toOption = some .directory

/-- The content of a file. -/
def read (t : FileTree) (path : String) : Except FileError (List Symbol) := do
  match ← t.find path with
  | .file content => return content
  | .directory => throw .isADirectory

/-- The tree with a file written. Its directory must exist. A path with a slash after its last
name can only be that of a directory. -/
def write (t : FileTree) (path : String) (content : List Symbol) :
    Except FileError FileTree := do
  let place ← t.locate (Path.withoutLastSlashes path)
  if Path.endsAfterName path then throw .isADirectory
  match t.entry? place with
  | some .directory => throw .isADirectory
  | some (.file _) => return t.set place (.file content)
  | none =>
    match t.entry? place.dropLast with
    | some .directory => return t.set place (.file content)
    | some (.file _) => throw .notADirectory
    | none => throw .notFound

/-- The tree with a copy of a file. -/
def copy (t : FileTree) (source target : String) : Except FileError FileTree := do
  match ← t.find source with
  | .file content => t.write target content
  | .directory => throw .notAFile

/-- The tree with a file moved to another path, over a file that is there. -/
def rename (t : FileTree) (source target : String) : Except FileError FileTree := do
  let place ← t.locate source
  let content ← t.read source
  if place = (← t.locate target) then return t
  let moved ← t.write target content
  return moved.erase place

/-- The tree with one more directory. -/
def createDirectory (t : FileTree) (path : String) : Except FileError FileTree := do
  let place ← t.locate (Path.withoutLastSlashes path)
  match t.entry? place with
  | some _ => throw .alreadyExists
  | none =>
    match t.entry? place.dropLast with
    | some .directory => return t.set place .directory
    | some (.file _) => throw .notADirectory
    | none => throw .notFound

/-- The tree with a directory and those above it, as far as they are missing. The number
bounds how many are looked at. -/
def createDirectoriesWithin (t : FileTree) : Nat → String → Except FileError FileTree
  | 0, _ => .error .notFound
  | bound + 1, path =>
    if path = "" then .ok t
    else match t.createDirectory path with
      | .ok made => .ok made
      | .error .notFound =>
        match Path.parent? path with
        | none => .error .notFound
        | some parent => do
          let above ← createDirectoriesWithin t bound parent
          match above.createDirectory path with
          | .ok made => return made
          | .error .alreadyExists =>
            if above.isDirectory path then return above else throw .alreadyExists
          | .error e => throw e
      | .error .alreadyExists => if t.isDirectory path then .ok t else .error .alreadyExists
      | .error e => .error e

/-- The tree with a directory and those above it, as far as they are missing. -/
def createDirectories (t : FileTree) (path : String) : Except FileError FileTree :=
  t.createDirectoriesWithin (path.toList.length + 1) path

/-- The tree without what is at a path, if anything is. -/
def remove (t : FileTree) (path : String) : Option FileTree :=
  match t.locate path with
  | .ok place => (t.entry? place).map fun _ => t.erase place
  | .error _ => none

/-- The entries below a path, by the names that lead from it to them. -/
def below (t : FileTree) (path : String) : List (Place × Entry) :=
  match t.locate path with
  | .ok place => t.entries.filterMap fun e =>
    if place.isPrefixOf e.1 ∧ place.length < e.1.length then some (e.1.drop place.length, e.2)
    else none
  | .error _ => []

end FileTree

end CapabilityPipeline
