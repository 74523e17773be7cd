/-!
# Paths

A path is a text of names between slashes. Slashes that are repeated or come last add nothing,
and neither does a dot between slashes; two dots lead to the directory above.

Results:

* `Path.join`: a path inside another.
* `Path.fileName?`, `Path.parent?`: the last name of a path and what is before it.
* `Path.withFileName`, `Path.withSuffix`: a path with another last name.
-/

namespace CapabilityPipeline

namespace Path

/-- The pieces of a path between slashes. -/
def split : List Char → List (List Char)
  | [] => [[]]
  | c :: rest =>
    if c = '/' then [] :: split rest
    else match split rest with
      | [] => [[c]]
      | piece :: others => (c :: piece) :: others

/-- The pieces of a path between slashes. -/
def components (path : String) : List String :=
  (split path.toList).map String.ofList

/-- The path without the slashes at its end, except for the path that is one slash. -/
def withoutLastSlashes (path : String) : String :=
  match path.toList.reverse.dropWhile (· = '/') with
  | [] => if path = "" then "" else "/"
  | reversed => String.ofList reversed.reverse

/-- The path ends with a slash after a name that is neither one dot nor two. -/
def endsAfterName (path : String) : Bool :=
  let last := (components (withoutLastSlashes path)).getLast?.getD ""
  path.toList.getLast? = some '/' && last ≠ "" && last ≠ "." && last ≠ ".."

/-- The path starts at the root. -/
def isAbsolute (path : String) : Bool :=
  path.toList.head? = some '/'

/-- A path inside another. An absolute path stands for itself. -/
def join (base path : String) : String :=
  if isAbsolute path then path
  else match base.toList.getLast? with
    | none => path
    | some '/' => base ++ path
    | some _ => base ++ "/" ++ path

/-- A reversed path without the slashes and lone dots at its end. A path that is one slash or
one dot keeps it. -/
def trimReversed : List Char → List Char
  | ['/'] => ['/']
  | '/' :: rest => trimReversed rest
  | ['.', '/'] => ['/']
  | '.' :: '/' :: rest => trimReversed ('/' :: rest)
  | cs => cs
termination_by cs => cs.length

/-- The last piece of a path and what is before it, up to the slash. -/
def splitLast (path : String) : List Char × List Char :=
  let reversed := trimReversed path.toList.reverse
  ((reversed.takeWhile (· ≠ '/')).reverse, reversed.dropWhile (· ≠ '/'))

/-- The last name of a path. There is none at the root and after a step upwards. -/
def fileName? (path : String) : Option String :=
  let name := String.ofList (splitLast path).1
  if name = "" || name = "." || name = ".." then none else some name

/-- The path without its last piece. There is none above the root and above nothing. -/
def parent? (path : String) : Option String :=
  let (last, before) := splitLast path
  if last.isEmpty then none
  else some (String.ofList (trimReversed before).reverse)

/-- The path with another last name, or one more if it has none. -/
def withFileName (path name : String) : String :=
  match fileName? path, parent? path with
  | some _, some parent => join parent name
  | _, _ => join path name

/-- The path with a suffix after its last name. -/
def withSuffix (path suffix : String) : String :=
  withFileName path ((fileName? path).getD "" ++ "." ++ suffix)

end Path

end CapabilityPipeline
