import CapabilityPipeline.Files.Tree
import CapabilityPipeline.Json.Printer
import CapabilityPipeline.Registry.Snapshot

/-!
# Registry files

A registry directory holds three files: the nodes, who owns their actions, and who holds their
guides. They are written together: first each file that is there is copied to its backup, then
the new contents are written to temporary files, and only then do these take the places of the
old files.

Results:

* `Store.loadNodes`, `loadProvenance`, `loadGuides`, `loadSnapshot`: what the files hold. A
  missing file holds nothing.
* `Store.save`: the three files written.
-/

namespace CapabilityPipeline

open Json (Tree Value)
open Text (Symbol)

/-- Why the files of a registry cannot be read or written. -/
inductive StoreError where
  | io (path : String) (error : FileError)
  | json (path : String) (error : Json.DataError)
  deriving DecidableEq

/-- The wording of a store error. -/
def StoreError.message : StoreError → String
  | io path error => s!"i/o error on {path}: {error.message}"
  | json path error => s!"invalid JSON in {path}: {error.message}"

/-- Model of `RegistryStore`: the directory of a registry. -/
structure Store where
  dir : String
  deriving DecidableEq, Repr

/-- What the three files of a registry hold. -/
structure Contents where
  nodes : NameMap Node
  provenance : Provenance
  guides : GuideOwners
  deriving DecidableEq

/-- Model of `backup_path`: the path of a backup. -/
def backupPath (path : String) : String :=
  Path.withSuffix path "bak"

/-- Part of `write_tmp`: the path of a temporary file. -/
def temporaryPath (path : String) : String :=
  Path.withSuffix path "tmp"

namespace Store

/-- Model of `nodes_path`: the file of nodes. -/
def nodesPath (s : Store) : String := Path.join s.dir "nodes.json"

/-- Model of `provenance_path`: the file of owners. -/
def provenancePath (s : Store) : String := Path.join s.dir "provenance.json"

/-- Model of `guides_path`: the file of guide holders. -/
def guidesPath (s : Store) : String := Path.join s.dir "guides.json"

/-! ## Reading -/

/-- Model of `read_json`: what a file holds, or nothing if there is no file. -/
def load {α : Type} (files : FileTree) (path : String) (absent : α) (shape : Json.Shape)
    (read : Tree → Option α) : Except StoreError α :=
  match files.read path with
  | .error .notFound => .ok absent
  | .error e => .error (.io path e)
  | .ok content => (Json.decode shape read content).mapError (.json path)

/-- The shape of a file of nodes. -/
def nodesShape : Json.Shape :=
  .record "NodesFile" [("nodes", .map Node.shape)]

/-- The nodes that a tree describes, each with the id that it is listed under. -/
def nodesOfTree? (tree : Tree) : Option (NameMap Node) := do
  let r ← tree.record? ["nodes"]
  let nodes ← r.defaulted "nodes" (Tree.map? Node.ofTree?) .empty
  return nodes.mapValues fun id node => { node with id }

/-- Model of `load_nodes`: the nodes of a registry. -/
def loadNodes (s : Store) (files : FileTree) : Except StoreError (NameMap Node) :=
  load files s.nodesPath .empty nodesShape nodesOfTree?

/-- Model of `load_provenance`: the owners of a registry. -/
def loadProvenance (s : Store) (files : FileTree) : Except StoreError Provenance :=
  load files s.provenancePath .empty Provenance.shape Provenance.ofTree?

/-- Model of `load_guide_owners`: the guide holders of a registry. -/
def loadGuides (s : Store) (files : FileTree) : Except StoreError GuideOwners :=
  load files s.guidesPath .empty GuideOwners.shape GuideOwners.ofTree?

/-- Model of `load_snapshot`: the snapshot that the files hold. -/
def loadSnapshot (s : Store) (files : FileTree) : Except StoreError Snapshot := do
  let nodes ← s.loadNodes files
  let provenance ← s.loadProvenance files
  return ⟨nodes, provenance⟩

/-- What the three files hold. -/
def loadContents (s : Store) (files : FileTree) : Except StoreError Contents := do
  let nodes ← s.loadNodes files
  let provenance ← s.loadProvenance files
  let guides ← s.loadGuides files
  return ⟨nodes, provenance, guides⟩

/-! ## Writing -/

/-- The nodes as JSON. -/
def nodesValue (nodes : NameMap Node) : Value :=
  .object [("nodes", .ofMap Node.toValue nodes)]

/-- The files that a save writes, in order, with what they will hold. -/
def documents (s : Store) (c : Contents) : List (String × Value) :=
  [(s.nodesPath, nodesValue c.nodes), (s.provenancePath, c.provenance.toValue),
    (s.guidesPath, c.guides.toValue)]

/-- The tree after an operation on a path, or the error with the unchanged tree. -/
def attempt (files : FileTree) (path : String) (result : Except FileError FileTree) :
    FileTree × Option StoreError :=
  match result with
  | .ok changed => (changed, none)
  | .error e => (files, some (.io path e))

/-- Model of `backup`: copies a file to its backup, if it is there. -/
def backUp (files : FileTree) (path : String) : FileTree × Option StoreError :=
  if files.pathExists path then
    attempt files (backupPath path) (files.copy path (backupPath path))
  else (files, none)

/-- Model of `write_tmp`: writes a document to the temporary file of its path. -/
def writeTemporary (files : FileTree) (document : String × Value) :
    FileTree × Option StoreError :=
  let temporary := temporaryPath document.1
  attempt files temporary (files.write temporary (Symbol.ofText document.2.pretty))

/-- Model of `rename`: moves the temporary file of a path to its place. -/
def putInPlace (files : FileTree) (path : String) : FileTree × Option StoreError :=
  attempt files path (files.rename (temporaryPath path) path)

/-- Steps done in order, up to the first that fails. What was done before stays done. -/
def inOrder : List (FileTree → FileTree × Option StoreError) →
    FileTree → FileTree × Option StoreError
  | [], files => (files, none)
  | step :: rest, files =>
    match step files with
    | (files, none) => inOrder rest files
    | failed => failed

/-- Model of `save`: the tree with the three files written, or as far as writing came and why it
stopped. -/
def save (s : Store) (c : Contents) (files : FileTree) : FileTree × Option StoreError :=
  let documents := s.documents c
  let paths := documents.map Prod.fst
  inOrder
    ([fun files => attempt files s.dir (files.createDirectories s.dir)] ++
      paths.map (fun path files => backUp files path) ++
      documents.map (fun document files => writeTemporary files document) ++
      paths.map (fun path files => putInPlace files path))
    files

end Store

end CapabilityPipeline
