import CapabilityPipeline.Registry.Manifest
import CapabilityPipeline.Registry.Store

/-!
# Installing packages

Registering a package merges its manifest into the registry, and unregistering takes its
actions out again. Nodes are never made, actions of other packages are left alone, and a guide
goes only when the last package that contributed it does. Each change is written to the files
before it is published.

Results:

* `Contents.register`, `Contents.unregister`: the change to what the registry holds, with the
  report of it.
* `Registry.register`, `Registry.unregister`: the same for a registry with files.
-/

namespace CapabilityPipeline

open Text (Symbol)

/-! ## Reports -/

/-- Why a package is not registered at all. -/
inductive SkipReason where
  | manifestMissing
  | manifestEmpty
  | manifestInvalid (detail : String)
  deriving DecidableEq, Repr

/-- The wording of a reason. -/
def SkipReason.message : SkipReason → String
  | manifestMissing => "no action manifest"
  | manifestEmpty => "action manifest declares no actions"
  | manifestInvalid detail => s!"invalid action manifest: {detail}"

/-- What a registration warns of. -/
inductive Warning where
  | unknownNode (node action : String)
  | foreignOwner (node action owner : String)
  | replacesBuiltIn (node action : String)
  deriving DecidableEq, Repr

/-- The wording of a warning. -/
def Warning.message : Warning → String
  | unknownNode node action => s!"skipped {node}:{action}: node '{node}' does not exist"
  | foreignOwner node action owner =>
    s!"skipped {node}:{action}: already owned by package '{owner}'"
  | replacesBuiltIn node action => s!"{node}:{action} replaces a built-in definition"

/-- What a registration did. -/
structure RegisterReport where
  packageId : String
  registered : Nat
  guidesAdded : Nat
  warnings : List Warning
  skipped : Option SkipReason
  deriving DecidableEq, Repr

/-- What an unregistration did. -/
structure UnregisterReport where
  packageId : String
  removed : Nat
  guidesRemoved : Nat
  deriving DecidableEq, Repr

/-- The report of a registration that has done nothing yet. -/
def RegisterReport.start (packageId : String) : RegisterReport :=
  ⟨packageId, 0, 0, [], none⟩

/-! ## The change to the contents -/

/-- The state of `register_actions`: what the registry holds while a package is merged, with the
report so far. -/
structure Merge where
  contents : Contents
  report : RegisterReport

namespace Merge

/-- The merge with one more warning. -/
def warn (m : Merge) (warning : Warning) : Merge :=
  { m with report := { m.report with warnings := m.report.warnings ++ [warning] } }

/-- The merge with an action set and its owner recorded. -/
def install (m : Merge) (packageId node name : String) (entry : ManifestAction) : Merge :=
  { contents := { m.contents with
      nodes := m.contents.nodes.modify node fun n =>
        n.withAction name (entry.toAction packageId name)
      provenance := m.contents.provenance.record node name packageId }
    report := { m.report with registered := m.report.registered + 1 } }

/-- One action in `register_actions`: the merge with an action of an existing node contributed,
unless another package owns it. -/
def addAction (m : Merge) (packageId node : String) (name : String) (entry : ManifestAction) :
    Merge :=
  match m.contents.provenance.owner? node name with
  | some owner =>
    if owner = packageId then m.install packageId node name entry
    else m.warn (.foreignOwner node name owner)
  | none =>
    let defined := (m.contents.nodes.get? node).any fun n => n.actions.contains name
    (if defined then m.warn (.replacesBuiltIn node name) else m).install packageId node name entry

/-- One guide in `register_actions`: the merge with a guide of an existing node contributed. A guide
that is there already is held by the package only if others hold it. -/
def addGuide (m : Merge) (packageId node guide : String) : Merge :=
  let present := (m.contents.nodes.get? node).any fun n => n.guides.contains guide
  let held := { m.contents with guides := m.contents.guides.record node guide packageId }
  if present then
    if m.contents.guides.isOwned node guide then { m with contents := held } else m
  else
    { contents := { held with nodes := held.nodes.modify node fun n => n.addGuide guide }
      report := { m.report with guidesAdded := m.report.guidesAdded + 1 } }

/-- One node in `register_actions`: the merge with a contribution to a node. Guides come only with
an action. -/
def addContribution (m : Merge) (packageId : String) (node : String)
    (contribution : Contribution) : Merge :=
  if m.contents.nodes.contains node then
    let after := contribution.actions.entries.foldl
      (fun m e => m.addAction packageId node e.1 e.2) m
    if m.report.registered < after.report.registered then
      contribution.guides.foldl (fun m guide => m.addGuide packageId node guide) after
    else after
  else
    contribution.actions.keys.foldl (fun m name => m.warn (.unknownNode node name)) m

end Merge

namespace Contents

/-- The merge of `register_actions`: the contents with a manifest merged, and the report. -/
def register (c : Contents) (packageId : String) (manifest : Manifest) : Merge :=
  manifest.contributions.foldl (fun m e => m.addContribution packageId e.1 e.2)
    ⟨c, .start packageId⟩

/-- One action in `unregister_actions`: the contents without an action and its owner. -/
def removeAction (c : Contents) (node action : String) : Contents :=
  { c with
    nodes := c.nodes.modify node fun n => n.removeAction action
    provenance := c.provenance.remove node action }

/-- One guide in `unregister_actions`: the contents without a guide on a node, and how often it was
listed there. -/
def removeGuide (c : Contents) (node guide : String) : Contents × Nat :=
  ({ c with nodes := c.nodes.modify node fun n => n.removeGuide guide },
    match c.nodes.get? node with
    | some n => n.guides.count guide
    | none => 0)

/-- The removal of `unregister_actions`: the contents without the actions of a package and without
the guides that it alone contributed, and the report. -/
def unregister (c : Contents) (packageId : String) : Contents × UnregisterReport :=
  let owned := c.provenance.ownedBy packageId
  let withoutActions := owned.foldl (fun c e => c.removeAction e.1 e.2) c
  let orphaned := c.guides.heldAlone packageId
  let (withoutGuides, removed) := orphaned.foldl
    (fun (c, n) e => let (c, m) := c.removeGuide e.1 e.2; (c, n + m)) (withoutActions, 0)
  ({ withoutGuides with guides := c.guides.drop packageId },
    ⟨packageId, owned.length, removed⟩)

end Contents

/-! ## Registries with files -/

/-- Model of `NodeRegistry` with its `ActionInstaller`. A registry: where its files are, where
packages are, and the snapshot that readers see. A registry in memory has a snapshot of its own and
reads no files. -/
structure Registry where
  store : Store
  packagesDir : String
  inMemory : Bool
  snapshot : Snapshot
  deriving DecidableEq

/-- Model of `is_valid_package_id`: the id is one name within a directory. -/
def isPackageId (id : String) : Bool :=
  id ≠ "" && id ≠ "." && id ≠ ".." && !id.toList.contains '/' && !id.toList.contains '\\'

namespace Registry

/-- Model of `open`: the registry that the files of a store hold. -/
def openStore (store : Store) (packagesDir : String) (files : FileTree) :
    Except StoreError Registry := do
  return ⟨store, packagesDir, false, ← store.loadSnapshot files⟩

/-- Model of `reload`: the registry with its files read again. -/
def reload (r : Registry) (files : FileTree) : Except StoreError Registry :=
  if r.inMemory then .ok r
  else (r.store.loadSnapshot files).map fun snapshot => { r with snapshot }

/-- Model of `manifest_path`: the path of the manifest of a package. -/
def manifestPath (r : Registry) (packageId : String) : String :=
  Path.join (Path.join r.packagesDir packageId) "ibl_actions.json"

/-- Model of `read_manifest`: the manifest of a package, if it declares any action. -/
def readManifest (r : Registry) (files : FileTree) (packageId : String) :
    Except SkipReason Manifest :=
  if isPackageId packageId then
    let path := r.manifestPath packageId
    match files.read path with
    | .error .notFound => .error .manifestMissing
    | .error e => .error (.manifestInvalid s!"{path}: {e.message}")
    | .ok content =>
      match Manifest.read content with
      | .error e => .error (.manifestInvalid s!"{path}: {e.message}")
      | .ok manifest => if manifest.isEmpty then .error .manifestEmpty else .ok manifest
  else .error (.manifestInvalid s!"invalid package id '{packageId}'")

/-- Model of `commit`: the registry and its files with new contents written and published, or as far
as writing came. -/
def commit (r : Registry) (c : Contents) (files : FileTree) :
    Registry × FileTree × Option StoreError :=
  match r.store.save c files with
  | (files, none) => ({ r with snapshot := ⟨c.nodes, c.provenance⟩ }, files, none)
  | (files, some e) => (r, files, some e)

/-- Model of `register_actions`: merges the manifest of a package into the registry. -/
def register (r : Registry) (packageId : String) (files : FileTree) :
    Registry × FileTree × Except StoreError RegisterReport :=
  match r.readManifest files packageId with
  | .error reason =>
    (r, files, .ok { RegisterReport.start packageId with skipped := some reason })
  | .ok manifest =>
    match r.store.loadContents files with
    | .error e => (r, files, .error e)
    | .ok contents =>
      let merge := contents.register packageId manifest
      if merge.report.registered = 0 then (r, files, .ok merge.report)
      else match r.commit merge.contents files with
        | (r, files, none) => (r, files, .ok merge.report)
        | (r, files, some e) => (r, files, .error e)

/-- Model of `unregister_actions`: takes a package out of the registry. -/
def unregister (r : Registry) (packageId : String) (files : FileTree) :
    Registry × FileTree × Except StoreError UnregisterReport :=
  let nothing : UnregisterReport := ⟨packageId, 0, 0⟩
  if isPackageId packageId then
    match r.store.loadContents files with
    | .error e => (r, files, .error e)
    | .ok contents =>
      if (contents.provenance.ownedBy packageId).isEmpty then (r, files, .ok nothing)
      else
        let (changed, report) := contents.unregister packageId
        match r.commit changed files with
        | (r, files, none) => (r, files, .ok report)
        | (r, files, some e) => (r, files, .error e)
  else (r, files, .ok nothing)

end Registry

/-! ## Reports as JSON -/

open Json (Value)

/-- A reason as JSON. -/
def SkipReason.toValue : SkipReason → Value
  | manifestMissing => .object [("reason", .string "manifest_missing")]
  | manifestEmpty => .object [("reason", .string "manifest_empty")]
  | manifestInvalid detail =>
    .object [("reason", .string "manifest_invalid"), ("detail", .string detail)]

/-- The report of a registration as JSON. -/
def RegisterReport.toValue (r : RegisterReport) : Value :=
  .record [
    Json.always "package_id" (.string r.packageId),
    Json.always "registered" (.ofNat r.registered),
    Json.always "guides_added" (.ofNat r.guidesAdded),
    Json.always "warnings" (.ofStrings (r.warnings.map Warning.message)),
    Json.whenSome "skipped" SkipReason.toValue r.skipped]

/-- The report of an unregistration as JSON. -/
def UnregisterReport.toValue (r : UnregisterReport) : Value :=
  .object [
    ("package_id", .string r.packageId),
    ("removed", .ofNat r.removed),
    ("guides_removed", .ofNat r.guidesRemoved)]

end CapabilityPipeline
