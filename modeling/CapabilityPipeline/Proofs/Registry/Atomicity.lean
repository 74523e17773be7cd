import CapabilityPipeline.Proofs.Registry.Runs

/-!
# All or nothing

A request to a registry may fail, for anything may stand at the paths that it reads and writes.
Then its three files are as they were, and readers see what they saw. When it succeeds and has
changed anything, all three files hold the new contents, and readers see these.

Results:

* `Store.Written`: the three files of a registry hold contents.
* `Registry.AllOrNothing`: what a request may come to.
* `Registry.requests_allOrNothing`: every request to register or unregister a package comes to
  that.
-/

namespace CapabilityPipeline

open Text (Symbol)

/-- The three files of a registry hold contents, each the document that is written for it. -/
def Store.Written (s : Store) (c : Contents) (files : FileTree) : Prop :=
  ∀ d ∈ s.documents c, files.read d.1 = .ok (Symbol.ofText d.2.pretty)

/-- What was saved without an error is in all three files. -/
theorem Store.Located.written_save {s : Store} {files files' : FileTree} {base : Place}
    (h : s.Located files base) {c : Contents} (saved : s.save c files = (files', none)) :
    s.Written c files' := by
  obtain ⟨changes, placed⟩ := (h.save c saved).2 rfl
  have documents : s.documents c = (Store.contentsOf c).map fun d => (s.path d.1, d.2) := rfl
  intro d mem
  rw [documents] at mem
  obtain ⟨d, hd, rfl⟩ := List.mem_map.mp mem
  have isFile : d.1 ∈ Store.fileNames :=
    (by simp [Store.contentsOf, Store.fileNames] : ∀ d ∈ Store.contentsOf c,
      d.1 ∈ Store.fileNames) d hd
  dsimp only
  rw [FileTree.read_of_locate (changes.locate_eq_ok.mpr (h.locate d.1 isFile)), placed d hd]

namespace Registry

variable {r : Registry} {files : FileTree}

/-- What a request that asks for changes, at most one, may come to. -/
structure AllOrNothing {Report : Type} (r : Registry) (files : FileTree) (asked : List Change)
    (after : Registry × FileTree × Except StoreError Report) : Prop where
  /-- After an error the registry and its three files are as they were. -/
  failed : ∀ e, after.2.2 = .error e → after.1 = r ∧ r.store.SameFiles files after.2.1
  /-- Without an error nothing at all has changed, or all three files hold the changed contents
  and these are published. -/
  succeeded : ∀ report, after.2.2 = .ok report →
    after.1 = r ∧ after.2.1 = files ∨
      ∃ change c, asked = [change] ∧ r.store.loadContents files = .ok c ∧
        r.store.Written (c.apply change) after.2.1 ∧
        after.1 = { r with snapshot := (c.apply change).snapshot }

/-- A request that does nothing. -/
theorem AllOrNothing.nothing {Report : Type} (asked : List Change)
    (result : Except StoreError Report) : AllOrNothing r files asked (r, files, result) :=
  ⟨fun _ _ => ⟨rfl, fun _ _ => rfl⟩, fun _ _ => .inl ⟨rfl, rfl⟩⟩

/-- A commit writes everything and publishes it, or it fails and leaves all as it was. -/
theorem commit_allOrNothing {Report : Type} (wellFormed : files.WellFormed) {c : Contents}
    (loaded : r.store.loadContents files = .ok c)
    (some : c.nodes ≠ .empty ∨ c.provenance ≠ .empty) (change : Change) (report : Report) :
    AllOrNothing r files [change]
      (match r.commit (c.apply change) files with
        | (r, files, none) => (r, files, .ok report)
        | (r, files, .some e) => (r, files, .error e)) := by
  obtain ⟨base, located⟩ := Store.located_of_loadContents wellFormed loaded some
  unfold commit
  rcases saved : r.store.save (c.apply change) files with ⟨files', - | e⟩
  · refine ⟨fun _ failed => (by cases failed), fun _ _ => .inr ⟨change, c, rfl, loaded, ?_, rfl⟩⟩
    exact located.written_save saved
  · have beside := (located.save _ saved).1 (Option.some_ne_none e)
    exact ⟨fun _ _ => ⟨rfl, located.sameFiles beside⟩, fun _ done => by cases done⟩

/-- A package is not taken out when saving stops with an error. -/
theorem unregister_stopped {packageId : String} (isId : isPackageId packageId = true)
    {c : Contents} (loaded : r.store.loadContents files = .ok c)
    (owned : (c.provenance.ownedBy packageId).isEmpty = false) {e : StoreError}
    (stopped : (r.store.save (c.unregister packageId).1 files).2 = some e) :
    (r.unregister packageId files).2.2 = .error e := by
  unfold unregister commit
  rw [if_pos isId, loaded]
  dsimp only
  rw [if_neg (Bool.eq_false_iff.mp owned)]
  rcases saved : r.store.save (c.unregister packageId).1 files with ⟨files', failure⟩
  rw [saved] at stopped
  cases stopped
  rfl

/-- **All or nothing.** Whatever stands at the paths of a registry, a request to register or
unregister a package that fails leaves the three files and the published snapshot as they were,
and one that succeeds after a change has written all three files. -/
theorem requests_allOrNothing (r : Registry) (wellFormed : files.WellFormed) (packageId : String) :
    AllOrNothing r files (r.registration files packageId) (r.register packageId files) ∧
      AllOrNothing r files [.unregister packageId] (r.unregister packageId files) := by
  constructor
  · unfold registration register
    cases r.readManifest files packageId with
    | error reason => exact .nothing _ _
    | ok manifest =>
      dsimp only
      cases loaded : r.store.loadContents files with
      | error e => exact .nothing _ _
      | ok c =>
        dsimp only
        split
        · exact .nothing _ _
        · next registered =>
          exact commit_allOrNothing wellFormed loaded
            (.inl (Contents.nodes_ne_empty_of_registered registered))
            (.register packageId manifest) _
  · unfold unregister
    dsimp only
    split
    · cases loaded : r.store.loadContents files with
      | error e => exact .nothing _ _
      | ok c =>
        dsimp only
        split
        · exact .nothing _ _
        · next owned =>
          exact commit_allOrNothing wellFormed loaded
            (.inr (Contents.provenance_ne_empty_of_owned (Bool.eq_false_iff.mpr owned)))
            (.unregister packageId) _
    · exact .nothing _ _

/-- The files of the registry with the desk, with a directory where the first backup belongs. -/
def blockedFiles : FileTree :=
  { deskFiles with entries := (["registry", "nodes.json.bak"], .directory) :: deskFiles.entries }

theorem loadContents_blocked :
    deskRegistry.store.loadContents blockedFiles = .ok deskContents := by
  have same : deskRegistry.store.SameFiles deskFiles blockedFiles := by
    intro name mem
    have located : blockedFiles.locate (deskRegistry.store.path name) = .ok ["registry", name] :=
      (by decide : ∀ name ∈ Store.fileNames,
        blockedFiles.locate (deskRegistry.store.path name) = .ok ["registry", name]) name mem
    have other : ["registry", name] ≠ ["registry", "nodes.json.bak"] :=
      (by decide : ∀ name ∈ Store.fileNames,
        ["registry", name] ≠ ["registry", "nodes.json.bak"]) name mem
    have entry : blockedFiles.entry? ["registry", name] = deskFiles.entry? ["registry", name] := by
      rw [FileTree.entry?_of_ne_nil _ (List.cons_ne_nil _ _),
        FileTree.entry?_of_ne_nil _ (List.cons_ne_nil _ _)]
      unfold blockedFiles
      rw [List.lookup_cons, beq_eq_false_iff_ne.mpr other]
    rw [FileTree.read_of_locate located, entry,
      FileTree.read_of_locate (located_desk.locate name mem)]
    rfl
  exact same.loadContents.trans loadContents_desk

/-- The package with the desk cannot be taken out, for the first backup cannot be written. -/
theorem unregister_blocked : (deskRegistry.unregister "mail" blockedFiles).2.2 =
    .error (.io "registry/nodes.json.bak" .isADirectory) := by
  refine unregister_stopped (by decide) loadContents_blocked (by decide) ?_
  decide +kernel

theorem requests_allOrNothing_blocked :
    blockedFiles.WellFormed ∧
      (deskRegistry.unregister "mail" blockedFiles).2.2 =
        .error (.io "registry/nodes.json.bak" .isADirectory) ∧
      AllOrNothing deskRegistry blockedFiles (deskRegistry.registration blockedFiles "mail")
        (deskRegistry.register "mail" blockedFiles) ∧
      AllOrNothing deskRegistry blockedFiles [.unregister "mail"]
        (deskRegistry.unregister "mail" blockedFiles) :=
  ⟨by decide, unregister_blocked, requests_allOrNothing deskRegistry (by decide) "mail"⟩

end Registry

end CapabilityPipeline
