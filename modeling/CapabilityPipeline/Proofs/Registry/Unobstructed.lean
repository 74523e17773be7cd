import CapabilityPipeline.Proofs.Registry.Atomicity

/-!
# Saving where nothing is in the way

Saving touches nine places of the directory of a registry: those of its files, of their backups
and of their temporary files. When the directory is there and no other directory has one of these
names, saving succeeds, and it will again.

Results:

* `Store.Own`, `Store.Located.save_changes`: the places that saving touches.
* `Store.Clear`, `Store.clear_of_free`: nothing is in the way of saving.
* `Store.Clear.exists_save`: saving succeeds when nothing is in the way.
-/

namespace CapabilityPipeline

open Json (Value)
open Text (Symbol)

namespace FileTree

variable {t t' : FileTree} {places : Place → Prop}

/-- What is found depends only on what is at the place of the path. -/
theorem find_of_locate {path : String} {place : Place} (h : t.locate path = .ok place) :
    t.find path = (t.entry? place).elim (.error .notFound) .ok := by
  unfold find
  rw [h]
  simp only [bind, Except.bind]
  cases t.entry? place <;> rfl

/-- A file is read as before when it is at none of the places that changed. -/
theorem Changes.read_eq_ok (h : t.Changes places t') {path : String} {content : List Symbol}
    (away : ∀ place, t.locate path = .ok place → ¬ places place) :
    t'.read path = .ok content ↔ t.read path = .ok content := by
  rw [FileTree.read_eq_ok, FileTree.read_eq_ok]
  refine exists_congr fun place => ?_
  rw [h.locate_eq_ok]
  refine and_congr_right fun located => ?_
  rw [h.elsewhere place (away place located)]

/-- A file can be written where no directory is, in a directory. -/
theorem exists_write {path : String} {base : Place} {name : String}
    (located : t.locate (Path.withoutLastSlashes path) = .ok (base ++ [name]))
    (plain : Path.endsAfterName path = false) (above : t.entry? base = some .directory)
    (free : t.entry? (base ++ [name]) ≠ some .directory) (content : List Symbol) :
    ∃ t', t.write path content = .ok t' := by
  rw [write_of_locate located plain, above]
  cases there : t.entry? (base ++ [name]) with
  | none => exact ⟨_, rfl⟩
  | some entry =>
    cases entry with
    | file content => exact ⟨_, rfl⟩
    | directory => exact absurd there free

/-- A directory that is there need not be made. -/
theorem createDirectories_eq {path : String} {base : Place}
    (located : t.locate path = .ok base)
    (located' : t.locate (Path.withoutLastSlashes path) = .ok base)
    (there : t.entry? base = some .directory) : t.createDirectories path = .ok t := by
  have refused : t.createDirectory path = .error .alreadyExists := by
    unfold createDirectory
    rw [located']
    simp only [bind, Except.bind, there]
    rfl
  have directory : t.isDirectory path = true := by
    unfold isDirectory find
    rw [located]
    simp only [bind, Except.bind, there]
    rfl
  unfold createDirectories
  rw [createDirectoriesWithin, refused, directory]
  split <;> rfl

end FileTree

namespace Store

variable {s : Store} {t t' : FileTree} {base : Place}

/-! ## The places that saving touches -/

/-- The names of the files of a registry, of their backups and of their temporary files. -/
def ownNames : List String :=
  fileNames ++ fileNames.map backupName ++ fileNames.map temporaryName

/-- A place that saving may touch. -/
def Own (base : Place) (place : Place) : Prop :=
  ∃ name ∈ ownNames, place = base ++ [name]

theorem own_file {name : String} (mem : name ∈ fileNames) : Own base (base ++ [name]) :=
  ⟨name, List.mem_append_left _ (List.mem_append_left _ mem), rfl⟩

theorem own_backup {name : String} (mem : name ∈ fileNames) :
    Own base (base ++ [backupName name]) :=
  ⟨_, List.mem_append_left _ (List.mem_append_right _ (List.mem_map_of_mem mem)), rfl⟩

theorem own_temporary {name : String} (mem : name ∈ fileNames) :
    Own base (base ++ [temporaryName name]) :=
  ⟨_, List.mem_append_right _ (List.mem_map_of_mem mem), rfl⟩

theorem Located.backUp_own (h : s.Located t base) {name : String} (mem : name ∈ fileNames) :
    t.Changes (Own base) (Store.backUp t (s.path name)).1 := by
  refine (h.backUp_changes mem).mono ?_
  rintro _ rfl
  exact own_backup mem

section Phases

variable (c : Contents)

/-- **Saving touches its own places only**, however far it comes. -/
theorem Located.save_changes (h : s.Located t base) {failure : Option StoreError}
    (result : s.save c t = (t', failure)) : t.Changes (Own base) t' := by
  have names := contentsOf_names c
  have distinct := contentsOf_nodup c
  have prepared : t.Changes (Own base)
      (inOrder ((fun files => attempt files s.dir (files.createDirectories s.dir)) ::
        (contentsOf c).map fun d files => Store.backUp files (s.path d.1)) t).1 := by
    refine h.inOrder_changes (List.forall_mem_cons.mpr ⟨fun t h => ?_, fun step mem t h => ?_⟩)
    · refine attempt_changes h.wellFormed fun t' made => ?_
      rw [FileTree.createDirectories_of_reached h.reached made]
      exact .refl h.wellFormed
    · obtain ⟨d, hd, rfl⟩ := List.mem_map.mp mem
      exact h.backUp_own (names d hd)
  have temporary (place : Place) : (∃ d ∈ contentsOf c, place = base ++ [temporaryName d.1]) →
      Own base place := by
    rintro ⟨d, hd, rfl⟩
    exact own_temporary (names d hd)
  rw [save_eq, inOrder_append] at result
  split at result
  · next t₁ preparing =>
    rw [preparing] at prepared
    rw [inOrder_append] at result
    rcases writing : inOrder ((contentsOf c).map fun d files =>
      Store.writeTemporary files (s.path d.1, d.2)) t₁ with ⟨t₂, - | e⟩
    · rw [writing] at result
      obtain ⟨written, ready⟩ :=
        (h.changes prepared).inOrder_writeTemporary names distinct writing
      obtain ⟨t₃, moving, moved, -⟩ :=
        ((h.changes prepared).changes written).inOrder_putInPlace names distinct (ready rfl)
      cases moving.symm.trans result
      refine (prepared.trans (written.mono temporary)).trans (moved.mono ?_)
      rintro _ ⟨d, hd, rfl | rfl⟩
      · exact own_temporary (names d hd)
      · exact own_file (names d hd)
    · rw [writing] at result
      cases result
      obtain ⟨written, -⟩ := (h.changes prepared).inOrder_writeTemporary names distinct writing
      exact prepared.trans (written.mono temporary)
  · rw [result] at prepared
    exact prepared

end Phases

/-! ## Nothing in the way -/

/-- The directory of a registry is there and no directory is where saving puts a file. -/
structure Clear (s : Store) (t : FileTree) (base : Place) : Prop extends s.Located t base where
  dir : t.locate s.dir = .ok base
  dirPlain : t.locate (Path.withoutLastSlashes s.dir) = .ok base
  backup : ∀ name ∈ fileNames, t.locate (backupPath (s.path name)) = .ok (base ++ [backupName name])
  backupFree : ∀ name ∈ fileNames, t.entry? (base ++ [backupName name]) ≠ some .directory
  temporary : ∀ name ∈ fileNames,
    t.locate (temporaryPath (s.path name)) = .ok (base ++ [temporaryName name])
  temporaryFree : ∀ name ∈ fileNames, t.entry? (base ++ [temporaryName name]) ≠ some .directory

/-- The paths by which saving goes. -/
def paths (s : Store) : List String :=
  s.dir :: Path.withoutLastSlashes s.dir :: fileNames.flatMap fun name =>
    [s.path name, backupPath (s.path name), temporaryPath (s.path name)]

theorem mem_paths {name : String} (mem : name ∈ fileNames) {path : String}
    (h : path ∈ [s.path name, backupPath (s.path name), temporaryPath (s.path name)]) :
    path ∈ s.paths :=
  .tail _ (.tail _ (List.mem_flatMap.mpr ⟨name, mem, h⟩))

/-- **Nothing is in the way** in a directory that is there, with no directory among what saving
touches. -/
theorem clear_of_free (wellFormed : t.WellFormed) (reached : t.Reached s.dir base)
    (arePaths : ∀ path ∈ s.paths, FileTree.IsPath path)
    (free : ∀ name ∈ ownNames, t.entry? (base ++ [name]) ≠ some .directory) : s.Clear t base := by
  have short : ∀ name ∈ ownNames, name.utf8ByteSize ≤ FileTree.maxNameBytes := by decide
  have leads {path name : String} (inside : Path.IsIn s.dir path name) (isName : Path.IsName name)
      (own : Own base (base ++ [name])) (mem : path ∈ s.paths) :
      t.locate path = .ok (base ++ [name]) := by
    obtain ⟨name', mem', same⟩ := own
    obtain rfl := List.singleton_inj.mp (List.append_cancel_left same)
    exact reached.locate_of_isPath inside isName (arePaths path mem) (short name mem')
  have untouched {place : Place} (own : Own base place) : t.entry? place ≠ some .directory := by
    obtain ⟨name, mem, rfl⟩ := own
    exact free name mem
  obtain ⟨names, absolute, -⟩ := Path.names_withoutLastSlashes s.dir
  exact
    { wellFormed
      reached
      locate name mem := leads (s.isIn_path (isName_of_mem mem)) (isName_of_mem mem)
        (own_file mem) (mem_paths mem (.head _))
      free name mem := untouched (own_file mem)
      dir := reached.locate_directory_of_isPath rfl rfl (arePaths _ (.head _))
      dirPlain := reached.locate_directory_of_isPath names absolute (arePaths _ (.tail _ (.head _)))
      backup name mem := leads (s.isIn_backupPath (isName_of_mem mem))
        (isName_backupName (isName_of_mem mem)) (own_backup mem) (mem_paths mem (.tail _ (.head _)))
      backupFree name mem := untouched (own_backup mem)
      temporary name mem := leads (s.isIn_temporaryPath (isName_of_mem mem))
        (isName_temporaryName (isName_of_mem mem)) (own_temporary mem)
        (mem_paths mem (.tail _ (.tail _ (.head _))))
      temporaryFree name mem := untouched (own_temporary mem) }

theorem arePaths_registry : ∀ path ∈ paths ⟨"registry"⟩, FileTree.IsPath path := by
  decide +kernel

variable {places : Place → Prop}

theorem Clear.changes (h : s.Clear t base) (changes : t.Changes places t') :
    s.Clear t' base where
  toLocated := h.toLocated.changes changes
  dir := changes.locate_eq_ok.mpr h.dir
  dirPlain := changes.locate_eq_ok.mpr h.dirPlain
  backup name mem := changes.locate_eq_ok.mpr (h.backup name mem)
  backupFree name mem directory := h.backupFree name mem ((changes.directory _).mp directory)
  temporary name mem := changes.locate_eq_ok.mpr (h.temporary name mem)
  temporaryFree name mem directory :=
    h.temporaryFree name mem ((changes.directory _).mp directory)

/-- A file is written to a place in the directory where no directory is. -/
theorem Clear.exists_write (h : s.Clear t base) {path name : String}
    (inside : Path.IsIn s.dir path name) (isName : Path.IsName name)
    (located : t.locate path = .ok (base ++ [name]))
    (free : t.entry? (base ++ [name]) ≠ some .directory) (content : List Symbol) :
    ∃ t', t.write path content = .ok t' :=
  FileTree.exists_write ((inside.withoutLastSlashes_eq isName).symm ▸ located)
    (inside.endsAfterName_eq isName) h.reached.directory free content

theorem Clear.exists_backUp (h : s.Clear t base) {name : String} (mem : name ∈ fileNames) :
    ∃ t', Store.backUp t (s.path name) = (t', none) := by
  unfold Store.backUp
  split
  · next there =>
    have found := FileTree.find_of_locate (h.locate name mem)
    cases entry : t.entry? (base ++ [name]) with
    | none =>
      unfold FileTree.pathExists at there
      rw [found, entry, Option.elim_none] at there
      cases there
    | some kind =>
      cases kind with
      | directory => exact absurd entry (h.free name mem)
      | file content =>
        obtain ⟨t', written⟩ := h.exists_write (s.isIn_backupPath (isName_of_mem mem))
          (isName_backupName (isName_of_mem mem)) (h.backup name mem) (h.backupFree name mem)
          content
        refine ⟨t', ?_⟩
        unfold FileTree.copy
        rw [found, entry, Option.elim_some]
        simp only [bind, Except.bind, written]
        rfl
  · exact ⟨t, rfl⟩

theorem Clear.exists_writeTemporary (h : s.Clear t base) {d : String × Value}
    (mem : d.1 ∈ fileNames) :
    ∃ t', Store.writeTemporary t (s.path d.1, d.2) = (t', none) := by
  obtain ⟨t', written⟩ := h.exists_write (s.isIn_temporaryPath (isName_of_mem mem))
    (isName_temporaryName (isName_of_mem mem)) (h.temporary d.1 mem) (h.temporaryFree d.1 mem)
    (Symbol.ofText d.2.pretty)
  refine ⟨t', ?_⟩
  unfold Store.writeTemporary
  dsimp only
  rw [written]
  rfl

/-- A step that succeeds when nothing is in the way, and puts nothing in the way. -/
def Succeeds (s : Store) (base : Place) (step : FileTree → FileTree × Option StoreError) : Prop :=
  ∀ t, s.Clear t base → ∃ t', step t = (t', none) ∧ t.Changes (Own base) t'

theorem succeeds_createDirectories (s : Store) (base : Place) :
    s.Succeeds base fun files => attempt files s.dir (files.createDirectories s.dir) := by
  intro t h
  have stays := FileTree.createDirectories_eq h.dir h.dirPlain h.reached.directory
  exact ⟨t, congrArg (attempt t s.dir) stays, .refl h.wellFormed⟩

theorem succeeds_backUp (s : Store) (base : Place) {name : String} (mem : name ∈ fileNames) :
    s.Succeeds base fun files => Store.backUp files (s.path name) := by
  intro t h
  obtain ⟨t', done⟩ := h.exists_backUp mem
  have changes := h.backUp_own mem
  rw [done] at changes
  exact ⟨t', done, changes⟩

theorem succeeds_writeTemporary (s : Store) (base : Place) {d : String × Value}
    (mem : d.1 ∈ fileNames) :
    s.Succeeds base fun files => Store.writeTemporary files (s.path d.1, d.2) := by
  intro t h
  obtain ⟨t', done⟩ := h.exists_writeTemporary mem
  have changes := (h.toLocated.writeTemporary mem).1
  rw [done] at changes
  exact ⟨t', done, changes.mono fun _ same => same ▸ own_temporary mem⟩

/-- Steps that all succeed, succeed in order. -/
theorem Clear.exists_inOrder {steps : List (FileTree → FileTree × Option StoreError)}
    (each : ∀ step ∈ steps, s.Succeeds base step) (h : s.Clear t base) :
    ∃ t', inOrder steps t = (t', none) ∧ s.Clear t' base := by
  induction steps generalizing t with
  | nil => exact ⟨t, rfl, h⟩
  | cons step rest ih =>
    obtain ⟨first, later⟩ := List.forall_mem_cons.mp each
    obtain ⟨t₁, done, changes⟩ := first t h
    rw [inOrder, done]
    exact ih later (h.changes changes)

/-- **Saving succeeds when nothing is in the way**, and nothing is in the way of saving again. -/
theorem Clear.exists_save (h : s.Clear t base) (c : Contents) :
    ∃ t', s.save c t = (t', none) ∧ s.Clear t' base := by
  have names := contentsOf_names c
  have distinct := contentsOf_nodup c
  have prepares : ∀ step ∈ (fun files => attempt files s.dir (files.createDirectories s.dir)) ::
      (contentsOf c).map fun d files => Store.backUp files (s.path d.1), s.Succeeds base step := by
    refine List.forall_mem_cons.mpr ⟨s.succeeds_createDirectories base, fun step mem => ?_⟩
    obtain ⟨d, hd, rfl⟩ := List.mem_map.mp mem
    exact s.succeeds_backUp base (names d hd)
  have writes : ∀ step ∈ (contentsOf c).map fun d files =>
      Store.writeTemporary files (s.path d.1, d.2), s.Succeeds base step := by
    intro step mem
    obtain ⟨d, hd, rfl⟩ := List.mem_map.mp mem
    exact s.succeeds_writeTemporary base (names d hd)
  obtain ⟨t₁, preparing, clear₁⟩ := h.exists_inOrder prepares
  obtain ⟨t₂, writing, clear₂⟩ := clear₁.exists_inOrder writes
  obtain ⟨-, ready⟩ := clear₁.inOrder_writeTemporary names distinct writing
  obtain ⟨t₃, moving, changes, -⟩ := clear₂.inOrder_putInPlace names distinct (ready rfl)
  refine ⟨t₃, ?_, clear₂.changes changes⟩
  rw [save_eq, inOrder_append, preparing]
  dsimp only
  rw [inOrder_append, writing]
  exact moving

end Store

end CapabilityPipeline
