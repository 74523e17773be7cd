import CapabilityPipeline.Proofs.Files.Directories
import CapabilityPipeline.Proofs.Registry.Documents
import CapabilityPipeline.Proofs.Registry.Unobstructed

/-!
# Saved data and its backups

A save that succeeds shows by its success where the files of the registry are, also if it made their
directory itself. It leaves the data that was saved in the three files, what each of these held
before in its backup, and no temporary file. This holds of every save, however many came before.

Results:

* `Store.located_of_inOrder`: files that were moved to their places had their places before.
* `Store.BackedUp`: a file is backed up.
* `Store.Kept`: what a save leaves.
* `Store.save_kept`, `Store.Saves.kept_of_save`: every save that succeeds leaves it.
-/

namespace CapabilityPipeline

open Json (Value)
open Text (Symbol)

/-- Two trees that differ in files only. -/
def FileTree.SameDirectories (t t' : FileTree) : Prop :=
  t.Changes (fun _ => True) t'

namespace Store

variable {s : Store} {t t' t'' : FileTree} {base : Place} {name : String} {c : Contents}

/-! ## Steps that succeed -/

theorem attempt_eq_none {path : String} {result : Except FileError FileTree} :
    attempt t path result = (t', none) ↔ result = .ok t' := by
  cases result with
  | error e => exact ⟨nofun, nofun⟩
  | ok made =>
    constructor
    · intro h
      cases h
      rfl
    · intro h
      cases h
      rfl

theorem inOrder_append_eq_none {first later : List (FileTree → FileTree × Option StoreError)} :
    inOrder (first ++ later) t = (t', none) ↔
      ∃ t₁, inOrder first t = (t₁, none) ∧ inOrder later t₁ = (t', none) := by
  rw [inOrder_append]
  rcases inOrder first t with ⟨t₁, - | e⟩
  · exact ⟨fun h => ⟨t₁, rfl, h⟩, fun ⟨_, same, h⟩ => by cases same; exact h⟩
  · exact ⟨nofun, nofun⟩

theorem sameDirectories_backUp (wellFormed : t.WellFormed) (mem : name ∈ fileNames)
    (done : backUp t (s.path name) = (t', none)) : t.SameDirectories t' := by
  unfold backUp at done
  split at done
  · obtain ⟨entry, -, copied⟩ := bind_eq_ok.mp (attempt_eq_none.mp done)
    split at copied
    · obtain ⟨_, -, -, -, changes⟩ := write_inside wellFormed
        (s.isIn_backupPath (isName_of_mem mem)) (isName_backupName (isName_of_mem mem)) copied
      exact changes.mono fun _ _ => trivial
    · cases copied
  · cases done
    exact .refl wellFormed

theorem sameDirectories_writeTemporary (wellFormed : t.WellFormed) {d : String × Value}
    (mem : d.1 ∈ fileNames) (done : writeTemporary t (s.path d.1, d.2) = (t', none)) :
    t.SameDirectories t' := by
  unfold writeTemporary at done
  have written := attempt_eq_none.mp done
  obtain ⟨_, -, -, -, changes⟩ := write_inside wellFormed
    (s.isIn_temporaryPath (isName_of_mem mem)) (isName_temporaryName (isName_of_mem mem)) written
  exact changes.mono fun _ _ => trivial

/-- The place of a file of a registry: its directory is there and no directory is in its place. -/
structure HasPlace (s : Store) (name : String) (base : Place) (t : FileTree) : Prop where
  reached : t.Reached s.dir base
  locate : t.locate (s.path name) = .ok (base ++ [name])
  free : t.entry? (base ++ [name]) ≠ some .directory

/-- A file has its place before files come and go if it has it afterwards. -/
theorem HasPlace.before (same : t.SameDirectories t') (h : s.HasPlace name base t') :
    s.HasPlace name base t where
  reached := same.reached_iff.mp h.reached
  locate := same.locate_eq_ok.mp h.locate
  free directory := h.free ((same.directory _).mpr directory)

/-- A file that was moved to its place had its place before. -/
theorem hasPlace_of_putInPlace (wellFormed : t.WellFormed) (mem : name ∈ fileNames)
    (done : putInPlace t (s.path name) = (t', none)) :
    (∃ base, s.HasPlace name base t) ∧ t.SameDirectories t' := by
  have isName := isName_of_mem mem
  have inside := s.isIn_path isName
  have different : temporaryName name ≠ name :=
    (by decide : ∀ name ∈ fileNames, temporaryName name ≠ name) name mem
  have moved := attempt_eq_none.mp done
  obtain ⟨source, target, content, leaves, there, arrives, result⟩ :=
    FileTree.exists_of_rename moved
  obtain ⟨base, reached, rfl⟩ := FileTree.reached_of_locate
    (s.isIn_temporaryPath isName) (isName_temporaryName isName) leaves
  obtain ⟨base', reached', rfl⟩ := FileTree.reached_of_locate inside isName arrives
  obtain rfl := reached.unique reached'
  have free : t.entry? (base ++ [name]) ≠ some .directory := by
    rcases result with ⟨same, -⟩ | ⟨-, written, writing, -⟩
    · exact absurd (List.singleton_inj.mp (List.append_cancel_left same)) different
    · obtain ⟨base', reached', -, file, changes⟩ := write_inside wellFormed inside isName writing
      obtain rfl := reached.unique reached'
      intro directory
      rw [(changes.directory _).mpr directory] at file
      cases file
  refine ⟨⟨base, reached, arrives, free⟩, ?_⟩
  obtain ⟨t₁, again, -, -, changes⟩ := FileTree.rename_eq_ok wellFormed different leaves arrives
    (inside.withoutLastSlashes_eq isName) (inside.endsAfterName_eq isName) there free
  cases again.symm.trans moved
  exact changes.mono fun _ _ => trivial

/-! ## A save that succeeds shows where the files are -/

/-- Steps for the items of a list, each of which changes files only and shows something that does
not depend on files, show it of all items from the start. -/
theorem inOrder_map_eq_none {α : Type} {step : α → FileTree → FileTree × Option StoreError}
    (shown : α → FileTree → Prop)
    (before : ∀ a t t', t.SameDirectories t' → shown a t' → shown a t) {l : List α}
    (each : ∀ a ∈ l, ∀ t t', t.WellFormed → step a t = (t', none) →
      shown a t ∧ t.SameDirectories t')
    (wellFormed : t.WellFormed) (done : inOrder (l.map step) t = (t', none)) :
    (∀ a ∈ l, shown a t) ∧ t.SameDirectories t' := by
  induction l generalizing t with
  | nil =>
    cases done
    exact ⟨nofun, .refl wellFormed⟩
  | cons a rest ih =>
    obtain ⟨here, later⟩ := List.forall_mem_cons.mp each
    rw [List.map_cons, inOrder] at done
    rcases first : step a t with ⟨t₁, - | e⟩
    · rw [first] at done
      obtain ⟨shownHere, same⟩ := here t t₁ wellFormed first
      obtain ⟨shownLater, same'⟩ := ih later same.wellFormed done
      refine ⟨List.forall_mem_cons.mpr ⟨shownHere, fun b mem => ?_⟩, same.trans same'⟩
      exact before b t t₁ same (shownLater b mem)
    · rw [first] at done
      cases done

/-- **Files that were moved to their places had their places before**, and before backups and
temporary files were written. -/
theorem located_of_inOrder (wellFormed : t.WellFormed)
    (done : inOrder ((contentsOf c).map (fun d files => backUp files (s.path d.1)) ++
      ((contentsOf c).map (fun d files => writeTemporary files (s.path d.1, d.2)) ++
        (contentsOf c).map fun d files => putInPlace files (s.path d.1))) t = (t', none)) :
    ∃ base, s.Located t base := by
  have names := contentsOf_names c
  obtain ⟨t₁, copying, done⟩ := inOrder_append_eq_none.mp done
  obtain ⟨t₂, writing, moving⟩ := inOrder_append_eq_none.mp done
  have copied := (inOrder_map_eq_none (fun _ _ => True) (fun _ _ _ _ => id)
    (fun d mem _ _ wellFormed done =>
      ⟨trivial, sameDirectories_backUp wellFormed (names d mem) done⟩) wellFormed copying).2
  -- files came and went since, and the directories show where the three files belong
  have written := (inOrder_map_eq_none (fun _ _ => True) (fun _ _ _ _ => id)
    (fun d mem _ _ wellFormed done =>
      ⟨trivial, sameDirectories_writeTemporary wellFormed (names d mem) done⟩)
    copied.wellFormed writing).2
  have places := (inOrder_map_eq_none (fun d t => ∃ base, s.HasPlace d.1 base t)
    (fun _ _ _ same ⟨base, place⟩ => ⟨base, place.before same⟩)
    (fun d mem _ _ wellFormed done => hasPlace_of_putInPlace wellFormed (names d mem) done)
    written.wellFormed moving).1
  have place (d : String × Value) (mem : d ∈ contentsOf c) : ∃ base, s.HasPlace d.1 base t := by
    obtain ⟨base, place⟩ := places d mem
    exact ⟨base, place.before (copied.trans written)⟩
  obtain ⟨base, first⟩ := place ("nodes.json", nodesValue c.nodes) (.head _)
  have all : ∀ name ∈ fileNames, s.HasPlace name base t := by
    intro name mem
    have listed : (contentsOf c).map Prod.fst = fileNames := rfl
    obtain ⟨d, among, rfl⟩ := List.mem_map.mp (listed ▸ mem)
    obtain ⟨base', place⟩ := place d among
    obtain rfl := place.reached.unique first.reached
    exact place
  exact ⟨base, wellFormed, first.reached, fun name mem => (all name mem).locate,
    fun name mem => (all name mem).free⟩

/-! ## Backups -/

/-- The backup of a file is there and holds this. -/
structure BackedUp (s : Store) (base : Place) (name : String) (content : List Symbol)
    (t : FileTree) : Prop where
  locate : t.locate (backupPath (s.path name)) = .ok (base ++ [backupName name])
  content : t.entry? (base ++ [backupName name]) = some (.file content)

theorem BackedUp.changes {places : Place → Prop} {content : List Symbol}
    (h : s.BackedUp base name content t) (changes : t.Changes places t')
    (away : ¬ places (base ++ [backupName name])) : s.BackedUp base name content t' where
  locate := changes.locate_eq_ok.mpr h.locate
  content := by rw [changes.elsewhere _ away, h.content]

theorem backupName_injective {name name' : String} (h : backupName name = backupName name') :
    name = name' := by
  have same := congrArg String.toList h
  simp only [backupName, String.toList_append] at same
  exact String.toList_inj.mp (List.append_cancel_right (List.append_cancel_right same))

theorem backupName_ne_temporaryName {name' : String} (mem : name ∈ fileNames)
    (mem' : name' ∈ fileNames) : backupName name ≠ temporaryName name' :=
  (by decide : ∀ name ∈ fileNames, ∀ name' ∈ fileNames, backupName name ≠ temporaryName name')
    name mem name' mem'

/-- A file that is there is copied to its backup. -/
theorem Located.backedUp (h : s.Located t base) (mem : name ∈ fileNames)
    (done : Store.backUp t (s.path name) = (t', none)) {content : List Symbol}
    (there : t.entry? (base ++ [name]) = some (.file content)) :
    s.BackedUp base name content t' := by
  have located := h.locate name mem
  have found := FileTree.find_eq_ok.mpr ⟨_, located, there⟩
  unfold Store.backUp at done
  rw [if_pos (FileTree.pathExists_iff.mpr ⟨_, found⟩)] at done
  obtain ⟨entry, found', copied⟩ := bind_eq_ok.mp (attempt_eq_none.mp done)
  cases found.symm.trans found'
  obtain ⟨backup, copy, changes⟩ := h.write (s.isIn_backupPath (isName_of_mem mem))
    (isName_backupName (isName_of_mem mem)) copied
  exact ⟨changes.locate_eq_ok.mpr backup, copy⟩

/-- Files are backed up one after another, and each backup stays when the next is written. -/
theorem Located.inOrder_backUp {documents : List (String × Value)}
    (names : ∀ d ∈ documents, d.1 ∈ fileNames) (distinct : (documents.map Prod.fst).Nodup)
    (h : s.Located t base)
    (done : inOrder (documents.map fun d files => Store.backUp files (s.path d.1)) t = (t', none)) :
    t.Changes (fun place => ∃ d ∈ documents, place = base ++ [backupName d.1]) t' ∧
      ∀ d ∈ documents, ∀ content, t.entry? (base ++ [d.1]) = some (.file content) →
        s.BackedUp base d.1 content t' := by
  induction documents generalizing t with
  | nil =>
    cases done
    exact ⟨.refl h.wellFormed, nofun⟩
  | cons d rest ih =>
    obtain ⟨mem, names⟩ := List.forall_mem_cons.mp names
    obtain ⟨once, distinct⟩ := List.nodup_cons.mp distinct
    rw [List.map_cons, inOrder] at done
    rcases step : Store.backUp t (s.path d.1) with ⟨t₁, - | e⟩
    · rw [step] at done
      have changes := h.backUp_changes mem
      rw [step] at changes
      obtain ⟨later, others⟩ := ih names distinct (h.changes changes) done
      refine ⟨?_, List.forall_mem_cons.mpr ⟨fun content there => ?_,
        fun d' mem' content there => ?_⟩⟩
      · refine (changes.mono fun place same => ⟨d, List.mem_cons_self .., same⟩).trans
          (later.mono fun place => ?_)
        rintro ⟨d', mem', same⟩
        exact ⟨d', List.mem_cons_of_mem _ mem', same⟩
      · refine (h.backedUp mem step there).changes later ?_
        rintro ⟨d', mem', same⟩
        have same := backupName_injective (List.singleton_inj.mp (List.append_cancel_left same))
        exact once (same ▸ List.mem_map_of_mem mem')
      · refine others d' mem' content ?_
        rw [changes.elsewhere _ fun same => beside_backup mem d'.1 (names d' mem') same.symm]
        exact there
    · rw [step] at done
      cases done

/-! ## What a save leaves -/

/-- After a save the data that was saved is loaded, each node with the id that it is listed under.
The backups of the files that were there hold what these held, and no temporary file is there. -/
structure Kept (s : Store) (c : Contents) (t t' : FileTree) : Prop where
  nodes : s.loadNodes t' = .ok (c.nodes.mapValues fun id node => { node with id })
  provenance : s.loadProvenance t' = .ok c.provenance
  guides : s.loadGuides t' = .ok c.guides
  backup : ∀ name ∈ fileNames, t.pathExists (s.path name) = true → ∃ content,
    t.read (s.path name) = .ok content ∧ t'.read (backupPath (s.path name)) = .ok content
  noTemporary : ∀ name ∈ fileNames, t'.pathExists (temporaryPath (s.path name)) = false
  wellFormed : t'.WellFormed

/-- What is left when backups were made, temporary files were written, and these were moved. -/
theorem Located.exists_of_inOrder (h : s.Located t base)
    (done : inOrder ((contentsOf c).map (fun d files => Store.backUp files (s.path d.1)) ++
      ((contentsOf c).map (fun d files => Store.writeTemporary files (s.path d.1, d.2)) ++
        (contentsOf c).map fun d files => Store.putInPlace files (s.path d.1))) t = (t', none)) :
    s.Located t' base ∧ ∀ d ∈ contentsOf c, Placed base d t' ∧
      t'.locate (temporaryPath (s.path d.1)) = .ok (base ++ [temporaryName d.1]) ∧
      ∀ content, t.entry? (base ++ [d.1]) = some (.file content) →
        s.BackedUp base d.1 content t' := by
  have names := contentsOf_names c
  have distinct := contentsOf_nodup c
  obtain ⟨t₁, copying, done⟩ := inOrder_append_eq_none.mp done
  obtain ⟨t₂, writing, moving⟩ := inOrder_append_eq_none.mp done
  obtain ⟨copies, copied⟩ := h.inOrder_backUp names distinct copying
  have h₁ := h.changes copies
  obtain ⟨writes, ready⟩ := h₁.inOrder_writeTemporary names distinct writing
  have h₂ := h₁.changes writes
  obtain ⟨t₃, moved, moves, placed⟩ := h₂.inOrder_putInPlace names distinct (ready rfl)
  cases moved.symm.trans moving
  refine ⟨h₂.changes moves, fun d mem => ⟨placed d mem, ?_, fun content there => ?_⟩⟩
  · exact moves.locate_eq_ok.mpr (ready rfl d mem).locate
  · -- a backup is neither a temporary file nor one of the three files
    refine ((copied d mem content there).changes writes ?_).changes moves ?_
    · rintro ⟨d', mem', same⟩
      exact backupName_ne_temporaryName (names d mem) (names d' mem')
        (List.singleton_inj.mp (List.append_cancel_left same))
    · rintro ⟨d', mem', same | same⟩
      · exact backupName_ne_temporaryName (names d mem) (names d' mem')
          (List.singleton_inj.mp (List.append_cancel_left same))
      · exact beside_backup (names d mem) d'.1 (names d' mem') same

/-- **Every save that succeeds** leaves the data that was saved, the backups of what was there
before, and no temporary file. -/
theorem save_kept (wellFormed : t.WellFormed) (saved : s.save c t = (t', none)) :
    s.Kept c t t' := by
  rw [save_eq, List.cons_append, inOrder] at saved
  rcases making : attempt t s.dir (t.createDirectories s.dir) with ⟨t₁, - | e⟩
  · rw [making] at saved
    have grown := FileTree.grows_createDirectories wellFormed (attempt_eq_none.mp making)
    obtain ⟨base, located⟩ := located_of_inOrder grown.wellFormed saved
    obtain ⟨located', left⟩ := located.exists_of_inOrder saved
    obtain ⟨nodes, provenance, guides⟩ :=
      located'.load_documents fun d mem => (left d mem).1.content
    have each (name : String) (mem : name ∈ fileNames) : ∃ d ∈ contentsOf c, d.1 = name :=
      List.mem_map.mp (show name ∈ (contentsOf c).map Prod.fst from mem)
    refine ⟨nodes, provenance, guides, fun name mem there => ?_, fun name mem => ?_,
      located'.wellFormed⟩
    · obtain ⟨d, among, rfl⟩ := each name mem
      obtain ⟨entry, found⟩ := FileTree.pathExists_iff.mp there
      obtain ⟨place, at₀, entry₀⟩ := FileTree.find_eq_ok.mp found
      cases (located.locate d.1 mem).symm.trans (grown.locate at₀)
      have entry₁ := grown.kept _ _ entry₀
      cases entry with
      | directory => exact absurd entry₁ (located.free d.1 mem)
      | file content =>
        obtain ⟨backup, copy⟩ := (left d among).2.2 content entry₁
        exact ⟨content, FileTree.read_eq_ok.mpr ⟨_, at₀, entry₀⟩,
          FileTree.read_eq_ok.mpr ⟨_, backup, copy⟩⟩
    · obtain ⟨d, among, rfl⟩ := each name mem
      obtain ⟨placed, temporary, -⟩ := left d among
      refine Bool.eq_false_iff.mpr fun there => ?_
      obtain ⟨entry, found⟩ := FileTree.pathExists_iff.mp there
      obtain ⟨place, located, there⟩ := FileTree.find_eq_ok.mp found
      cases temporary.symm.trans located
      rw [placed.gone] at there
      cases there
  · rw [making] at saved
    cases saved

/-! ## Saving again and again -/

/-- Saves that succeed, one after another. -/
inductive Saves (s : Store) : FileTree → List Contents → FileTree → Prop where
  | start {t : FileTree} : Saves s t [] t
  | save {t t' t'' : FileTree} {before : List Contents} {c : Contents} :
    Saves s t before t' → s.save c t' = (t'', none) → Saves s t (before ++ [c]) t''

theorem Saves.wellFormed {before : List Contents} (saves : s.Saves t before t')
    (wellFormed : t.WellFormed) : t'.WellFormed := by
  induction saves with
  | start => exact wellFormed
  | save _ saved ih => exact (save_kept ih saved).wellFormed

/-- **Saved data is read back and backed up.** However many saves succeeded before, and whatever
they saved, after the next that succeeds the data just saved is loaded, the backup of each file that
was there holds what the file held, and no temporary file is there. -/
theorem Saves.kept_of_save {before : List Contents} (wellFormed : t.WellFormed)
    (saves : s.Saves t before t') (saved : s.save c t' = (t'', none)) : s.Kept c t' t'' :=
  save_kept (saves.wellFormed wellFormed) saved

/-- A registry in a directory that is there. -/
def counterStore : Store := ⟨"registry"⟩

/-- The files of a registry in which nothing was saved yet. -/
def counterFiles : FileTree := ⟨[], [(["registry"], .directory)]⟩

theorem clear_counter : counterStore.Clear counterFiles ["registry"] :=
  clear_of_free (by decide) ⟨by decide, by decide⟩ arePaths_registry (by decide)

/-- A counter that a package serves, listed under another id than its own. -/
def servedCounter : Contents where
  nodes := NameMap.empty.insert "desk" ((Node.ofId "counter").withAction "say \"hello\""
    ⟨.package "mail" "send", "Line\nbreak \\ é", some "[desk]"⟩)
  provenance := Provenance.empty.record "desk" "say \"hello\"" "mail"
  guides := GuideOwners.empty.record "desk" "Be brief" "mail"

/-- A counter at which an agent sits. -/
def agentCounter : Contents :=
  ⟨NameMap.empty.insert "desk" (Node.agent "counter"), .empty, .empty⟩

/-- The second save backs up what the first one wrote. -/
theorem Saves.kept_of_save_counter : counterFiles.WellFormed ∧
    ∃ t₁ t₂, counterStore.Saves counterFiles [servedCounter] t₁ ∧
      counterStore.save agentCounter t₁ = (t₂, none) ∧
      t₁.pathExists (counterStore.path "nodes.json") = true ∧
      counterStore.Kept agentCounter t₁ t₂ := by
  obtain ⟨t₁, first, clear₁⟩ := clear_counter.exists_save servedCounter
  obtain ⟨t₂, second, -⟩ := clear₁.exists_save agentCounter
  have written := ((clear_counter.save servedCounter first).2 rfl).2
    ("nodes.json", nodesValue servedCounter.nodes) (.head _)
  have there : t₁.pathExists (counterStore.path "nodes.json") = true :=
    FileTree.pathExists_iff.mpr ⟨_, FileTree.find_eq_ok.mpr
      ⟨_, clear₁.locate "nodes.json" (by decide), written⟩⟩
  have saves : counterStore.Saves counterFiles [servedCounter] t₁ := Saves.start.save first
  exact ⟨clear_counter.wellFormed, t₁, t₂, saves, second, there,
    Saves.kept_of_save clear_counter.wellFormed saves second⟩

end Store

end CapabilityPipeline
