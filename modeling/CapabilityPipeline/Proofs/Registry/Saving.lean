import CapabilityPipeline.Proofs.Files.Tree
import CapabilityPipeline.Registry.Store

/-!
# Saving all files or none

Saving the files of a registry first writes backups and temporary files, and then only moves the
temporary files to their places. All that can fail comes before the first move: a save that fails
leaves the three files as they were, and one that succeeds writes all three.

Results:

* `Store.Located`: the files of a registry have their places in a directory that is there.
* `Store.located_of_loadContents`: so they have when something was loaded from them.
* `Store.Located.save`: a save writes all three files or changes none of them.
* `Store.SameFiles`: nothing else is loaded when the files read the same.
-/

namespace CapabilityPipeline.Store

open Json (Tree Value)
open Text (Symbol)

/-! ## Places -/

/-- The names of the files of a registry. -/
def fileNames : List String :=
  ["nodes.json", "provenance.json", "guides.json"]

/-- The name of the backup of a file. -/
def backupName (name : String) : String := name ++ "." ++ "bak"

/-- The name of the temporary file of a file. -/
def temporaryName (name : String) : String := name ++ "." ++ "tmp"

theorem isName_of_mem {name : String} (h : name ∈ fileNames) : Path.IsName name := by
  simp only [fileNames, List.mem_cons, List.not_mem_nil, or_false] at h
  rcases h with rfl | rfl | rfl <;> exact ⟨by decide, 'n', by decide, by decide⟩

theorem isName_backupName {name : String} (h : Path.IsName name) : Path.IsName (backupName name) :=
  h.withSuffix ⟨by decide, 'k', by decide, by decide⟩

theorem isName_temporaryName {name : String} (h : Path.IsName name) :
    Path.IsName (temporaryName name) :=
  h.withSuffix ⟨by decide, 'p', by decide, by decide⟩

/-- The path of a file of a registry. -/
def path (s : Store) (name : String) : String :=
  Path.join s.dir name

theorem isIn_path (s : Store) {name : String} (h : Path.IsName name) :
    Path.IsIn s.dir (s.path name) name :=
  Path.isIn_join s.dir h

theorem isIn_backupPath (s : Store) {name : String} (h : Path.IsName name) :
    Path.IsIn s.dir (backupPath (s.path name)) (backupName name) :=
  Path.isIn_withSuffix (s.isIn_path h) h ⟨by decide, 'k', by decide, by decide⟩

theorem isIn_temporaryPath (s : Store) {name : String} (h : Path.IsName name) :
    Path.IsIn s.dir (temporaryPath (s.path name)) (temporaryName name) :=
  Path.isIn_withSuffix (s.isIn_path h) h ⟨by decide, 'p', by decide, by decide⟩

/-- The directory of a registry is there, and a file could be at each of its three places. -/
structure Located (s : Store) (t : FileTree) (base : Place) : Prop where
  wellFormed : t.WellFormed
  reached : t.Reached s.dir base
  locate : ∀ name ∈ fileNames, t.locate (s.path name) = .ok (base ++ [name])
  free : ∀ name ∈ fileNames, t.entry? (base ++ [name]) ≠ some .directory

variable {s : Store} {t t' : FileTree} {base : Place} {places : Place → Prop}

theorem Located.changes (h : s.Located t base) (changes : t.Changes places t') :
    s.Located t' base where
  wellFormed := changes.wellFormed
  reached := changes.reached h.reached
  locate := fun name mem => changes.locate_eq_ok.mpr (h.locate name mem)
  free := fun name mem directory => h.free name mem ((changes.directory _).mp directory)

/-! ## Steps that change no file of the registry -/

/-- A place that is not one of the three files. -/
def Beside (base : Place) (place : Place) : Prop :=
  ∀ name ∈ fileNames, place ≠ base ++ [name]

theorem beside_concat {name : String} (h : name ∉ fileNames) : Beside base (base ++ [name]) := by
  intro name' mem same
  rw [List.singleton_inj.mp (List.append_cancel_left same)] at h
  exact h mem

theorem beside_backup {name : String} (h : name ∈ fileNames) :
    Beside base (base ++ [backupName name]) :=
  beside_concat ((by decide : ∀ name ∈ fileNames, backupName name ∉ fileNames) name h)

theorem beside_temporary {name : String} (h : name ∈ fileNames) :
    Beside base (base ++ [temporaryName name]) :=
  beside_concat ((by decide : ∀ name ∈ fileNames, temporaryName name ∉ fileNames) name h)

/-- What an attempt does when it succeeds, it does or nothing is done. -/
theorem attempt_changes (wellFormed : t.WellFormed) {path : String}
    {result : Except FileError FileTree}
    (h : ∀ t', result = .ok t' → t.Changes places t') :
    t.Changes places (attempt t path result).1 := by
  cases result with
  | error e => exact .refl wellFormed
  | ok t' => exact h t' rfl

/-- What is written into the directory of a registry shows where the directory is. -/
theorem write_inside (wellFormed : t.WellFormed) {path name : String}
    (inside : Path.IsIn s.dir path name) (isName : Path.IsName name) {content : List Symbol}
    (written : t.write path content = .ok t') :
    ∃ base, t.Reached s.dir base ∧ t.locate path = .ok (base ++ [name]) ∧
      t'.entry? (base ++ [name]) = some (.file content) ∧ t.Changes (· = base ++ [name]) t' := by
  have plain := inside.endsAfterName_eq isName
  have same := inside.withoutLastSlashes_eq isName
  obtain ⟨place, located, -⟩ := bind_eq_ok.mp written
  rw [same] at located
  obtain ⟨base, reached, rfl⟩ := FileTree.reached_of_locate inside isName located
  exact ⟨base, reached, located,
    FileTree.write_changes wellFormed (same.symm ▸ located) plain written⟩

theorem Located.write (h : s.Located t base) {path name : String}
    (inside : Path.IsIn s.dir path name) (isName : Path.IsName name) {content : List Symbol}
    (written : t.write path content = .ok t') :
    t.locate path = .ok (base ++ [name]) ∧ t'.entry? (base ++ [name]) = some (.file content) ∧
      t.Changes (· = base ++ [name]) t' := by
  obtain ⟨base', reached, done⟩ := write_inside h.wellFormed inside isName written
  rwa [reached.unique h.reached] at done

theorem Located.createDirectories (h : s.Located t base) :
    t.Changes (Beside base) (attempt t s.dir (t.createDirectories s.dir)).1 := by
  refine attempt_changes h.wellFormed fun t' made => ?_
  rw [FileTree.createDirectories_of_reached h.reached made]
  exact .refl h.wellFormed

/-- A backup is all that backing up a file changes, however far it comes. -/
theorem Located.backUp_changes (h : s.Located t base) {name : String} (mem : name ∈ fileNames) :
    t.Changes (· = base ++ [backupName name]) (backUp t (s.path name)).1 := by
  have inside := s.isIn_backupPath (isName_of_mem mem)
  have isName := isName_backupName (isName_of_mem mem)
  unfold Store.backUp
  split
  · refine attempt_changes h.wellFormed fun t' copied => ?_
    obtain ⟨entry, -, copied⟩ := bind_eq_ok.mp copied
    split at copied
    · exact (h.write inside isName copied).2.2
    · cases copied
  · exact .refl h.wellFormed

theorem Located.backUp (h : s.Located t base) {name : String} (mem : name ∈ fileNames) :
    t.Changes (Beside base) (backUp t (s.path name)).1 := by
  refine (h.backUp_changes mem).mono ?_
  rintro _ rfl
  exact beside_backup mem

/-! ## Temporary files -/

/-- The temporary file of a document is there and holds it. -/
structure Ready (s : Store) (base : Place) (d : String × Value) (t : FileTree) : Prop where
  locate : t.locate (temporaryPath (s.path d.1)) = .ok (base ++ [temporaryName d.1])
  content : t.entry? (base ++ [temporaryName d.1]) = some (.file (Symbol.ofText d.2.pretty))

theorem Ready.changes {d : String × Value} (h : s.Ready base d t) (changes : t.Changes places t')
    (away : ¬ places (base ++ [temporaryName d.1])) : s.Ready base d t' where
  locate := changes.locate_eq_ok.mpr h.locate
  content := by rw [changes.elsewhere _ away, h.content]

theorem temporaryName_injective {name name' : String}
    (h : temporaryName name = temporaryName name') : name = name' := by
  have same := congrArg String.toList h
  simp only [temporaryName, String.toList_append] at same
  exact String.toList_inj.mp (List.append_cancel_right (List.append_cancel_right same))

theorem temporaryPlace_injective {name name' : String}
    (h : base ++ [temporaryName name] = base ++ [temporaryName name']) : name = name' :=
  temporaryName_injective (List.singleton_inj.mp (List.append_cancel_left h))

/-- What writing a temporary file does when it succeeds, and how far it can go when it fails. -/
theorem Located.writeTemporary (h : s.Located t base) {d : String × Value}
    (mem : d.1 ∈ fileNames) :
    t.Changes (· = base ++ [temporaryName d.1]) (writeTemporary t (s.path d.1, d.2)).1 ∧
      ((Store.writeTemporary t (s.path d.1, d.2)).2 = none →
        s.Ready base d (Store.writeTemporary t (s.path d.1, d.2)).1) := by
  have inside := s.isIn_temporaryPath (isName_of_mem mem)
  have isName := isName_temporaryName (isName_of_mem mem)
  unfold Store.writeTemporary
  dsimp only
  cases result : t.write (temporaryPath (s.path d.1)) (Symbol.ofText d.2.pretty) with
  | error e => exact ⟨.refl h.wellFormed, fun done => by cases done⟩
  | ok t' =>
    obtain ⟨located, there, changes⟩ := h.write inside isName result
    exact ⟨changes, fun _ => ⟨changes.locate_eq_ok.mpr located, there⟩⟩

/-- A document is in its place, and its temporary file is gone. -/
structure Placed (base : Place) (d : String × Value) (t : FileTree) : Prop where
  content : t.entry? (base ++ [d.1]) = some (.file (Symbol.ofText d.2.pretty))
  gone : t.entry? (base ++ [temporaryName d.1]) = none

/-- A temporary file that is there is moved to its place. -/
theorem Located.putInPlace (h : s.Located t base) {d : String × Value} (mem : d.1 ∈ fileNames)
    (ready : s.Ready base d t) :
    ∃ t', putInPlace t (s.path d.1) = (t', none) ∧ Placed base d t' ∧
      t.Changes (fun place => place = base ++ [temporaryName d.1] ∨ place = base ++ [d.1]) t' := by
  have inside := s.isIn_path (isName_of_mem mem)
  have different : temporaryName d.1 ≠ d.1 :=
    (by decide : ∀ name ∈ fileNames, temporaryName name ≠ name) d.1 mem
  obtain ⟨t', moved, there, gone, changes⟩ := FileTree.rename_eq_ok h.wellFormed different
    ready.locate (h.locate d.1 mem) (inside.withoutLastSlashes_eq (isName_of_mem mem))
    (inside.endsAfterName_eq (isName_of_mem mem)) ready.content (h.free d.1 mem)
  refine ⟨t', ?_, ⟨there, gone⟩, changes⟩
  unfold Store.putInPlace
  rw [moved]
  rfl

/-! ## Steps in order -/

theorem inOrder_append (first later : List (FileTree → FileTree × Option StoreError))
    (t : FileTree) : inOrder (first ++ later) t =
      match inOrder first t with
      | (t', none) => inOrder later t'
      | failed => failed := by
  induction first generalizing t with
  | nil => rfl
  | cons step rest ih =>
    rw [List.cons_append, inOrder, inOrder]
    rcases step t with ⟨t', - | e⟩
    · exact ih t'
    · rfl

/-- What every step leaves alone, the steps in order leave alone. -/
theorem Located.inOrder_changes {steps : List (FileTree → FileTree × Option StoreError)}
    (kept : ∀ step ∈ steps, ∀ t, s.Located t base → t.Changes places (step t).1)
    (h : s.Located t base) : t.Changes places (inOrder steps t).1 := by
  induction steps generalizing t with
  | nil => exact .refl h.wellFormed
  | cons step rest ih =>
    obtain ⟨first, later⟩ := List.forall_mem_cons.mp kept
    have changes := first t h
    rw [inOrder]
    rcases result : step t with ⟨t', - | e⟩
    · rw [result] at changes
      exact changes.trans (ih later (h.changes changes))
    · rw [result] at changes
      exact changes

/-- Temporary files are written one after another, and each stays when the next is written. -/
theorem Located.inOrder_writeTemporary {documents : List (String × Value)}
    (names : ∀ d ∈ documents, d.1 ∈ fileNames) (distinct : (documents.map Prod.fst).Nodup)
    (h : s.Located t base) {failure : Option StoreError}
    (result : inOrder (documents.map fun d files =>
      Store.writeTemporary files (s.path d.1, d.2)) t = (t', failure)) :
    t.Changes (fun place => ∃ d ∈ documents, place = base ++ [temporaryName d.1]) t' ∧
      (failure = none → ∀ d ∈ documents, s.Ready base d t') := by
  induction documents generalizing t with
  | nil =>
    cases result
    exact ⟨.refl h.wellFormed, fun _ _ none => by cases none⟩
  | cons d rest ih =>
    obtain ⟨mem, names⟩ := List.forall_mem_cons.mp names
    obtain ⟨once, distinct⟩ := List.nodup_cons.mp distinct
    obtain ⟨changes, written⟩ := h.writeTemporary mem
    have first : t.Changes (fun place => ∃ d' ∈ d :: rest, place = base ++ [temporaryName d'.1])
        (Store.writeTemporary t (s.path d.1, d.2)).1 :=
      changes.mono fun place same => ⟨d, List.mem_cons_self .., same⟩
    rw [List.map_cons, inOrder] at result
    rcases step : Store.writeTemporary t (s.path d.1, d.2) with ⟨t₁, - | e⟩
    · rw [step] at result changes written first
      obtain ⟨later, ready⟩ := ih names distinct (h.changes changes) result
      refine ⟨first.trans (later.mono fun place => ?_), fun done => ?_⟩
      · rintro ⟨d', hd', same⟩
        exact ⟨d', List.mem_cons_of_mem _ hd', same⟩
      · refine List.forall_mem_cons.mpr ⟨(written rfl).changes later ?_, ready done⟩
        rintro ⟨d', hd', same⟩
        exact once (temporaryPlace_injective same ▸ List.mem_map_of_mem hd')
    · rw [step] at result first
      cases result
      exact ⟨first, fun done => by cases done⟩

/-- Temporary files that are there are moved one after another, and no move fails. -/
theorem Located.inOrder_putInPlace {documents : List (String × Value)}
    (names : ∀ d ∈ documents, d.1 ∈ fileNames) (distinct : (documents.map Prod.fst).Nodup)
    (h : s.Located t base) (ready : ∀ d ∈ documents, s.Ready base d t) :
    ∃ t', inOrder (documents.map fun d files => Store.putInPlace files (s.path d.1)) t =
        (t', none) ∧
      t.Changes (fun place => ∃ d ∈ documents,
        place = base ++ [temporaryName d.1] ∨ place = base ++ [d.1]) t' ∧
      ∀ d ∈ documents, Placed base d t' := by
  induction documents generalizing t with
  | nil => exact ⟨t, rfl, .refl h.wellFormed, fun _ none => by cases none⟩
  | cons d rest ih =>
    obtain ⟨mem, names⟩ := List.forall_mem_cons.mp names
    obtain ⟨once, distinct⟩ := List.nodup_cons.mp distinct
    obtain ⟨readyFirst, readyRest⟩ := List.forall_mem_cons.mp ready
    obtain ⟨t₁, moved, first, changes⟩ := h.putInPlace mem readyFirst
    have apart (d' : String × Value) (hd' : d' ∈ rest) : d'.1 ≠ d.1 := fun same =>
      once (same ▸ List.mem_map_of_mem hd')
    obtain ⟨t', result, later, placed⟩ := ih names distinct (h.changes changes) fun d' hd' => by
      refine (readyRest d' hd').changes changes ?_
      rintro (same | same)
      · exact apart d' hd' (temporaryPlace_injective same)
      · exact beside_temporary (names d' hd') d.1 mem same
    refine ⟨t', ?_, ?_, List.forall_mem_cons.mpr ⟨⟨?_, ?_⟩, placed⟩⟩
    · rw [List.map_cons, inOrder, moved]
      exact result
    · refine (changes.mono fun place same => ⟨d, List.mem_cons_self .., same⟩).trans
        (later.mono fun place => ?_)
      rintro ⟨d', hd', same⟩
      exact ⟨d', List.mem_cons_of_mem _ hd', same⟩
    · rw [later.elsewhere, first.content]
      rintro ⟨d', hd', same | same⟩
      · exact beside_temporary (names d' hd') d.1 mem same.symm
      · exact apart d' hd' (List.singleton_inj.mp (List.append_cancel_left same.symm))
    · rw [later.elsewhere, first.gone]
      rintro ⟨d', hd', same | same⟩
      · exact apart d' hd' (temporaryPlace_injective same.symm)
      · exact beside_temporary mem d'.1 (names d' hd') same

/-! ## Saving -/

/-- What the three files will hold, by their names. -/
def contentsOf (c : Contents) : List (String × Value) :=
  [("nodes.json", nodesValue c.nodes), ("provenance.json", c.provenance.toValue),
    ("guides.json", c.guides.toValue)]

theorem contentsOf_names (c : Contents) : ∀ d ∈ contentsOf c, d.1 ∈ fileNames := by
  simp [contentsOf, fileNames]

theorem contentsOf_nodup (c : Contents) : ((contentsOf c).map Prod.fst).Nodup := by
  simp [contentsOf]

/-- The three phases of a save. -/
theorem save_eq (s : Store) (c : Contents) (t : FileTree) : s.save c t =
    inOrder (((fun files => attempt files s.dir (files.createDirectories s.dir)) ::
        (contentsOf c).map fun d files => backUp files (s.path d.1)) ++
      ((contentsOf c).map (fun d files => writeTemporary files (s.path d.1, d.2)) ++
        (contentsOf c).map fun d files => putInPlace files (s.path d.1))) t := by
  have documents : s.documents c = (contentsOf c).map fun d => (s.path d.1, d.2) := rfl
  unfold save
  simp only [documents, List.map_map, Function.comp_def, List.append_assoc, List.cons_append,
    List.nil_append]

/-- **A save writes all three files or changes none of them.** -/
theorem Located.save (h : s.Located t base) (c : Contents) {failure : Option StoreError}
    (result : s.save c t = (t', failure)) :
    (failure ≠ none → t.Changes (Beside base) t') ∧
      (failure = none → t.Changes (fun _ => True) t' ∧ ∀ d ∈ contentsOf c,
        t'.entry? (base ++ [d.1]) = some (.file (Symbol.ofText d.2.pretty))) := by
  have names := contentsOf_names c
  have distinct := contentsOf_nodup c
  rw [save_eq, inOrder_append] at result
  have prepared : t.Changes (Beside base)
      (inOrder ((fun files => attempt files s.dir (files.createDirectories s.dir)) ::
        (contentsOf c).map fun d files => Store.backUp files (s.path d.1)) t).1 := by
    refine h.inOrder_changes (List.forall_mem_cons.mpr
      ⟨fun t h => h.createDirectories, fun step mem t h => ?_⟩)
    obtain ⟨d, hd, rfl⟩ := List.mem_map.mp mem
    exact h.backUp (names d hd)
  split at result
  · next t₁ preparing =>
    rw [preparing] at prepared
    rw [inOrder_append] at result
    rcases writing : inOrder ((contentsOf c).map fun d files =>
      Store.writeTemporary files (s.path d.1, d.2)) t₁ with ⟨t₂, - | e⟩
    · rw [writing] at result
      obtain ⟨written, ready⟩ :=
        (h.changes prepared).inOrder_writeTemporary names distinct writing
      obtain ⟨t₃, moving, moved, placed⟩ :=
        ((h.changes prepared).changes written).inOrder_putInPlace names distinct (ready rfl)
      cases moving.symm.trans result
      refine ⟨fun failed => absurd rfl failed, fun _ => ⟨?_, fun d hd => (placed d hd).content⟩⟩
      exact ((prepared.mono fun _ _ => trivial).trans (written.mono fun _ _ => trivial)).trans
        (moved.mono fun _ _ => trivial)
    · rw [writing] at result
      cases result
      obtain ⟨written, -⟩ := (h.changes prepared).inOrder_writeTemporary names distinct writing
      refine ⟨fun _ => prepared.trans (written.mono ?_), fun done => by cases done⟩
      rintro _ ⟨d, hd, rfl⟩
      exact beside_temporary (names d hd)
  · next failed =>
    rw [result] at prepared
    refine ⟨fun _ => prepared, ?_⟩
    rintro rfl
    exact absurd result (failed t')

/-! ## Loading -/

theorem load_eq_ok {α : Type} {path : String} {absent : α} {shape : Json.Shape}
    {read : Tree → Option α} {a : α} :
    load t path absent shape read = .ok a ↔
      (t.read path = .error .notFound ∧ a = absent) ∨
        ∃ content, t.read path = .ok content ∧ Json.read? read content = some a := by
  unfold load
  split
  · next missing =>
    rw [missing]
    simp [eq_comm]
  · next e notMissing failed =>
    rw [failed]
    simp [show e ≠ .notFound from notMissing]
  · next content found =>
    rw [found, mapError_eq_ok, Json.decode]
    split
    · next a' data => simp [data]
    · next none => simp [none]

/-- What is loaded from a file depends only on what is read. -/
theorem load_congr {α : Type} {path : String} (h : t'.read path = t.read path) (absent : α)
    (shape : Json.Shape) (read : Tree → Option α) :
    load t' path absent shape read = load t path absent shape read := by
  unfold load
  rw [h]

theorem loadContents_eq_ok {c : Contents} :
    s.loadContents t = .ok c ↔ s.loadNodes t = .ok c.nodes ∧
      s.loadProvenance t = .ok c.provenance ∧ s.loadGuides t = .ok c.guides := by
  unfold loadContents
  constructor
  · intro h
    obtain ⟨nodes, hn, h⟩ := bind_eq_ok.mp h
    obtain ⟨provenance, hp, h⟩ := bind_eq_ok.mp h
    obtain ⟨guides, hg, h⟩ := bind_eq_ok.mp h
    cases h
    exact ⟨hn, hp, hg⟩
  · rintro ⟨hn, hp, hg⟩
    exact bind_eq_ok.mpr ⟨_, hn, bind_eq_ok.mpr ⟨_, hp, bind_eq_ok.mpr ⟨_, hg, rfl⟩⟩⟩

theorem loadSnapshot_eq_ok {snapshot : Snapshot} :
    s.loadSnapshot t = .ok snapshot ↔
      s.loadNodes t = .ok snapshot.nodes ∧ s.loadProvenance t = .ok snapshot.provenance := by
  unfold loadSnapshot
  constructor
  · intro h
    obtain ⟨nodes, hn, h⟩ := bind_eq_ok.mp h
    obtain ⟨provenance, hp, h⟩ := bind_eq_ok.mp h
    cases h
    exact ⟨hn, hp⟩
  · rintro ⟨hn, hp⟩
    exact bind_eq_ok.mpr ⟨_, hn, bind_eq_ok.mpr ⟨_, hp, rfl⟩⟩

/-- Two trees in which the files of a registry read the same. -/
def SameFiles (s : Store) (t t' : FileTree) : Prop :=
  ∀ name ∈ fileNames, t'.read (s.path name) = t.read (s.path name)

theorem SameFiles.loadContents (h : s.SameFiles t t') : s.loadContents t' = s.loadContents t := by
  have nodes : s.loadNodes t' = s.loadNodes t := load_congr (h "nodes.json" (by decide)) ..
  have provenance : s.loadProvenance t' = s.loadProvenance t :=
    load_congr (h "provenance.json" (by decide)) ..
  have guides : s.loadGuides t' = s.loadGuides t := load_congr (h "guides.json" (by decide)) ..
  unfold Store.loadContents
  rw [nodes, provenance, guides]

theorem SameFiles.loadSnapshot (h : s.SameFiles t t') : s.loadSnapshot t' = s.loadSnapshot t := by
  have nodes : s.loadNodes t' = s.loadNodes t := load_congr (h "nodes.json" (by decide)) ..
  have provenance : s.loadProvenance t' = s.loadProvenance t :=
    load_congr (h "provenance.json" (by decide)) ..
  unfold Store.loadSnapshot
  rw [nodes, provenance]

/-- What changes beside the files of a registry does not change what they hold. -/
theorem Located.sameFiles (h : s.Located t base) (changes : t.Changes (Beside base) t') :
    s.SameFiles t t' := by
  intro name mem
  have located := h.locate name mem
  rw [FileTree.read_of_locate located,
    FileTree.read_of_locate (changes.locate_eq_ok.mpr located), changes.elsewhere]
  exact fun beside => beside name mem rfl

/-- A file from which something was loaded has its place in the directory. -/
theorem located_of_load {α : Type} (reached : t.Reached s.dir base) {name : String}
    (mem : name ∈ fileNames) {absent a : α} {shape : Json.Shape} {read : Tree → Option α}
    (h : load t (s.path name) absent shape read = .ok a) :
    t.locate (s.path name) = .ok (base ++ [name]) ∧
      t.entry? (base ++ [name]) ≠ some .directory := by
  have noError {e : FileError} (other : e ≠ .notFound) : t.read (s.path name) ≠ .error e := by
    intro failed
    rcases load_eq_ok.mp h with ⟨missing, -⟩ | ⟨content, found, -⟩
    · rw [failed] at missing
      cases missing
      exact other rfl
    · rw [failed] at found
      cases found
  have isName := isName_of_mem mem
  rcases reached.locate_eq (s.isIn_path isName) isName with located | ⟨e, other, failed⟩
  · refine ⟨located, fun directory => noError (e := .isADirectory) (by decide) ?_⟩
    rw [FileTree.read_of_locate located, directory]
  · refine absurd ?_ (noError other)
    unfold FileTree.read FileTree.find
    rw [failed]
    rfl

theorem reached_of_load {α : Type} {name : String} (mem : name ∈ fileNames) {absent a : α}
    {shape : Json.Shape} {read : Tree → Option α}
    (h : load t (s.path name) absent shape read = .ok a) (some : a ≠ absent) :
    ∃ base, t.Reached s.dir base := by
  have isName := isName_of_mem mem
  rcases load_eq_ok.mp h with ⟨-, nothing⟩ | ⟨content, found, -⟩
  · exact absurd nothing some
  · obtain ⟨place, located, -⟩ := FileTree.read_eq_ok.mp found
    obtain ⟨base, reached, -⟩ := FileTree.reached_of_locate (s.isIn_path isName) isName
      located
    exact ⟨base, reached⟩

/-- **The files have their places when something was loaded from them.** -/
theorem located_of_loadContents (wellFormed : t.WellFormed) {c : Contents}
    (h : s.loadContents t = .ok c) (some : c.nodes ≠ .empty ∨ c.provenance ≠ .empty) :
    ∃ base, s.Located t base := by
  obtain ⟨nodes, provenance, guides⟩ := loadContents_eq_ok.mp h
  obtain ⟨base, reached⟩ : ∃ base, t.Reached s.dir base := by
    rcases some with some | some
    · exact reached_of_load (show "nodes.json" ∈ fileNames by decide) nodes some
    · exact reached_of_load (show "provenance.json" ∈ fileNames by decide) provenance some
  have each : ∀ name ∈ fileNames, t.locate (s.path name) = .ok (base ++ [name]) ∧
      t.entry? (base ++ [name]) ≠ .some .directory := by
    intro name mem
    simp only [fileNames, List.mem_cons, List.not_mem_nil, or_false] at mem
    rcases mem with rfl | rfl | rfl
    · exact located_of_load reached (by decide) nodes
    · exact located_of_load reached (by decide) provenance
    · exact located_of_load reached (by decide) guides
  exact ⟨base, wellFormed, reached, fun name mem => (each name mem).1,
    fun name mem => (each name mem).2⟩

end CapabilityPipeline.Store
