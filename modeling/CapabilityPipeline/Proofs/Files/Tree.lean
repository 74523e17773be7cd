import CapabilityPipeline.Files.Tree
import CapabilityPipeline.Proofs.Files.Path
import CapabilityPipeline.Proofs.Results
import Mathlib.Data.List.Induction
import Mathlib.Tactic.Push

/-!
# Files that change among directories that stay

In a well-formed tree every entry stands in a directory. Writing, copying and moving files keeps a
tree well-formed and changes no directory. So the same paths lead to the same places afterwards,
and what stands at other places is as before.

Results:

* `FileTree.WellFormed`: every entry stands in a directory.
* `FileTree.Changes`: two trees that differ in files at some places only.
* `FileTree.Changes.locate_eq_ok`: paths lead to the same places in both.
* `FileTree.Reached`: the place of a directory, through which `locate` goes.
* `FileTree.IsPath`, `FileTree.Reached.locate_of_isPath`: what is a path, and where it leads.
* `FileTree.write_changes`, `rename_eq_ok`: the operations on files.
* `FileTree.createDirectories_of_reached`: a directory that is there is not made.
-/

namespace CapabilityPipeline.FileTree

open Text (Symbol)

/-! ## Entries -/

theorem lookup_filter (keep : Place → Bool) (place : Place) (entries : List (Place × Entry)) :
    (entries.filter fun e => keep e.1).lookup place =
      if keep place then entries.lookup place else none := by
  induction entries with
  | nil => simp
  | cons e rest ih =>
    obtain ⟨q, entry⟩ := e
    rw [List.filter_cons]
    by_cases same : place = q
    · subst same
      by_cases kept : keep place
      · simp [kept]
      · simp [kept, ih]
    · have different : (place == q) = false := by simpa using same
      by_cases kept : keep q
      · simp [kept, List.lookup_cons, different, ih]
      · simp [kept, List.lookup_cons, different, ih]

theorem entry?_of_ne_nil (t : FileTree) {place : Place} (h : place ≠ []) :
    t.entry? place = t.entries.lookup place := by
  unfold entry?
  rw [if_neg (by rwa [List.isEmpty_iff])]

theorem entry?_nil (t : FileTree) : t.entry? [] = some .directory := rfl

theorem entry?_set (t : FileTree) {place : Place} (h : place ≠ []) (entry : Entry) (q : Place) :
    entry? (t.set place entry) q = if q = place then some entry else t.entry? q := by
  by_cases top : q = []
  · subst top
    rw [if_neg (Ne.symm h)]
    rfl
  · rw [entry?_of_ne_nil _ top, entry?_of_ne_nil _ top]
    unfold set
    by_cases same : q = place
    · simp [same]
    · have different : (q == place) = false := by simpa using same
      rw [List.lookup_cons, different, lookup_filter (fun p => p ≠ place), if_neg same]
      simp [same]

theorem entry?_erase (t : FileTree) {place : Place} (h : place ≠ []) (q : Place) :
    entry? (t.erase place) q = if place <+: q then none else t.entry? q := by
  by_cases top : q = []
  · subst top
    rw [if_neg (by rwa [List.prefix_nil])]
    rfl
  · rw [entry?_of_ne_nil _ top, entry?_of_ne_nil _ top]
    unfold erase
    rw [lookup_filter (fun p => !place.isPrefixOf p)]
    by_cases below : place <+: q
    · simp [below, List.isPrefixOf_iff_prefix.mpr below]
    · have notBelow : place.isPrefixOf q = false := by
        rw [Bool.eq_false_iff]
        exact fun h => below (List.isPrefixOf_iff_prefix.mp h)
      simp [below, notBelow]

/-! ## Well-formed trees -/

/-- Every entry stands in a directory. -/
def WellFormed (t : FileTree) : Prop :=
  ∀ place name, t.entry? (place ++ [name]) ≠ none → t.entry? place = some .directory

theorem lookup_eq_none_iff {entries : List (Place × Entry)} {place : Place} :
    entries.lookup place = none ↔ ∀ e ∈ entries, e.1 ≠ place := by
  rw [List.lookup_eq_none_iff]
  exact forall₂_congr fun e _ => by rw [bne_iff_ne, ne_comm]

/-- One look at every entry tells whether a tree is well-formed. -/
theorem wellFormed_iff {t : FileTree} :
    t.WellFormed ↔ ∀ e ∈ t.entries, t.entry? e.1.dropLast = some .directory := by
  constructor
  · intro h e mem
    rcases List.eq_nil_or_concat' e.1 with top | ⟨place, name, same⟩
    · rw [top]
      rfl
    · rw [same, List.dropLast_concat]
      refine h place name ?_
      rw [← same, entry?_of_ne_nil t (by rw [same]; simp), Ne, lookup_eq_none_iff]
      exact fun absent => absent e mem rfl
  · intro h place name some
    rw [entry?_of_ne_nil t (by simp), Ne, lookup_eq_none_iff] at some
    push Not at some
    obtain ⟨e, mem, same⟩ := some
    have above := h e mem
    rwa [same, List.dropLast_concat] at above

instance : DecidablePred WellFormed :=
  fun _ => decidable_of_iff _ wellFormed_iff.symm

/-- What is below a place makes it a directory. -/
theorem WellFormed.directory_above {t : FileTree} (h : t.WellFormed) {place : Place} {name : String}
    (below : Place) (some : t.entry? (place ++ name :: below) ≠ none) :
    t.entry? place = .some .directory := by
  induction below using List.reverseRecOn with
  | nil => exact h place name some
  | append_singleton below last ih =>
    refine ih ?_
    rw [← List.cons_append, ← List.append_assoc] at some
    rw [h _ last some]
    exact Option.some_ne_none _

/-! ## Changes of files -/

/-- Two trees that differ only in which files stand at some places. -/
structure Changes (t : FileTree) (places : Place → Prop) (t' : FileTree) : Prop where
  start : t'.start = t.start
  wellFormed : t'.WellFormed
  directory : ∀ place, t'.entry? place = some .directory ↔ t.entry? place = some .directory
  elsewhere : ∀ place, ¬ places place → t'.entry? place = t.entry? place

namespace Changes

variable {t t' t'' : FileTree} {places : Place → Prop}

theorem refl (h : t.WellFormed) : t.Changes places t :=
  ⟨rfl, h, fun _ => Iff.rfl, fun _ _ => rfl⟩

theorem trans (h : t.Changes places t') (h' : t'.Changes places t'') : t.Changes places t'' where
  start := h'.start.trans h.start
  wellFormed := h'.wellFormed
  directory := fun place => (h'.directory place).trans (h.directory place)
  elsewhere := fun place away => (h'.elsewhere place away).trans (h.elsewhere place away)

theorem mono {more : Place → Prop} (h : t.Changes places t')
    (sub : ∀ place, places place → more place) : t.Changes more t' :=
  ⟨h.start, h.wellFormed, h.directory, fun place away => h.elsewhere place (mt (sub place) away)⟩

/-- Names lead to the same places. -/
theorem walk_eq_ok (h : t.Changes places t') {place place' : Place} {names : List String} :
    t'.walk place names = .ok place' ↔ t.walk place names = .ok place' := by
  induction names generalizing place with
  | nil => rw [walk, walk]
  | cons name rest ih =>
    have same := h.directory place
    rw [walk, walk]
    by_cases isDirectory : t.entry? place = some .directory
    · rw [same.mpr isDirectory, isDirectory]
      dsimp only
      split
      · exact ih
      split
      · exact ih
      split
      · exact Iff.rfl
      · exact ih
    · have notDirectory := mt same.mp isDirectory
      constructor
      · intro walked
        split at walked
        · cases walked
        · cases walked
        · next found => exact absurd found notDirectory
      · intro walked
        split at walked
        · cases walked
        · cases walked
        · next found => exact absurd found isDirectory

/-- Paths lead to the same places. -/
theorem locate_eq_ok (h : t.Changes places t') {path : String} {place : Place} :
    t'.locate path = .ok place ↔ t.locate path = .ok place := by
  unfold locate
  rw [h.start]
  split
  · exact Iff.rfl
  split
  · exact Iff.rfl
  split
  · exact Iff.rfl
  · exact h.walk_eq_ok

end Changes

/-! ## Following paths -/

theorem walk_append (t : FileTree) (place : Place) (names more : List String) :
    t.walk place (names ++ more) = t.walk place names >>= fun p => t.walk p more := by
  induction names generalizing place with
  | nil =>
    rw [List.nil_append, walk]
    rfl
  | cons name rest ih =>
    rw [List.cons_append, walk, walk]
    split
    · rfl
    · rfl
    · split
      · exact ih _
      split
      · exact ih _
      split
      · rfl
      · exact ih _

/-- Pieces that stay where they are lead to a directory all the same. -/
theorem walk_filter {t : FileTree} {place base : Place} (h : t.entry? base = some .directory)
    (pieces : List String) :
    t.walk place pieces = .ok base ↔
      t.walk place (pieces.filter fun name => name ≠ "" && name ≠ ".") = .ok base := by
  induction pieces generalizing place with
  | nil => exact Iff.rfl
  | cons name rest ih =>
    rw [List.filter_cons]
    by_cases stays : name = "" ∨ name = "."
    · have skipped : (decide (name ≠ "") && decide (name ≠ ".")) = false := by
        rcases stays with rfl | rfl <;> rfl
      have staying : (decide (name = "") || decide (name = ".")) = true := by
        rcases stays with rfl | rfl <;> rfl
      rw [if_neg (by rw [skipped]; decide), ← ih, walk]
      simp only [staying, if_true]
      -- Whatever leads on to `base` makes the place a directory.
      constructor
      · intro walked
        split at walked
        · cases walked
        · cases walked
        · exact walked
      · intro walked
        have isDirectory : t.entry? place = some .directory := by
          cases rest with
          | nil =>
            cases walked
            exact h
          | cons next others =>
            rw [walk] at walked
            split at walked
            · cases walked
            · cases walked
            · assumption
        rw [isDirectory]
        exact walked
    · obtain ⟨notEmpty, notDot⟩ := not_or.mp stays
      rw [if_pos (by simp [notEmpty, notDot]), walk, walk]
      split
      · exact Iff.rfl
      · exact Iff.rfl
      split
      · exact ih
      split
      · exact ih
      split
      · exact Iff.rfl
      · exact ih

/-- The place of a directory that a path leads to. -/
structure Reached (t : FileTree) (dir : String) (base : Place) : Prop where
  walk : t.walk (if Path.isAbsolute dir then [] else t.start) (Path.names dir.toList) = .ok base
  directory : t.entry? base = some .directory

theorem Reached.unique {t : FileTree} {dir : String} {base base' : Place}
    (h : t.Reached dir base) (h' : t.Reached dir base') : base = base' :=
  Except.ok.inj (h.walk.symm.trans h'.walk)

/-- Directories are reached as before. -/
theorem Changes.reached_iff {t t' : FileTree} {places : Place → Prop} {dir : String} {base : Place}
    (h : t.Changes places t') : t'.Reached dir base ↔ t.Reached dir base := by
  constructor
  · intro reached
    have walked := reached.walk
    rw [h.start] at walked
    exact ⟨h.walk_eq_ok.mp walked, (h.directory base).mp reached.directory⟩
  · intro reached
    refine ⟨?_, (h.directory base).mpr reached.directory⟩
    rw [h.start]
    exact h.walk_eq_ok.mpr reached.walk

theorem Changes.reached {t t' : FileTree} {places : Place → Prop} {dir : String} {base : Place}
    (h : t.Changes places t') (reached : t.Reached dir base) : t'.Reached dir base :=
  h.reached_iff.mpr reached

section Locate

variable {t : FileTree} {dir path name : String}

/-- A path into a directory leads to the name in the place of the directory. -/
theorem reached_of_locate (inside : Path.IsIn dir path name) (isName : Path.IsName name)
    {place : Place} (h : t.locate path = .ok place) :
    ∃ base, t.Reached dir base ∧ place = base ++ [name] := by
  obtain ⟨front, pieces, through⟩ := inside.components_eq isName
  obtain ⟨notEmpty, notDot, notDots⟩ := isName.ne
  unfold locate at h
  split at h
  · cases h
  split at h
  · cases h
  split at h
  · cases h
  rw [inside.isAbsolute_eq isName, pieces, walk_append] at h
  obtain ⟨base, walked, last⟩ := bind_eq_ok.mp h
  rw [walk] at last
  split at last
  · cases last
  · cases last
  next isDirectory =>
  rw [if_neg (by simp [notEmpty, notDot]), if_neg notDots] at last
  split at last
  · cases last
  · rw [walk] at last
    cases last
    exact ⟨base, ⟨through ▸ (walk_filter isDirectory _).mp walked, isDirectory⟩, rfl⟩

/-- A text that is a path. -/
def IsPath (path : String) : Prop :=
  path.toList.contains '\x00' = false ∧ path.utf8ByteSize ≤ maxPathBytes ∧ path ≠ ""

instance (path : String) : Decidable (IsPath path) :=
  inferInstanceAs (Decidable (_ ∧ _))

theorem locate_of_isPath (isPath : IsPath path) : t.locate path =
    t.walk (if Path.isAbsolute path then [] else t.start) (Path.components path) := by
  obtain ⟨nul, short, some⟩ := isPath
  rw [locate, nul, if_neg Bool.false_ne_true, if_neg (Nat.not_lt.mpr short), if_neg some]

/-- A text that is no path leads nowhere, for a reason of its own. -/
theorem locate_of_not_isPath (some : path ≠ "") (noPath : ¬IsPath path) :
    ∃ e, e ≠ .notFound ∧ t.locate path = .error e := by
  rw [locate]
  by_cases nul : path.toList.contains '\x00'
  · rw [if_pos nul]
    exact ⟨_, by decide, rfl⟩
  rw [if_neg nul]
  by_cases long : maxPathBytes < path.utf8ByteSize
  · rw [if_pos long]
    exact ⟨_, by decide, rfl⟩
  · exact absurd ⟨Bool.eq_false_iff.mpr nul, Nat.not_lt.mp long, some⟩ noPath

/-- From where it starts, a path into a directory that is there leads to the name, unless that is
too long. -/
theorem Reached.walk_eq {base : Place} (h : t.Reached dir base)
    (inside : Path.IsIn dir path name) (isName : Path.IsName name) :
    t.walk (if Path.isAbsolute path then [] else t.start) (Path.components path) =
      if maxNameBytes < name.utf8ByteSize then .error .nameTooLong else .ok (base ++ [name]) := by
  obtain ⟨front, pieces, through⟩ := inside.components_eq isName
  obtain ⟨notEmpty, notDot, notDots⟩ := isName.ne
  rw [inside.isAbsolute_eq isName, pieces, walk_append]
  have walked := (walk_filter h.directory front).mpr (through ▸ h.walk)
  have last : (Except.ok base >>= fun p => t.walk p [name]) = t.walk base [name] := rfl
  rw [walked, last, FileTree.walk, h.directory]
  simp only [notEmpty, notDot, notDots, decide_false, Bool.or_self, Bool.false_eq_true, if_false]
  split
  · rfl
  · rw [FileTree.walk]

/-- A path into a directory that is there leads to the name. -/
theorem Reached.locate_of_isPath {base : Place} (h : t.Reached dir base)
    (inside : Path.IsIn dir path name) (isName : Path.IsName name) (isPath : IsPath path)
    (short : name.utf8ByteSize ≤ maxNameBytes) : t.locate path = .ok (base ++ [name]) := by
  rw [FileTree.locate_of_isPath isPath, h.walk_eq inside isName, if_neg (Nat.not_lt.mpr short)]

/-- A path into a directory that is there leads to the name, unless it is no path at all. -/
theorem Reached.locate_eq {base : Place} (h : t.Reached dir base)
    (inside : Path.IsIn dir path name) (isName : Path.IsName name) :
    t.locate path = .ok (base ++ [name]) ∨ ∃ e, e ≠ .notFound ∧ t.locate path = .error e := by
  have some : path ≠ "" := by
    rintro rfl
    obtain ⟨front, same, -⟩ := inside
    exact isName.ne.1 (String.toList_eq_nil_iff.mp (List.append_eq_nil_iff.mp same.symm).2)
  by_cases isPath : IsPath path
  · rw [FileTree.locate_of_isPath isPath, h.walk_eq inside isName]
    split
    · exact .inr ⟨_, by decide, rfl⟩
    · exact .inl rfl
  · exact .inr (locate_of_not_isPath some isPath)

end Locate

/-! ## Operations on files -/

theorem read_eq_ok {t : FileTree} {path : String} {content : List Symbol} :
    t.read path = .ok content ↔
      ∃ place, t.locate path = .ok place ∧ t.entry? place = some (.file content) := by
  unfold read find
  constructor
  · intro h
    obtain ⟨entry, found, h⟩ := bind_eq_ok.mp h
    obtain ⟨place, located, found⟩ := bind_eq_ok.mp found
    split at found
    · next there =>
      cases found
      split at h
      · cases h
        exact ⟨place, located, there⟩
      · cases h
    · cases found
  · rintro ⟨place, located, there⟩
    rw [located]
    simp only [bind, Except.bind, there]
    rfl

/-- Reading depends only on what is at the place of the path. -/
theorem read_of_locate {t : FileTree} {path : String} {place : Place}
    (h : t.locate path = .ok place) : t.read path =
      match t.entry? place with
      | none => .error .notFound
      | some (.file content) => .ok content
      | some .directory => .error .isADirectory := by
  unfold read find
  rw [h]
  simp only [bind, Except.bind]
  cases t.entry? place with
  | none => rfl
  | some entry => cases entry <;> rfl

/-- A file that is set where no directory is, in a directory. -/
theorem changes_set {t : FileTree} (wellFormed : t.WellFormed) {base : Place} {name : String}
    (above : t.entry? base = some .directory)
    (free : t.entry? (base ++ [name]) ≠ some .directory) (content : List Symbol) :
    t.Changes (· = base ++ [name]) (t.set (base ++ [name]) (.file content)) := by
  have entry := t.entry?_set (List.append_ne_nil_of_right_ne_nil base (List.cons_ne_nil name []))
    (.file content)
  have directory (place : Place) :
      entry? (t.set (base ++ [name]) (.file content)) place = some .directory ↔
        t.entry? place = some .directory := by
    rw [entry]
    split
    · next same =>
      rw [same]
      exact ⟨fun file => (by cases file), fun there => absurd there free⟩
    · exact Iff.rfl
  refine ⟨rfl, fun place last there => ?_, directory, fun place away => ?_⟩
  · rw [directory]
    rw [entry] at there
    split at there
    · next same =>
      obtain ⟨rfl, -⟩ := List.append_inj' same rfl
      exact above
    · exact wellFormed place last there
  · rw [entry, if_neg away]

/-- Writing depends only on what is at the place of the path and above it. -/
theorem write_of_locate {t : FileTree} {path : String} {base : Place} {name : String}
    (h : t.locate (Path.withoutLastSlashes path) = .ok (base ++ [name]))
    (plain : Path.endsAfterName path = false) (content : List Symbol) :
    t.write path content =
      match t.entry? (base ++ [name]), t.entry? base with
      | some .directory, _ => .error .isADirectory
      | some (.file _), _ => .ok (t.set (base ++ [name]) (.file content))
      | none, some .directory => .ok (t.set (base ++ [name]) (.file content))
      | none, some (.file _) => .error .notADirectory
      | none, none => .error .notFound := by
  unfold write
  rw [h, plain]
  simp only [bind, Except.bind, Bool.false_eq_true, if_false, List.dropLast_concat]
  rcases t.entry? (base ++ [name]) with - | (content' | -)
  · rcases t.entry? base with - | (content' | -) <;> rfl
  · rfl
  · rfl

/-- **Writing a file** changes what is at its place, where no directory is. -/
theorem write_changes {t t' : FileTree} (wellFormed : t.WellFormed) {path : String}
    {base : Place} {name : String}
    (located : t.locate (Path.withoutLastSlashes path) = .ok (base ++ [name]))
    (plain : Path.endsAfterName path = false) {content : List Symbol}
    (h : t.write path content = .ok t') :
    t'.entry? (base ++ [name]) = some (.file content) ∧ t.Changes (· = base ++ [name]) t' := by
  have done (above : t.entry? base = some .directory)
      (free : t.entry? (base ++ [name]) ≠ some .directory) :
      entry? (t.set (base ++ [name]) (.file content)) (base ++ [name]) = some (.file content) ∧
        t.Changes (· = base ++ [name]) (t.set (base ++ [name]) (.file content)) := by
    refine ⟨?_, changes_set wellFormed above free content⟩
    rw [entry?_set _ (List.append_ne_nil_of_right_ne_nil base (List.cons_ne_nil name [])),
      if_pos rfl]
  rw [write_of_locate located plain] at h
  split at h
  · cases h
  · next there =>
    cases h
    exact done (wellFormed base name (by rw [there]; exact Option.some_ne_none _))
      (by rw [there]; exact fun same => by cases same)
  · next absent above =>
    cases h
    exact done above (by rw [absent]; exact fun same => by cases same)
  · cases h
  · cases h

/-- A file that is taken away. Nothing is below it, so nothing else goes. -/
theorem changes_erase {t : FileTree} (wellFormed : t.WellFormed) {base : Place} {name : String}
    {content : List Symbol} (there : t.entry? (base ++ [name]) = some (.file content)) :
    t.Changes (· = base ++ [name]) (t.erase (base ++ [name])) := by
  have entry (place : Place) : entry? (t.erase (base ++ [name])) place =
      if place = base ++ [name] then none else t.entry? place := by
    rw [entry?_erase _ (List.append_ne_nil_of_right_ne_nil base (List.cons_ne_nil name []))]
    by_cases same : place = base ++ [name]
    · rw [if_pos same, same, if_pos (List.prefix_refl _)]
    · rw [if_neg same]
      split
      · next below =>
        obtain ⟨tail, rfl⟩ := below
        cases tail with
        | nil => exact absurd (List.append_nil _) same
        | cons next rest =>
          by_contra some
          have directory := wellFormed.directory_above rest (Ne.symm some)
          rw [there] at directory
          cases directory
      · rfl
  have directory (place : Place) : entry? (t.erase (base ++ [name])) place = some .directory ↔
      t.entry? place = some .directory := by
    rw [entry]
    split
    · next same =>
      rw [same, there]
      exact ⟨fun gone => (by cases gone), fun file => (by cases file)⟩
    · exact Iff.rfl
  refine ⟨rfl, fun place last some => ?_, directory, fun place away => ?_⟩
  · rw [directory]
    rw [entry] at some
    split at some
    · exact absurd rfl some
    · exact wellFormed place last some
  · rw [entry, if_neg away]

/-- What moving a file does when it succeeds. -/
theorem exists_of_rename {t t' : FileTree} {source target : String}
    (moved : t.rename source target = .ok t') :
    ∃ place place' content, t.locate source = .ok place ∧
      t.entry? place = some (.file content) ∧ t.locate target = .ok place' ∧
      (place = place' ∧ t' = t ∨ place ≠ place' ∧ ∃ written,
        t.write target content = .ok written ∧ t' = written.erase place) := by
  unfold rename at moved
  obtain ⟨place, leaves, moved⟩ := bind_eq_ok.mp moved
  obtain ⟨content, read, moved⟩ := bind_eq_ok.mp moved
  obtain ⟨place', arrives, moved⟩ := bind_eq_ok.mp moved
  obtain ⟨source', located, there⟩ := read_eq_ok.mp read
  cases leaves.symm.trans located
  refine ⟨place, place', content, leaves, there, arrives, ?_⟩
  by_cases same : place = place'
  · rw [if_pos same] at moved
    cases moved
    exact .inl ⟨same, rfl⟩
  · rw [if_neg same] at moved
    obtain ⟨written, writing, moved⟩ := bind_eq_ok.mp moved
    cases moved
    exact .inr ⟨same, written, writing, rfl⟩

/-- **Moving a file** to another name in its directory succeeds unless a directory has the
name. Nothing is left where the file was. -/
theorem rename_eq_ok {t : FileTree} (wellFormed : t.WellFormed) {source target : String}
    {base : Place} {old new : String} (different : old ≠ new)
    (leaves : t.locate source = .ok (base ++ [old]))
    (arrives : t.locate target = .ok (base ++ [new]))
    (same : Path.withoutLastSlashes target = target) (plain : Path.endsAfterName target = false)
    {content : List Symbol} (there : t.entry? (base ++ [old]) = some (.file content))
    (free : t.entry? (base ++ [new]) ≠ some .directory) :
    ∃ t', t.rename source target = .ok t' ∧ t'.entry? (base ++ [new]) = some (.file content) ∧
      t'.entry? (base ++ [old]) = none ∧
      t.Changes (fun place => place = base ++ [old] ∨ place = base ++ [new]) t' := by
  have apart : base ++ [old] ≠ base ++ [new] := fun same =>
    different (List.singleton_inj.mp (List.append_cancel_left same))
  have above : t.entry? base = some .directory :=
    wellFormed base old (by rw [there]; exact Option.some_ne_none _)
  have located := same.symm ▸ arrives
  have written : t.write target content = .ok (t.set (base ++ [new]) (.file content)) := by
    rw [write_of_locate located plain, above]
    cases occupied : t.entry? (base ++ [new]) with
    | none => rfl
    | some entry =>
      cases entry with
      | file old => rfl
      | directory => exact absurd occupied free
  obtain ⟨arrived, moved⟩ := write_changes wellFormed located plain written
  have still : entry? (t.set (base ++ [new]) (.file content)) (base ++ [old]) =
      some (.file content) := by
    rw [moved.elsewhere _ apart, there]
  have left := changes_erase moved.wellFormed still
  refine ⟨(t.set (base ++ [new]) (.file content)).erase (base ++ [old]), ?_, ?_, ?_, ?_⟩
  · unfold rename
    rw [leaves, read_eq_ok.mpr ⟨_, leaves, there⟩, arrives]
    simp only [bind, Except.bind, apart, if_false, written]
    rfl
  · rw [left.elsewhere _ (Ne.symm apart), arrived]
  · rw [entry?_erase _ (List.append_ne_nil_of_right_ne_nil base (List.cons_ne_nil old [])),
      if_pos (List.prefix_refl _)]
  · exact (moved.mono fun _ => .inr).trans (left.mono fun _ => .inl)

/-! ## Directories -/

/-- A directory that is there is found. -/
theorem Reached.locate_directory_of_isPath {t : FileTree} {dir path : String} {base : Place}
    (h : t.Reached dir base) (names : Path.names path.toList = Path.names dir.toList)
    (absolute : Path.isAbsolute path = Path.isAbsolute dir) (isPath : IsPath path) :
    t.locate path = .ok base := by
  rw [FileTree.locate_of_isPath isPath, absolute]
  refine (walk_filter h.directory _).mpr ?_
  rw [← h.walk, ← names]
  rfl

/-- A directory that is there is found, unless its path is no path at all. -/
theorem Reached.locate_directory {t : FileTree} {dir path : String} {base : Place}
    (h : t.Reached dir base) (names : Path.names path.toList = Path.names dir.toList)
    (absolute : Path.isAbsolute path = Path.isAbsolute dir) (some : path ≠ "") :
    t.locate path = .ok base ∨ ∃ e, e ≠ .notFound ∧ t.locate path = .error e := by
  by_cases isPath : IsPath path
  · exact .inl (h.locate_directory_of_isPath names absolute isPath)
  · exact .inr (locate_of_not_isPath some isPath)

/-- **A directory that is there is not made**, and no directory above it. -/
theorem createDirectories_of_reached {t t' : FileTree} {dir : String} {base : Place}
    (h : t.Reached dir base) (made : t.createDirectories dir = .ok t') : t' = t := by
  unfold createDirectories at made
  rw [createDirectoriesWithin] at made
  split at made
  · cases made
    rfl
  next some =>
  obtain ⟨names, absolute, still⟩ := Path.names_withoutLastSlashes dir
  have refused : ∃ e, e ≠ .notFound ∧ t.createDirectory dir = .error e := by
    unfold createDirectory
    rcases h.locate_directory names absolute (still some) with found | ⟨e, other, failed⟩
    · refine ⟨.alreadyExists, by decide, ?_⟩
      rw [found]
      simp only [bind, Except.bind, h.directory]
      rfl
    · exact ⟨e, other, by rw [failed]; rfl⟩
  obtain ⟨e, other, refused⟩ := refused
  rw [refused] at made
  split at made
  · next again => cases again
  · next again =>
    cases again
    exact absurd rfl other
  · split at made
    · cases made
      rfl
    · cases made
  · cases made

end CapabilityPipeline.FileTree
