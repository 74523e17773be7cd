import CapabilityPipeline.Proofs.Files.Tree

/-!
# Making directories

Making the directories of a path adds directories to a tree and changes nothing that is there. So
paths that lead somewhere lead there afterwards, and files that could be read hold the same.

Results:

* `FileTree.Grows`: a tree with everything that another has.
* `FileTree.Grows.locate`, `FileTree.Grows.find`: what a path leads to stays.
* `FileTree.grows_createDirectories`: making directories.
-/

namespace CapabilityPipeline.FileTree

theorem find_eq_ok {t : FileTree} {path : String} {entry : Entry} :
    t.find path = .ok entry ↔ ∃ place, t.locate path = .ok place ∧ t.entry? place = some entry := by
  unfold find
  constructor
  · intro h
    obtain ⟨place, located, found⟩ := bind_eq_ok.mp h
    split at found
    · next there =>
      cases found
      exact ⟨place, located, there⟩
    · cases found
  · rintro ⟨place, located, there⟩
    rw [located]
    simp only [bind, Except.bind, there]
    rfl

theorem pathExists_iff {t : FileTree} {path : String} :
    t.pathExists path = true ↔ ∃ entry, t.find path = .ok entry := by
  unfold pathExists
  cases t.find path with
  | error e => exact ⟨nofun, nofun⟩
  | ok entry => exact ⟨fun _ => ⟨entry, rfl⟩, fun _ => rfl⟩

/-- A well-formed tree with everything that another has. -/
structure Grows (t t' : FileTree) : Prop where
  start : t'.start = t.start
  wellFormed : t'.WellFormed
  kept : ∀ place entry, t.entry? place = some entry → t'.entry? place = some entry

variable {t t' t'' : FileTree} {path : String}

namespace Grows

theorem refl (h : t.WellFormed) : t.Grows t :=
  ⟨rfl, h, fun _ _ => id⟩

theorem trans (h : t.Grows t') (h' : t'.Grows t'') : t.Grows t'' where
  start := h'.start.trans h.start
  wellFormed := h'.wellFormed
  kept place entry there := h'.kept place entry (h.kept place entry there)

/-- Names that lead somewhere lead there in the larger tree. -/
theorem walk (h : t.Grows t') {place place' : Place} {names : List String}
    (walked : t.walk place names = .ok place') : t'.walk place names = .ok place' := by
  induction names generalizing place with
  | nil => exact walked
  | cons name rest ih =>
    rw [FileTree.walk] at walked ⊢
    split at walked
    · cases walked
    · cases walked
    · next directory =>
      rw [h.kept _ _ directory]
      dsimp only
      split at walked
      · next stays => rw [if_pos stays]; exact ih walked
      · next stays =>
        rw [if_neg stays]
        split at walked
        · next up => rw [if_pos up]; exact ih walked
        · next up =>
          rw [if_neg up]
          split at walked
          · cases walked
          · next short => rw [if_neg short]; exact ih walked

/-- A path that leads somewhere leads there in the larger tree. -/
theorem locate (h : t.Grows t') {place : Place} (located : t.locate path = .ok place) :
    t'.locate path = .ok place := by
  unfold FileTree.locate at located ⊢
  rw [h.start]
  split at located
  · cases located
  · next nul =>
    rw [if_neg nul]
    split at located
    · cases located
    · next long =>
      rw [if_neg long]
      split at located
      · cases located
      · next some => rw [if_neg some]; exact h.walk located

theorem find (h : t.Grows t') {entry : Entry} (found : t.find path = .ok entry) :
    t'.find path = .ok entry := by
  obtain ⟨place, located, there⟩ := find_eq_ok.mp found
  exact find_eq_ok.mpr ⟨place, h.locate located, h.kept place entry there⟩

end Grows

/-! ## Making directories -/

/-- A directory is made in a directory, where nothing is. -/
theorem grows_createDirectory (wellFormed : t.WellFormed)
    (made : t.createDirectory path = .ok t') : t.Grows t' := by
  obtain ⟨place, -, made⟩ := bind_eq_ok.mp made
  split at made
  · cases made
  next absent =>
  split at made
  · next above =>
    cases made
    have inside : place ≠ [] := by
      rintro rfl
      cases absent
    have entry := t.entry?_set inside .directory
    refine ⟨rfl, fun base name there => ?_, fun q entry' there => ?_⟩
    · rw [entry] at there ⊢
      split at there
      · next same =>
        rw [← same, List.dropLast_concat] at above
        split
        · rfl
        · exact above
      · split
        · rfl
        · exact wellFormed base name there
    · rw [entry, if_neg fun same => by rw [same, absent] at there; cases there]
      exact there
  · cases made
  · cases made

theorem grows_createDirectoriesWithin (wellFormed : t.WellFormed) {bound : Nat}
    (made : t.createDirectoriesWithin bound path = .ok t') : t.Grows t' := by
  induction bound generalizing path t' with
  | zero => cases made
  | succ bound ih =>
    rw [createDirectoriesWithin] at made
    split at made
    · cases made
      exact .refl wellFormed
    split at made
    · next created =>
      cases made
      exact grows_createDirectory wellFormed created
    · split at made
      · cases made
      · -- the directories above come first, and then the directory itself if it is still missing
        obtain ⟨above, madeAbove, made⟩ := bind_eq_ok.mp made
        have grown := ih madeAbove
        split at made
        · next created =>
          cases made
          exact grown.trans (grows_createDirectory grown.wellFormed created)
        · split at made
          · cases made
            exact grown
          · cases made
        · cases made
    · split at made
      · cases made
        exact .refl wellFormed
      · cases made
    · cases made

/-- **Making directories** changes nothing that is there. -/
theorem grows_createDirectories (wellFormed : t.WellFormed)
    (made : t.createDirectories path = .ok t') : t.Grows t' :=
  grows_createDirectoriesWithin wellFormed made

end CapabilityPipeline.FileTree
