import CapabilityPipeline.Proofs.Files.Directories

/-!
# Trees that programs make

A program starts from a tree with nothing but the directory it works in, and every operation
keeps a tree well-formed. So all trees that programs make are.

Results:

* `FileTree.wellFormed_empty`: the tree to start from.
* `FileTree.WellFormed.write`, `copy`, `rename`, `createDirectories`, `remove`: the operations.
-/

namespace CapabilityPipeline.FileTree

open Text (Symbol)

variable {t t' : FileTree}

/-- Where all entries are directories, so is any that is looked up. -/
theorem lookup_eq_directory {entries : List (Place × Entry)}
    (all : ∀ e ∈ entries, e.2 = .directory) {place : Place} (some : ∃ e ∈ entries, e.1 = place) :
    entries.lookup place = .some .directory := by
  induction entries with
  | nil => exact absurd some (by simp)
  | cons e rest ih =>
    obtain ⟨first, others⟩ := List.forall_mem_cons.mp all
    rw [List.lookup_cons]
    split
    · rw [first]
    · next different =>
      refine ih others ?_
      obtain ⟨e', mem, same⟩ := some
      rcases List.mem_cons.mp mem with rfl | later
      · simp [same] at different
      · exact ⟨e', later, same⟩

theorem wellFormed_empty (start : Place) : (empty start).WellFormed := by
  refine wellFormed_iff.mpr fun e mem => ?_
  obtain ⟨n, below, rfl⟩ := List.mem_map.mp mem
  have fits : n + 1 ≤ start.length := List.mem_range.mp below
  have above : (start.take (n + 1)).dropLast = start.take n := by
    rw [List.dropLast_eq_take, List.take_take, List.length_take]
    congr 1
    omega
  rw [above]
  cases n with
  | zero => rfl
  | succ n =>
    have named : start.take (n + 1) ≠ [] := by
      rw [← List.length_pos_iff, List.length_take]
      omega
    rw [entry?_of_ne_nil _ named]
    refine lookup_eq_directory (fun e mem => ?_) ⟨(start.take (n + 1), .directory), ?_, rfl⟩
    · obtain ⟨_, -, rfl⟩ := List.mem_map.mp mem
      rfl
    · exact List.mem_map.mpr ⟨n, List.mem_range.mpr (by omega), rfl⟩

/-! ## Entries that come and go -/

/-- A place at which something is written or made has a name. -/
theorem exists_name {place : Place} (h : t.entry? place ≠ some .directory) :
    ∃ base name, place = base ++ [name] := by
  rcases List.eq_nil_or_concat' place with rfl | ⟨base, name, rfl⟩
  · exact absurd t.entry?_nil h
  · exact ⟨base, name, rfl⟩

theorem WellFormed.erase (h : t.WellFormed) (place : Place) : (t.erase place).WellFormed := by
  by_cases top : place = []
  · have nothing : (t.erase place).entries = [] := by simp [FileTree.erase, top]
    exact wellFormed_iff.mpr fun e mem => by rw [nothing] at mem; cases mem
  intro q name there
  rw [entry?_erase t top] at there ⊢
  split at there
  · exact absurd rfl there
  · next above =>
    rw [if_neg fun below => above (below.trans (List.prefix_append q [name]))]
    exact h q name there

/-! ## Operations -/

theorem WellFormed.write (h : t.WellFormed) {path : String} {content : List Symbol}
    (written : t.write path content = .ok t') : t'.WellFormed := by
  obtain ⟨place, located, rest⟩ := bind_eq_ok.mp written
  cases plain : Path.endsAfterName path with
  | true =>
    rw [plain] at rest
    cases rest
  | false =>
    have free : t.entry? place ≠ some .directory := fun directory => by
      rw [plain, directory] at rest
      cases rest
    obtain ⟨base, name, rfl⟩ := exists_name free
    exact (write_changes h located plain written).2.wellFormed

theorem WellFormed.copy (h : t.WellFormed) {source target : String}
    (copied : t.copy source target = .ok t') : t'.WellFormed := by
  obtain ⟨entry, -, copied⟩ := bind_eq_ok.mp copied
  split at copied
  · exact h.write copied
  · cases copied

theorem WellFormed.rename (h : t.WellFormed) {source target : String}
    (moved : t.rename source target = .ok t') : t'.WellFormed := by
  obtain ⟨place, place', content, -, -, -, ⟨-, rfl⟩ | ⟨-, written, writing, rfl⟩⟩ :=
    exists_of_rename moved
  · exact h
  · exact (h.write writing).erase place

theorem WellFormed.createDirectory (h : t.WellFormed) {path : String}
    (made : t.createDirectory path = .ok t') : t'.WellFormed :=
  (grows_createDirectory h made).wellFormed

theorem WellFormed.createDirectories (h : t.WellFormed) {path : String}
    (made : t.createDirectories path = .ok t') : t'.WellFormed :=
  (grows_createDirectories h made).wellFormed

theorem WellFormed.remove (h : t.WellFormed) {path : String} (removed : t.remove path = some t') :
    t'.WellFormed := by
  unfold FileTree.remove at removed
  split at removed
  · next place _ =>
    obtain ⟨_, -, rfl⟩ := Option.map_eq_some_iff.mp removed
    exact h.erase place
  · cases removed

end CapabilityPipeline.FileTree
