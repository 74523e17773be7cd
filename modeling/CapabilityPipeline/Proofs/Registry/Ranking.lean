import CapabilityPipeline.Registry.Discovery
import Mathlib.Data.List.Nodup

/-!
# The order of a ranking

What a query finds is ranked: more half points come first, and of equal points the smaller name.
Ranking is stable, so that items of the same rank stay in the order in which they were found. The
first items of a ranking are the best ones.

Results:

* `pairwise_ranked`: items come in the order of points, names and the order before.
* `of_take_of_pairwise`: what is not among the first items of a list in order comes after them.
-/

namespace CapabilityPipeline

/-! ## Comparing -/

/-- More half points come first, and of equal points the smaller name. -/
def Outranks (scoreA : Nat) (nameA : String) (scoreB : Nat) (nameB : String) : Prop :=
  scoreB < scoreA ∨ scoreA = scoreB ∧ nameA < nameB

section Comparing

variable {scoreA scoreB scoreC : Nat} {nameA nameB nameC : String}

theorem ranksBefore_iff : ranksBefore scoreA nameA scoreB nameB = true ↔
    scoreB < scoreA ∨ scoreA = scoreB ∧ nameA ≤ nameB := by
  simp [ranksBefore]

theorem ranksBefore_trans (h : ranksBefore scoreA nameA scoreB nameB = true)
    (h' : ranksBefore scoreB nameB scoreC nameC = true) :
    ranksBefore scoreA nameA scoreC nameC = true := by
  rw [ranksBefore_iff] at h h' ⊢
  rcases h with more | ⟨same, smaller⟩
  · exact .inl (h'.elim (fun more' => Nat.lt_trans more' more) fun h' => h'.1 ▸ more)
  · rcases h' with more' | ⟨same', smaller'⟩
    · exact .inl (same ▸ more')
    · exact .inr ⟨same.trans same', String.le_trans smaller smaller'⟩

theorem ranksBefore_total (scoreA scoreB : Nat) (nameA nameB : String) :
    (ranksBefore scoreA nameA scoreB nameB || ranksBefore scoreB nameB scoreA nameA) = true := by
  rw [Bool.or_eq_true, ranksBefore_iff, ranksBefore_iff]
  rcases Nat.lt_trichotomy scoreA scoreB with less | same | more
  · exact .inr (.inl less)
  · exact (String.le_total nameA nameB).imp (fun h => .inr ⟨same, h⟩) fun h => .inr ⟨same.symm, h⟩
  · exact .inl (.inl more)

/-- What comes first outranks the other, unless the two have the same rank. -/
theorem outranks_or_eq (h : ranksBefore scoreA nameA scoreB nameB = true) :
    Outranks scoreA nameA scoreB nameB ∨ scoreA = scoreB ∧ nameA = nameB := by
  rcases ranksBefore_iff.mp h with more | ⟨same, smaller⟩
  · exact .inl (.inl more)
  · by_cases equal : nameA = nameB
    · exact .inr ⟨same, equal⟩
    · exact .inl (.inr ⟨same, String.not_le.mp fun h => equal (String.le_antisymm smaller h)⟩)

end Comparing

/-! ## Sorting -/

section Sorting

variable {α : Type}

/-- Two items of a list stand in it one before the other. -/
theorem pair_sublist_or {l : List α} {a b : α} (ha : a ∈ l) (hb : b ∈ l) (different : a ≠ b) :
    [a, b].Sublist l ∨ [b, a].Sublist l := by
  induction l with
  | nil => cases ha
  | cons first rest ih =>
    rcases List.mem_cons.mp ha with same | laterA
    · rcases List.mem_cons.mp hb with same' | laterB
      · exact absurd (same.trans same'.symm) different
      · exact .inl (same ▸ (List.singleton_sublist.mpr laterB).cons_cons a)
    · rcases List.mem_cons.mp hb with same | laterB
      · exact .inr (same ▸ (List.singleton_sublist.mpr laterA).cons_cons b)
      · exact (ih laterA laterB).imp (.cons first) (.cons first)

/-- Two items do not stand in a list in both orders when no item is repeated. -/
theorem not_pair_sublist_swap {l : List α} (distinct : l.Nodup) {a b : α}
    (h : [a, b].Sublist l) : ¬ [b, a].Sublist l := by
  induction l with
  | nil => cases h
  | cons first rest ih =>
    obtain ⟨once, distinct⟩ := List.nodup_cons.mp distinct
    intro swapped
    cases h with
    | cons _ later =>
      cases swapped with
      | cons _ later' => exact ih distinct later later'
      | cons_cons _ _ => exact once (later.subset (by simp))
    | cons_cons _ later =>
      cases swapped with
      | cons _ later' => exact once (later'.subset (by simp))
      | cons_cons _ _ => exact once (later.subset (by simp))

/-- **Sorting is stable.** Items that sorting does not tell apart stay in the order in which they
were. -/
theorem pairwise_mergeSort_stable (le : α → α → Bool) {r : α → α → Prop}
    (trans : ∀ a b c, le a b = true → le b c = true → le a c = true)
    (total : ∀ a b, (le a b || le b a) = true) {l : List α} (irrefl : ∀ a, ¬ r a a)
    (ordered : l.Pairwise r) :
    (l.mergeSort le).Pairwise fun a b => le a b = true ∧ (le b a = true → r a b) := by
  have perm := List.mergeSort_perm l le
  have distinct : l.Nodup := by
    refine List.nodup_iff_pairwise_ne.mpr (ordered.imp ?_)
    rintro a _ before rfl
    exact irrefl a before
  have sorted {a b : α} : [a, b].Sublist (l.mergeSort le) → le a b = true :=
    List.pairwise_iff_forall_sublist.mp (List.pairwise_mergeSort trans total l)
  refine List.pairwise_iff_forall_sublist.mpr fun {a b} stands => ⟨sorted stands, fun back => ?_⟩
  have ha : a ∈ l := perm.mem_iff.mp (stands.subset (by simp))
  have hb : b ∈ l := perm.mem_iff.mp (stands.subset (by simp))
  have distinct' : (l.mergeSort le).Nodup := perm.nodup_iff.mpr distinct
  have different : a ≠ b := by
    rintro rfl
    exact List.nodup_iff_sublist.mp distinct' a stands
  -- had the two stood the other way round, sorting would have left them so
  rcases pair_sublist_or ha hb different with stood | stood
  · exact List.pairwise_iff_forall_sublist.mp ordered stood
  · exact absurd (List.pair_sublist_mergeSort trans total back stood)
      (not_pair_sublist_swap distinct' stands)

/-- **A ranking** of items in the order of their keys: more half points come first, of equal points
the smaller name, and of equal names the smaller key. -/
theorem pairwise_ranked (score : α → Nat) (name key : α → String) {l : List α}
    (ordered : l.Pairwise fun a b => key a < key b) :
    (l.mergeSort fun a b => ranksBefore (score a) (name a) (score b) (name b)).Pairwise fun a b =>
      Outranks (score a) (name a) (score b) (name b) ∨
        score a = score b ∧ name a = name b ∧ key a < key b := by
  have stable := pairwise_mergeSort_stable
    (fun a b => ranksBefore (score a) (name a) (score b) (name b))
    (fun _ _ _ => ranksBefore_trans) (fun _ _ => ranksBefore_total ..)
    (fun a => String.lt_irrefl (key a)) ordered
  refine stable.imp fun {a b} ⟨before, ties⟩ => ?_
  refine (outranks_or_eq before).imp_right fun ⟨same, equal⟩ => ⟨same, equal, ties ?_⟩
  exact ranksBefore_iff.mpr (.inr ⟨same.symm, equal ▸ String.le_refl _⟩)

/-! ## The first items -/

/-- What is not among the first items of a list in order comes after all of them, and it is left
out only because there are as many as asked for. -/
theorem of_take_of_pairwise {r : α → α → Prop} {l : List α} (ordered : l.Pairwise r) {count : Nat}
    {a : α} (mem : a ∈ l) (missed : a ∉ l.take count) :
    (l.take count).length = count ∧ ∀ b ∈ l.take count, r b a := by
  have later : a ∈ l.drop count := by
    rw [← List.take_append_drop count l] at mem
    exact (List.mem_append.mp mem).resolve_left missed
  constructor
  · have some := List.length_pos_of_mem later
    rw [List.length_drop] at some
    rw [List.length_take]
    omega
  · intro b first
    rw [← List.take_append_drop count l] at ordered
    exact (List.pairwise_append.mp ordered).2.2 b first a later

end Sorting

end CapabilityPipeline
