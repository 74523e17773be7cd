import CapabilityPipeline.Proofs.Registry.Discovery
import CapabilityPipeline.Proofs.Text.Trim
import Mathlib.Algebra.Order.BigOperators.Group.List
import Mathlib.Data.List.Perm.Subperm

/-!
# Wider queries

A query is wider than another if it has all keywords of the other. Every keyword adds to the half
points of a text and none takes from them, so that with a wider query an action, a node and what
discovery returns of a node have at least as many half points.

Results:

* `contains_keywords_append`, `wider_append`: a query with more words has the keywords of both.
* `overlap_le_of_wider`: a text has at least as many half points for a wider query.
* `Node.points_le_of_wider`: so does a node, and what counts still counts.
* `Snapshot.discover_wider`: what a query finds is found by a wider query, with as many half points
  or more.
-/

namespace CapabilityPipeline

/-- A query with these words has all words of another. -/
def NameSet.Wider (words : NameSet) (other : NameSet) : Prop :=
  ∀ word, other.contains word = true → words.contains word = true

/-! ## Keywords -/

theorem contains_keywords {text word : String} :
    (keywords text).contains word = true ↔ word ∈ longWords text ∧ word ∉ stopwords := by
  unfold keywords
  rw [← NameSet.mem_keys, NameSet.mem_keys_ofNames, List.mem_filter]
  simp

theorem longWords_append (a b : String) :
    longWords (a ++ " " ++ b) = longWords a ++ longWords b := by
  have spaced : (a ++ " " ++ b).toList = a.toList ++ ' ' :: b.toList := by simp
  unfold longWords
  rw [spaced, Text.splitAt_append_separator (by decide +kernel), List.filter_append,
    List.map_append]

/-- A text has the keywords of its two parts. -/
theorem contains_keywords_append {a b word : String} :
    (keywords (a ++ " " ++ b)).contains word = true ↔
      (keywords a).contains word = true ∨ (keywords b).contains word = true := by
  simp only [contains_keywords, longWords_append, List.mem_append, or_and_right]

/-- A query with more words, in front or behind, is wider. -/
theorem wider_append (a b : String) :
    (keywords (a ++ " " ++ b)).Wider (keywords a) ∧
      (keywords (a ++ " " ++ b)).Wider (keywords b) :=
  ⟨fun _ has => contains_keywords_append.mpr (.inl has),
    fun _ has => contains_keywords_append.mpr (.inr has)⟩

/-! ## Sums -/

theorem sum_map_le_of_subset {α : Type} (f : α → Nat) {l l' : List α} (distinct : l.Nodup)
    (sub : l ⊆ l') : (l.map f).sum ≤ (l'.map f).sum := by
  obtain ⟨arranged, perm, sublist⟩ := List.subperm_of_subset distinct sub
  calc (l.map f).sum = (arranged.map f).sum := (perm.map f).sum_eq.symm
    _ ≤ (l'.map f).sum := (sublist.map f).sum_le_sum fun _ _ => Nat.zero_le _

/-- The half points of a text are the sum of those of the words. -/
theorem overlap_eq_sum (words text : NameSet) :
    overlap words text = (words.keys.map (keywordScore text)).sum := by
  unfold overlap
  rw [List.sum_eq_foldr, List.foldr_map]

/-! ## Half points -/

section Widening

variable {words words' : NameSet}

theorem overlap_le_of_wider (wider : words'.Wider words) (text : NameSet) :
    overlap words text ≤ overlap words' text := by
  rw [overlap_eq_sum, overlap_eq_sum]
  refine sum_map_le_of_subset _ words.keys_nodup fun word mem => ?_
  exact NameSet.mem_keys.mpr (wider word (NameSet.mem_keys.mp mem))

theorem Action.score_le_of_wider (wider : words'.Wider words) (a : Action) (name : String) :
    a.score words name ≤ a.score words' name :=
  overlap_le_of_wider wider _

theorem Action.counts_of_wider (wider : words'.Wider words) {a : Action} {name : String}
    (counts : a.counts words name = true) : a.counts words' name = true := by
  unfold Action.counts at counts ⊢
  rw [decide_eq_true_eq] at counts ⊢
  exact Nat.le_trans counts (a.score_le_of_wider wider name)

namespace Node

theorem counting_sublist_of_wider (wider : words'.Wider words) (n : Node) :
    (n.counting words).Sublist (n.counting words') :=
  List.monotone_filter_right _ fun _ counts => Action.counts_of_wider wider counts

theorem counts_of_wider (wider : words'.Wider words) {n : Node} (counts : n.counts words = true) :
    n.counts words' = true := by
  have sublist := n.counting_sublist_of_wider wider
  unfold Node.counts at counts ⊢
  rw [Bool.not_eq_true', ← Bool.not_eq_true, List.isEmpty_iff] at counts ⊢
  exact fun none => counts (List.sublist_nil.mp (none ▸ sublist))

/-- The actions of a node that count have together at least as many half points. -/
theorem sum_counting_le_of_wider (wider : words'.Wider words) (n : Node) :
    ((n.counting words).map fun e => e.2.score words e.1).sum ≤
      ((n.counting words').map fun e => e.2.score words' e.1).sum := by
  calc ((n.counting words).map fun e => e.2.score words e.1).sum
      ≤ ((n.counting words).map fun e => e.2.score words' e.1).sum :=
        List.sum_le_sum fun e _ => e.2.score_le_of_wider wider e.1
    _ ≤ ((n.counting words').map fun e => e.2.score words' e.1).sum :=
        ((n.counting_sublist_of_wider wider).map _).sum_le_sum fun _ _ => Nat.zero_le _

/-- **A node has at least as many half points for a wider query**: each action that counts has at
least as many, more actions may count, and the query names the node if the other does. -/
theorem points_le_of_wider (wider : words'.Wider words) (n : Node) :
    n.points words ≤ n.points words' := by
  unfold points
  refine Nat.add_le_add (n.sum_counting_le_of_wider wider) ?_
  split
  · next named => rw [if_pos (wider _ named)]
  · exact Nat.zero_le _

end Node

end Widening

/-! ## Discovery without a limit -/

namespace Snapshot

variable {s : Snapshot} {query query' : String} {m : NodeMatch} {limit limit' : Nat}

theorem size_ranked_le (s : Snapshot) (words : NameSet) :
    (s.ranked words).length ≤ s.nodes.size := by
  unfold ranked candidates NameMap.size
  rw [List.length_mergeSort]
  exact List.length_filter_le _ _

/-- What is returned is what discovery says about a node that counts. -/
theorem exists_of_mem_discover (mem : m ∈ s.discover query limit) :
    ∃ id n, s.nodes.get? id = some n ∧ n.isAgent = false ∧ n.counts (keywords query) = true ∧
      m = n.matched (keywords query) := by
  rw [discover_eq] at mem
  obtain ⟨⟨id, n⟩, first, rfl⟩ := List.mem_map.mp mem
  obtain ⟨listed, capable, counts⟩ := mem_ranked.mp (List.mem_of_mem_take first)
  exact ⟨id, n, listed, capable, counts, rfl⟩

/-- All nodes that count are returned if there is room for all nodes. -/
theorem mem_discover (unlimited : s.nodes.size ≤ limit) {id : String} {n : Node}
    (listed : s.nodes.get? id = some n) (capable : n.isAgent = false)
    (counts : n.counts (keywords query) = true) :
    n.matched (keywords query) ∈ s.discover query limit := by
  have all := Nat.le_trans (s.size_ranked_le (keywords query)) unlimited
  rw [discover_eq, List.take_of_length_le all]
  exact List.mem_map.mpr ⟨(id, n), mem_ranked.mpr ⟨listed, capable, counts⟩, rfl⟩

/-- **Adding words to a query hides nothing.** What a query finds of a node, with any limit, a wider
query finds too if there is room for all nodes, and the node then has at least as many half
points. -/
theorem discover_wider (wider : (keywords query').Wider (keywords query))
    (unlimited : s.nodes.size ≤ limit') (mem : m ∈ s.discover query limit) :
    ∃ m' ∈ s.discover query' limit', m'.node = m.node ∧ m.score ≤ m'.score ∧
      ∃ id n, s.nodes.get? id = some n ∧ n.MatchedAs (keywords query) m ∧
        n.MatchedAs (keywords query') m' := by
  obtain ⟨id, n, listed, capable, counts, rfl⟩ := exists_of_mem_discover mem
  refine ⟨n.matched (keywords query'), ?_, rfl, n.points_le_of_wider wider, id, n, listed,
    n.matchedAs_matched _, n.matchedAs_matched _⟩
  exact mem_discover unlimited listed capable (Node.counts_of_wider wider counts)

set_option maxRecDepth 10000 in
/-- Who looks for parcels finds the post, and still does after asking for letters as well. -/
theorem discover_wider_postOffice :
    (keywords "letter or parcel").Wider (keywords "parcel") ∧ postOffice.nodes.size ≤ 3 ∧
      ∃ m ∈ postOffice.discover "parcel" 3, ∃ m' ∈ postOffice.discover "letter or parcel" 3,
        m'.node = m.node ∧ m.score ≤ m'.score ∧ ∃ id n, postOffice.nodes.get? id = some n ∧
          n.MatchedAs (keywords "parcel") m ∧ n.MatchedAs (keywords "letter or parcel") m' := by
  have wider : (keywords "letter or parcel").Wider (keywords "parcel") := by
    rw [show "letter or parcel" = "letter or" ++ " " ++ "parcel" by decide]
    exact (wider_append "letter or" "parcel").2
  have few : postOffice.nodes.size ≤ 3 := by decide
  have post : ((postOffice.nodes.get? "post").any fun n =>
      !n.isAgent && n.counts (keywords "parcel")) = true := by decide +kernel
  obtain ⟨n, listed, found⟩ := (Option.any_eq_true _ _).mp post
  rw [Bool.and_eq_true, Bool.not_eq_true'] at found
  have mem := mem_discover few listed found.1 found.2
  exact ⟨wider, few, _, mem, discover_wider wider few mem⟩

end Snapshot

end CapabilityPipeline
