import CapabilityPipeline.Proofs.Registry.Documents
import CapabilityPipeline.Proofs.Registry.Ranking
import Mathlib.Algebra.BigOperators.Group.List.Basic

/-!
# Discovery finds the best nodes

A query ranks the nodes that stand for no agent and have an action that counts. All actions that
count add to the half points of a node, also those that are not shown. Discovery returns the first
nodes of this ranking, so that what it leaves out ranks after everything that it returns, and less
is only the beginning of more.

Results:

* `Node.points`, `Node.ShowsBest`: what a node is worth for a query, and which actions it shows.
* `Snapshot.TopNodes`: the best nodes of a snapshot, no more than asked for.
* `Snapshot.discover_eq`: discovery as a ranking of the nodes that count.
* `Snapshot.discover_top`: discovery returns the best nodes, each with its best actions.
-/

namespace CapabilityPipeline

/-! ## Points -/

/-- The half points of an action for a query. -/
def Action.score (a : Action) (words : NameSet) (name : String) : Nat :=
  overlap words (keywords (describingText name a))

/-- An action with enough half points counts. -/
def Action.counts (a : Action) (words : NameSet) (name : String) : Bool :=
  minActionScore ≤ a.score words name

/-- An action as it is shown. -/
def Action.shown (a : Action) (words : NameSet) (name : String) : ActionMatch :=
  ⟨name, a.description, a.usage, a.score words name⟩

namespace Node

/-- The actions of a node that count, in the order of their names. -/
def counting (n : Node) (words : NameSet) : List (String × Action) :=
  n.actions.entries.filter fun e => e.2.counts words e.1

/-- Some action of the node counts. -/
def counts (n : Node) (words : NameSet) : Bool :=
  !(n.counting words).isEmpty

/-- The half points of a node: those of all its actions that count, and more if the query names
the node. -/
def points (n : Node) (words : NameSet) : Nat :=
  ((n.counting words).map fun e => e.2.score words e.1).sum +
    if words.contains (lowerCased n.id) then nodeNameScore else 0

/-- A node as discovery returns it. -/
def matched (n : Node) (words : NameSet) : NodeMatch :=
  ⟨n.id, n.points words, (matchingActions words n).take maxShownActions⟩

/-- Of the actions of a node that count the best are shown, as many as there is room for. -/
structure ShowsBest (n : Node) (words : NameSet) (shown : List ActionMatch) : Prop where
  size : shown.length = min maxShownActions (n.counting words).length
  counting : ∀ a ∈ shown, ∃ e ∈ n.counting words, a = e.2.shown words e.1
  ordered : shown.Pairwise fun a b => Outranks a.score a.action b.score b.action
  best : ∀ e ∈ n.counting words, e.2.shown words e.1 ∉ shown →
    ∀ a ∈ shown, Outranks a.score a.action (e.2.score words e.1) e.1

/-- What discovery says about a node. -/
structure MatchedAs (n : Node) (words : NameSet) (m : NodeMatch) : Prop where
  node : m.node = n.id
  score : m.score = n.points words
  actions : n.ShowsBest words m.actions

variable (n : Node) (words : NameSet)

/-! ## Actions that are shown -/

/-- The actions of a node that count are ranked. -/
theorem matchingActions_eq : matchingActions words n =
    ((n.counting words).map fun e => e.2.shown words e.1).mergeSort fun a b =>
      ranksBefore a.score a.action b.score b.action := by
  have found : (n.counting words).map (fun e => e.2.shown words e.1) =
      n.actions.entries.filterMap fun e =>
        if e.2.counts words e.1 then some (e.2.shown words e.1) else none := by
    unfold counting
    rw [← List.filterMap_eq_map, List.filterMap_filter]
    rfl
  rw [found]
  unfold matchingActions
  simp only [Action.counts, decide_eq_true_eq]
  rfl

theorem matchingActions_perm : (matchingActions words n).Perm
    ((n.counting words).map fun e => e.2.shown words e.1) := by
  rw [matchingActions_eq]
  exact List.mergeSort_perm _ _

theorem pairwise_matchingActions : (matchingActions words n).Pairwise fun a b =>
    Outranks a.score a.action b.score b.action := by
  have named : ((n.counting words).map fun e => e.2.shown words e.1).Pairwise fun a b =>
      a.action < b.action := List.pairwise_map.mpr (n.actions.sorted.filter _)
  rw [matchingActions_eq]
  refine (pairwise_ranked ActionMatch.score ActionMatch.action ActionMatch.action named).imp ?_
  rintro a b (above | ⟨-, same, before⟩)
  · exact above
  · exact absurd (same ▸ before) (String.lt_irrefl _)

/-- **A node shows its best actions.** -/
theorem showsBest_take : n.ShowsBest words ((matchingActions words n).take maxShownActions) := by
  have perm := n.matchingActions_perm words
  have ordered := n.pairwise_matchingActions words
  refine ⟨?_, fun a mem => ?_, ordered.sublist (List.take_sublist _ _), fun e mem missed => ?_⟩
  · rw [List.length_take, perm.length_eq, List.length_map]
  · obtain ⟨e, counts, same⟩ := List.mem_map.mp (perm.mem_iff.mp (List.mem_of_mem_take mem))
    exact ⟨e, counts, same.symm⟩
  · exact (of_take_of_pairwise ordered (perm.mem_iff.mpr (List.mem_map_of_mem mem)) missed).2

/-! ## What is returned of a node -/

theorem foldr_score (l : List ActionMatch) (named : Nat) :
    l.foldr (fun a sum => a.score + sum) named = (l.map ActionMatch.score).sum + named := by
  induction l with
  | nil => simp
  | cons a rest ih => rw [List.foldr_cons, ih, List.map_cons, List.sum_cons, Nat.add_assoc]

/-- The half points of a node do not depend on the order of its actions. -/
theorem points_eq : n.points words = (matchingActions words n).foldr (fun a sum => a.score + sum)
    (if words.contains (lowerCased n.id) then nodeNameScore else 0) := by
  have sum := ((n.matchingActions_perm words).map ActionMatch.score).sum_eq
  rw [foldr_score, sum, List.map_map]
  rfl

/-- A node is returned if some action counts. -/
theorem matchNode_eq : matchNode words n =
    if n.counts words then some (n.matched words) else none := by
  have size := (n.matchingActions_perm words).length_eq
  rw [List.length_map] at size
  unfold matchNode matched counts
  rw [points_eq]
  cases actions : matchingActions words n with
  | nil =>
    rw [actions, List.length_nil] at size
    rw [List.eq_nil_of_length_eq_zero size.symm]
    rfl
  | cons a rest =>
    cases counting : n.counting words with
    | nil =>
      rw [actions, counting] at size
      cases size
    | cons e others => rfl

theorem matchedAs_matched : n.MatchedAs words (n.matched words) :=
  ⟨rfl, rfl, n.showsBest_take words⟩

end Node

/-- Nothing counts for a query without keywords. -/
theorem overlap_of_isEmpty {words : NameSet} (none : words.isEmpty = true) (text : NameSet) :
    overlap words text = 0 := by
  unfold overlap NameMap.keys
  rw [List.isEmpty_iff.mp none]
  rfl

theorem Node.counts_of_isEmpty {words : NameSet} (none : words.isEmpty = true) (n : Node) :
    n.counts words = false := by
  unfold counts counting Action.counts Action.score
  simp only [overlap_of_isEmpty none]
  rw [List.filter_eq_nil_iff.mpr (fun _ _ => by decide)]
  rfl

/-! ## Nodes in their ranking -/

/-- A node ranks above another: it has more half points, or as many and a smaller id. Two nodes with
one id, which is not the id that both are listed under, rank in the order in which they are
listed. -/
def RanksAbove (words : NameSet) (a b : String × Node) : Prop :=
  Outranks (a.2.points words) a.2.id (b.2.points words) b.2.id ∨
    a.2.points words = b.2.points words ∧ a.2.id = b.2.id ∧ a.1 < b.1

namespace Snapshot

variable (s : Snapshot) (words : NameSet)

/-- The best nodes of a snapshot for a query, with the ids that they are listed under: nodes that
stand for no agent and of which an action counts, each once and in their ranking, and only as many
as asked for. Any other such node ranks after all of them. -/
structure TopNodes (limit : Nat) (top : List (String × Node)) : Prop where
  found : ∀ e ∈ top, s.nodes.get? e.1 = some e.2 ∧ e.2.isAgent = false ∧ e.2.counts words = true
  once : (top.map Prod.fst).Nodup
  ordered : top.Pairwise (RanksAbove words)
  within : top.length ≤ limit
  best : ∀ id n, s.nodes.get? id = some n → n.isAgent = false → n.counts words = true →
    (id, n) ∉ top → top.length = limit ∧ ∀ e ∈ top, RanksAbove words e (id, n)

/-- The nodes that a query may find, in the order in which they are listed. -/
def candidates : List (String × Node) :=
  s.nodes.entries.filter fun e => !e.2.isAgent && e.2.counts words

/-- The nodes that a query may find, best first. -/
def ranked : List (String × Node) :=
  (s.candidates words).mergeSort fun a b =>
    ranksBefore (a.2.points words) a.2.id (b.2.points words) b.2.id

theorem mem_ranked {s : Snapshot} {words : NameSet} {e : String × Node} : e ∈ s.ranked words ↔
    s.nodes.get? e.1 = some e.2 ∧ e.2.isAgent = false ∧ e.2.counts words = true := by
  unfold ranked candidates
  rw [(List.mergeSort_perm _ _).mem_iff, List.mem_filter, Bool.and_eq_true, Bool.not_eq_true']
  exact and_congr_left' NameMap.mem_entries

theorem pairwise_ranked_nodes : (s.ranked words).Pairwise (RanksAbove words) :=
  pairwise_ranked (fun e : String × Node => e.2.points words) (fun e => e.2.id) Prod.fst
    (s.nodes.sorted.filter _)

theorem ranked_keys_nodup : ((s.ranked words).map Prod.fst).Nodup := by
  have perm := (List.mergeSort_perm (s.candidates words) fun a b =>
    ranksBefore (a.2.points words) a.2.id (b.2.points words) b.2.id).map Prod.fst
  exact perm.nodup_iff.mpr (s.nodes.keys_nodup.sublist (List.filter_sublist.map Prod.fst))

/-- The first nodes of the ranking are the best. -/
theorem topNodes_take (limit : Nat) : s.TopNodes words limit ((s.ranked words).take limit) where
  found _ mem := mem_ranked.mp (List.mem_of_mem_take mem)
  once := (s.ranked_keys_nodup words).sublist ((List.take_sublist _ _).map Prod.fst)
  ordered := (s.pairwise_ranked_nodes words).sublist (List.take_sublist _ _)
  within := List.length_take_le _ _
  best _ _ listed capable counts missed :=
    of_take_of_pairwise (s.pairwise_ranked_nodes words) (mem_ranked.mpr ⟨listed, capable, counts⟩)
      missed

/-! ## Discovery -/

/-- What is found before it is ranked. -/
theorem filterMap_matchNode : (s.list false).filterMap (matchNode words) =
    (s.candidates words).map fun e => e.2.matched words := by
  unfold Snapshot.list NameMap.values candidates
  rw [List.filter_map, List.filterMap_map, ← List.filterMap_eq_map, List.filterMap_filter,
    List.filterMap_filter]
  refine List.filterMap_congr fun e _ => ?_
  simp only [Function.comp_apply, Node.matchNode_eq, Bool.false_or]
  cases e.2.isAgent <;> cases e.2.counts words <;> rfl

/-- **Discovery is a ranking** of the nodes that stand for no agent and count. -/
theorem discover_eq (query : String) (limit : Nat) : s.discover query limit =
    ((s.ranked (keywords query)).take limit).map fun e => e.2.matched (keywords query) := by
  unfold Snapshot.discover
  dsimp only
  split
  · next none =>
    have nobody : s.candidates (keywords query) = [] :=
      List.filter_eq_nil_iff.mpr fun e _ => by
        rw [Node.counts_of_isEmpty none, Bool.and_false]
        exact Bool.false_ne_true
    unfold ranked
    rw [nobody, List.mergeSort_nil, List.take_nil]
    rfl
  · have sorted : (s.ranked (keywords query)).map (fun e => e.2.matched (keywords query)) =
        ((s.candidates (keywords query)).map fun e => e.2.matched (keywords query)).mergeSort
          fun a b => ranksBefore a.score a.node b.score b.node :=
      List.map_mergeSort fun _ _ _ _ => rfl
    rw [filterMap_matchNode, List.map_take, sorted]

/-- Where nodes are listed under their own ids, the ranking is by points and ids. -/
theorem outranks_of_ranksAbove (named : NodesNamed s.nodes) {a b : String × Node}
    (ha : s.nodes.get? a.1 = some a.2) (hb : s.nodes.get? b.1 = some b.2)
    (above : RanksAbove words a b) :
    Outranks (a.2.points words) a.2.id (b.2.points words) b.2.id := by
  rcases above with above | ⟨-, same, before⟩
  · exact above
  · rw [named a.1 a.2 ha, named b.1 b.2 hb] at same
    exact absurd (same ▸ before) (String.lt_irrefl _)

/-- The nodes of a snapshot of nodes are listed under their own ids. -/
theorem nodesNamed_ofNodes (nodes : List Node) : NodesNamed (ofNodes nodes).nodes := by
  have inserted (l : List Node) : ∀ m : NameMap Node, NodesNamed m →
      NodesNamed ((l.map fun n => (n.id, n)).foldl (fun m e => m.insert e.1 e.2) m) := by
    induction l with
    | nil => exact fun _ named => named
    | cons n rest ih =>
      refine fun m named => ih _ fun id node found => ?_
      rw [NameMap.get?_insert] at found
      split at found
      · next same => exact Option.some.inj found ▸ same.symm
      · exact named id node found
  exact inserted nodes .empty nodesNamed_empty

/-- **Discovery returns the top of the ranking.** It lists the best nodes for a query, each with its
half points and its best actions. More half points come first, and of equal points the smaller id.
With a smaller limit it returns the beginning of what it returns with a larger one. -/
theorem discover_top (query : String) {j k : Nat} (fewer : j ≤ k) :
    (∃ top, s.TopNodes (keywords query) k top ∧
      List.Forall₂ (fun e m => e.2.MatchedAs (keywords query) m) top (s.discover query k)) ∧
    (NodesNamed s.nodes →
      (s.discover query k).Pairwise fun a b => Outranks a.score a.node b.score b.node) ∧
    s.discover query j = (s.discover query k).take j := by
  have top := s.topNodes_take (keywords query) k
  refine ⟨⟨_, top, ?_⟩, fun named => ?_, ?_⟩
  · rw [discover_eq, List.forall₂_map_right_iff, List.forall₂_same]
    exact fun e _ => e.2.matchedAs_matched (keywords query)
  · rw [discover_eq, List.pairwise_map]
    refine top.ordered.imp_of_mem fun ha hb above => ?_
    exact s.outranks_of_ranksAbove (keywords query) named (top.found _ ha).1 (top.found _ hb).1
      above
  · rw [discover_eq, discover_eq, ← List.map_take, List.take_take, Nat.min_eq_left fewer]

/-- A post office with a desk, and with a clerk who is an agent. -/
def postOffice : Snapshot := .ofNodes [
  (Node.ofId "desk").withAction "send" ⟨.package "mail" "send", "Sends a letter", none⟩,
  ((Node.ofId "post").withAction "send_letter" (.code "Sends letters")).withAction "send_parcel"
    (.code "Sends parcels"),
  (Node.agent "clerk").withAction "ask" (.code "Ask to send a letter")]

set_option maxRecDepth 10000 in
/-- Who wants to send a letter finds the post and the desk, and the clerk is left out. -/
theorem discover_top_postOffice : 1 ≤ 2 ∧ (postOffice.discover "send a letter" 2).length = 2 ∧
    (∃ top, postOffice.TopNodes (keywords "send a letter") 2 top ∧
      List.Forall₂ (fun e m => e.2.MatchedAs (keywords "send a letter") m) top
        (postOffice.discover "send a letter" 2)) ∧
    ((postOffice.discover "send a letter" 2).Pairwise fun a b =>
      Outranks a.score a.node b.score b.node) ∧
    postOffice.discover "send a letter" 1 = (postOffice.discover "send a letter" 2).take 1 := by
  have found : (postOffice.candidates (keywords "send a letter")).length = 2 := by decide +kernel
  obtain ⟨best, ordered, first⟩ := postOffice.discover_top "send a letter" (j := 1) (k := 2)
    (by decide)
  refine ⟨by decide, ?_, best, ordered (nodesNamed_ofNodes _), first⟩
  rw [discover_eq, List.length_map, List.length_take, ranked, List.length_mergeSort, found]
  rfl

end Snapshot

end CapabilityPipeline
