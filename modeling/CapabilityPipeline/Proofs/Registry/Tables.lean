import CapabilityPipeline.Proofs.Registry.Isolation

/-!
# Tables told apart by look-ups

The tables of owners and of holders are tables in tables, and entries that become empty are
dropped. Without empty entries there is one table for each way of answering look-ups, and nodes
are determined by what they are, their actions and their guides.

Results:

* `Provenance.Filled`, `GuideOwners.Filled`: tables without empty parts, which are equal when
  they answer alike.
* `GuideOwners.mem_heldAlone`: which guides a package holds alone.
* `Contents.nodes_ext`: when nodes are the same.
-/

namespace CapabilityPipeline

/-! ## Tables without empty parts -/

/-- Tables in tables, of which none is empty, are equal when they answer every look-up alike. -/
theorem NameMap.ext_nested {α : Type} {m m' : NameMap (NameMap α)}
    (filled : ∀ node inner, m.get? node = some inner → inner.isEmpty = false)
    (filled' : ∀ node inner, m'.get? node = some inner → inner.isEmpty = false)
    (same : ∀ node name, ((m.get? node).bind fun inner => inner.get? name) =
      (m'.get? node).bind fun inner => inner.get? name) : m = m' := by
  -- an inner table that is missed finds nothing
  have missing {inner : NameMap α} (found : inner.isEmpty = false)
      (none : ∀ name, inner.get? name = none) : False := by
    rw [NameMap.isEmpty_iff.mpr none] at found
    cases found
  refine NameMap.ext_get? fun node => ?_
  have here := same node
  cases found : m.get? node with
  | none =>
    cases found' : m'.get? node with
    | none => rfl
    | some inner' =>
      rw [found, found'] at here
      exact (missing (filled' node inner' found') fun name => (here name).symm).elim
  | some inner =>
    cases found' : m'.get? node with
    | none =>
      rw [found, found'] at here
      exact (missing (filled node inner found) here).elim
    | some inner' =>
      rw [found, found'] at here
      exact congrArg some (NameMap.ext_get? here)

namespace Provenance

/-- No node has an empty table of owners. -/
def Filled (p : Provenance) : Prop :=
  ∀ node actions, p.table.get? node = some actions → actions.isEmpty = false

theorem Filled.ext {p p' : Provenance} (h : p.Filled) (h' : p'.Filled)
    (same : ∀ node action, p.owner? node action = p'.owner? node action) : p = p' := by
  cases p
  cases p'
  exact congrArg Provenance.mk (NameMap.ext_nested h h' same)

theorem Filled.record {p : Provenance} (h : p.Filled) (node action packageId : String) :
    (p.record node action packageId).Filled := by
  intro other actions found
  unfold Provenance.record at found
  rw [NameMap.get?_insert] at found
  split at found
  · cases found
    refine Bool.eq_false_iff.mpr fun empty => ?_
    have none := NameMap.isEmpty_iff.mp empty action
    rw [NameMap.get?_insert, if_pos rfl] at none
    cases none
  · exact h other actions found

theorem Filled.remove {p : Provenance} (h : p.Filled) (node action : String) :
    (p.remove node action).Filled := by
  intro other actions found
  unfold Provenance.remove at found
  split at found
  · exact h other actions found
  · dsimp only at found
    split at found
    · rw [NameMap.get?_erase] at found
      split at found
      · cases found
      · exact h other actions found
    · next filled =>
      rw [NameMap.get?_insert] at found
      split at found
      · cases found
        exact Bool.eq_false_iff.mpr filled
      · exact h other actions found

end Provenance

namespace GuideOwners

/-- No node has an empty table of guides, and no guide an empty set of holders. -/
structure Filled (g : GuideOwners) : Prop where
  guides : ∀ node guides, g.table.get? node = some guides → guides.isEmpty = false
  holders : ∀ node guides guide holders, g.table.get? node = some guides →
    guides.get? guide = some holders → holders.isEmpty = false

/-- A guide with an entry is held by some package. -/
theorem Filled.exists_holder {g : GuideOwners} (h : g.Filled) {node guide : String}
    (owned : g.isOwned node guide = true) :
    ∃ packageId, (g.holders node guide).contains packageId = true := by
  unfold isOwned at owned
  obtain ⟨holders, entry⟩ := Option.isSome_iff_exists.mp owned
  obtain ⟨guides, found, held⟩ := Option.bind_eq_some_iff.mp entry
  have filled := h.holders node guides guide holders found held
  have same : g.holders node guide = holders := by
    unfold GuideOwners.holders
    rw [entry]
    rfl
  by_contra nobody
  push Not at nobody
  rw [same] at nobody
  rw [NameMap.isEmpty_iff.mpr fun name => Option.not_isSome_iff_eq_none.mp (nobody name)] at filled
  cases filled

theorem Filled.ext {g g' : GuideOwners} (h : g.Filled) (h' : g'.Filled)
    (same : ∀ node guide packageId, (g.holders node guide).contains packageId = true ↔
      (g'.holders node guide).contains packageId = true) : g = g' := by
  have entry (node guide : String) : ((g.table.get? node).bind fun guides => guides.get? guide) =
      (g'.table.get? node).bind fun guides => guides.get? guide := by
    have owned : g.isOwned node guide = g'.isOwned node guide := by
      refine Bool.eq_iff_iff.mpr ⟨fun owned => ?_, fun owned => ?_⟩
      · obtain ⟨packageId, holds⟩ := h.exists_holder owned
        exact isOwned_of_contains_holders ((same node guide packageId).mp holds)
      · obtain ⟨packageId, holds⟩ := h'.exists_holder owned
        exact isOwned_of_contains_holders ((same node guide packageId).mpr holds)
    have holders : g.holders node guide = g'.holders node guide := by
      refine NameMap.ext_get? fun packageId => ?_
      have alike := same node guide packageId
      unfold NameMap.contains at alike
      cases found : (g.holders node guide).get? packageId <;>
        cases found' : (g'.holders node guide).get? packageId <;> simp_all
    unfold isOwned at owned
    unfold GuideOwners.holders at holders
    cases found : (g.table.get? node).bind fun guides => guides.get? guide <;>
      cases found' : (g'.table.get? node).bind fun guides => guides.get? guide <;> simp_all
  cases g
  cases g'
  exact congrArg GuideOwners.mk (NameMap.ext_nested h.guides h'.guides entry)

theorem Filled.record {g : GuideOwners} (h : g.Filled) (node guide packageId : String) :
    (g.record node guide packageId).Filled := by
  have added (names : NameSet) : (names.add packageId).isEmpty = false := by
    refine Bool.eq_false_iff.mpr fun empty => ?_
    have none := NameMap.isEmpty_iff.mp empty packageId
    unfold NameSet.add at none
    rw [NameMap.get?_insert, if_pos rfl] at none
    cases none
  constructor
  · intro other guides found
    unfold GuideOwners.record at found
    rw [NameMap.get?_insert] at found
    split at found
    · cases found
      refine Bool.eq_false_iff.mpr fun empty => ?_
      have none := NameMap.isEmpty_iff.mp empty guide
      rw [NameMap.get?_insert, if_pos rfl] at none
      cases none
    · exact h.guides other guides found
  · intro other guides name holders found held
    unfold GuideOwners.record at found
    rw [NameMap.get?_insert] at found
    split at found
    · next same =>
      subst same
      cases found
      rw [NameMap.get?_insert] at held
      split at held
      · cases held
        exact added _
      · cases before : g.table.get? other with
        | none =>
          rw [before] at held
          cases held
        | some guides =>
          rw [before] at held
          exact h.holders other guides name holders before held
    · exact h.holders other guides name holders found held

/-- Dropping a package leaves no empty part. -/
theorem filled_drop (g : GuideOwners) (packageId : String) : (g.drop packageId).Filled := by
  constructor
  · intro node guides found
    unfold drop at found
    rw [NameMap.get?_filter, Option.filter_eq_some_iff] at found
    simpa using found.2
  · intro node guides guide holders found held
    unfold drop at found
    rw [NameMap.get?_filter, NameMap.get?_mapValues, Option.filter_eq_some_iff] at found
    obtain ⟨before, -, rfl⟩ := Option.map_eq_some_iff.mp found.1
    rw [NameMap.get?_filter, Option.filter_eq_some_iff] at held
    simpa using held.2

/-- A package holds a guide alone when it is its only holder. -/
theorem mem_heldAlone {g : GuideOwners} {packageId node guide : String} :
    (node, guide) ∈ g.heldAlone packageId ↔
      ∀ other, (g.holders node guide).contains other = true ↔ other = packageId := by
  refine ⟨contains_holders_of_mem_heldAlone, fun alone => ?_⟩
  have held := (alone packageId).mpr rfl
  obtain ⟨holders, entry⟩ := Option.isSome_iff_exists.mp (isOwned_of_contains_holders held)
  obtain ⟨guides, found, within⟩ := Option.bind_eq_some_iff.mp entry
  have same : g.holders node guide = holders := by
    unfold GuideOwners.holders
    rw [entry]
    rfl
  rw [same] at alone held
  have left : NameMap.isEmpty (holders.erase packageId) = true := by
    refine NameMap.isEmpty_iff.mpr fun other => Option.not_isSome_iff_eq_none.mp fun left => ?_
    obtain ⟨different, holds⟩ := (NameSet.contains_erase holders packageId other).mp left
    exact different ((alone other).mp holds)
  unfold heldAlone
  refine List.mem_flatMap.mpr ⟨(node, guides), NameMap.mem_entries.mpr found, ?_⟩
  refine List.mem_map.mpr ⟨(guide, holders), List.mem_filter.mpr ⟨?_, ?_⟩, rfl⟩
  · exact NameMap.mem_entries.mpr within
  · exact Bool.and_eq_true_iff.mpr ⟨held, left⟩

end GuideOwners

/-! ## Guides of nodes -/

/-- The guides of a node, in order. -/
def guides? (nodes : NameMap Node) (id : String) : Option (List String) :=
  (nodes.get? id).map Node.guides

theorem listsGuide_iff {nodes : NameMap Node} {node guide : String} :
    ListsGuide nodes node guide ↔ ∃ guides, guides? nodes node = some guides ∧ guide ∈ guides := by
  unfold ListsGuide guides?
  constructor
  · rintro ⟨n, found, mem⟩
    exact ⟨n.guides, by rw [found]; rfl, mem⟩
  · rintro ⟨guides, found, mem⟩
    obtain ⟨n, there, rfl⟩ := Option.map_eq_some_iff.mp found
    exact ⟨n, there, mem⟩

theorem guides?_modify (nodes : NameMap Node) (node id : String) (f : Node → Node) :
    guides? (nodes.modify node f) id =
      if id = node then (nodes.get? id).map fun n => (f n).guides else guides? nodes id := by
  unfold guides?
  rw [NameMap.get?_modify]
  split
  · rw [Option.map_map]
    rfl
  · rfl

/-- Nodes are the same when they are the same nodes with the same actions and guides. -/
theorem Contents.nodes_ext {c c' : Contents}
    (identity : ∀ id, identity? c.nodes id = identity? c'.nodes id)
    (guides : ∀ id, guides? c.nodes id = guides? c'.nodes id)
    (actions : ∀ id name, c.action? id name = c'.action? id name) : c.nodes = c'.nodes := by
  refine NameMap.ext_get? fun id => ?_
  have sameIdentity := identity id
  have sameGuides := guides id
  have sameActions := actions id
  unfold identity? at sameIdentity
  unfold guides? at sameGuides
  unfold Contents.action? at sameActions
  cases found : c.nodes.get? id with
  | none =>
    rw [found] at sameIdentity
    exact (Option.map_eq_none_iff.mp sameIdentity.symm).symm
  | some n =>
    rw [found] at sameIdentity sameGuides sameActions
    obtain ⟨n', found', same⟩ := Option.map_eq_some_iff.mp sameIdentity.symm
    rw [found'] at sameGuides sameActions ⊢
    have equal : n.actions = n'.actions := NameMap.ext_get? sameActions
    have equal' : n.guides = n'.guides := Option.some.inj sameGuides
    unfold Node.identity at same
    cases n
    cases n'
    simp_all

end CapabilityPipeline
