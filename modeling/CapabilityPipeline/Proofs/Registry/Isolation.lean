import CapabilityPipeline.Proofs.Registry.Consistency

/-!
# Packages leave each other alone

Whatever other packages do, a package keeps what it owns: its actions as they are defined, and
the guides that it holds. No change makes, removes or redefines a node, a guide goes only with
the last package that held it, and an action without an owner changes only when a manifest names
it.

Results:

* `Contents.Holds`, `ListsGuide`: who holds a guide, and which nodes list it.
* `Contents.preserves_apply`: what every change leaves as it was.
* `Contents.undisturbed_history`: changes of other packages leave a package undisturbed.
-/

namespace CapabilityPipeline

/-! ## Guides and their holders -/

namespace GuideOwners

theorem holders_record (g : GuideOwners) (node guide packageId other name : String) :
    (g.record node guide packageId).holders other name =
      if other = node ∧ name = guide then (g.holders node guide).add packageId
      else g.holders other name := by
  unfold record holders
  rw [NameMap.get?_insert]
  by_cases hn : other = node
  · subst hn
    rw [if_pos rfl, Option.bind_some, NameMap.get?_insert]
    by_cases hg : name = guide
    · subst hg
      rw [if_pos rfl, if_pos ⟨rfl, rfl⟩]
      cases g.table.get? other <;> rfl
    · rw [if_neg hg, if_neg (fun h => hg h.2)]
      cases g.table.get? other <;> rfl
  · rw [if_neg hn, if_neg (fun h => hn h.1)]

theorem isOwned_record (g : GuideOwners) (node guide packageId other name : String) :
    (g.record node guide packageId).isOwned other name =
      (decide (other = node ∧ name = guide) || g.isOwned other name) := by
  unfold record isOwned
  rw [NameMap.get?_insert]
  by_cases hn : other = node
  · subst hn
    rw [if_pos rfl, Option.bind_some, NameMap.get?_insert]
    by_cases hg : name = guide
    · simp [hg]
    · rw [if_neg hg]
      cases g.table.get? other <;> simp [hg]
  · simp [hn]

/-- A map that is left out of a table when it has no entries is missed by no look-up. -/
theorem getD_filter_isEmpty {α : Type} (m : NameMap α) :
    ((some m).filter fun m => !m.isEmpty).getD .empty = m := by
  cases h : m.isEmpty with
  | false => simp [Option.filter, h]
  | true => simpa [Option.filter, h] using (NameMap.eq_empty_of_isEmpty h).symm

theorem bind_filter_isEmpty {α : Type} (m : NameMap α) (name : String) :
    (((some m).filter fun m => !m.isEmpty).bind fun m => m.get? name) = m.get? name := by
  cases h : m.isEmpty with
  | false => simp [Option.filter, h]
  | true => simpa [Option.filter, h] using (NameMap.isEmpty_iff.mp h name).symm

/-- The holders in a table from which a package is dropped. -/
theorem holders_drop (g : GuideOwners) (packageId node guide : String) :
    (g.drop packageId).holders node guide = (g.holders node guide).erase packageId := by
  have inner (guides : NameMap NameSet) :
      (((guides.mapValues fun _ holders => holders.erase packageId).filter fun _ holders =>
        !holders.isEmpty).get? guide).getD .empty =
          ((guides.get? guide).getD .empty).erase packageId := by
    rw [NameMap.get?_filter, NameMap.get?_mapValues]
    cases guides.get? guide with
    | none => rfl
    | some holders => exact getD_filter_isEmpty _
  unfold drop holders
  rw [NameMap.get?_filter, NameMap.get?_mapValues]
  cases g.table.get? node with
  | none => rfl
  | some guides =>
    rw [Option.map_some, bind_filter_isEmpty]
    exact inner guides

theorem isOwned_of_isOwned_drop {g : GuideOwners} {packageId node guide : String}
    (h : (g.drop packageId).isOwned node guide = true) : g.isOwned node guide = true := by
  unfold drop isOwned at h
  rw [NameMap.get?_filter, NameMap.get?_mapValues] at h
  unfold isOwned
  cases found : g.table.get? node with
  | none =>
    rw [found] at h
    cases h
  | some guides =>
    rw [found, Option.map_some, bind_filter_isEmpty, NameMap.get?_filter,
      NameMap.get?_mapValues] at h
    rw [Option.bind_some]
    cases entry : guides.get? guide with
    | none =>
      rw [entry] at h
      cases h
    | some holders => rfl

theorem isOwned_of_contains_holders {g : GuideOwners} {packageId node guide : String}
    (h : (g.holders node guide).contains packageId = true) : g.isOwned node guide = true := by
  unfold holders at h
  unfold isOwned
  cases found : (g.table.get? node).bind fun guides => guides.get? guide with
  | none =>
    rw [found] at h
    cases h
  | some holders => rfl

/-- A guide that a package holds alone is held by it and by no other. -/
theorem contains_holders_of_mem_heldAlone {g : GuideOwners} {packageId node guide : String}
    (h : (node, guide) ∈ g.heldAlone packageId) (other : String) :
    (g.holders node guide).contains other = true ↔ other = packageId := by
  unfold heldAlone at h
  obtain ⟨⟨n, guides⟩, listed, h⟩ := List.mem_flatMap.mp h
  obtain ⟨⟨name, holders⟩, held, same⟩ := List.mem_map.mp h
  cases same
  obtain ⟨entry, alone⟩ := List.mem_filter.mp held
  obtain ⟨held, others⟩ := Bool.and_eq_true_iff.mp alone
  have found : g.holders node guide = holders := by
    unfold GuideOwners.holders
    rw [NameMap.mem_entries.mp listed, Option.bind_some, NameMap.mem_entries.mp entry]
    rfl
  rw [found]
  constructor
  · intro holds
    by_contra different
    have left : NameMap.contains (holders.erase packageId) other = true :=
      (NameSet.contains_erase holders packageId other).mpr ⟨different, holds⟩
    rw [NameMap.contains, NameMap.isEmpty_iff.mp others other] at left
    cases left
  · rintro rfl
    exact held

end GuideOwners

/-! ## What a registry says about nodes and guides -/

/-- What makes a node the node that it is: everything but its actions and guides. -/
def Node.identity (n : Node) : String × NodeKind × Option String :=
  (n.id, n.kind, n.description)

/-- The identity of the node of an id. -/
def identity? (nodes : NameMap Node) (id : String) : Option (String × NodeKind × Option String) :=
  (nodes.get? id).map Node.identity

/-- A guide is on the list of a node. -/
def ListsGuide (nodes : NameMap Node) (node guide : String) : Prop :=
  ∃ n, nodes.get? node = some n ∧ guide ∈ n.guides

theorem identity?_modify (nodes : NameMap Node) {f : Node → Node}
    (h : ∀ n, (f n).identity = n.identity) (node id : String) :
    identity? (nodes.modify node f) id = identity? nodes id := by
  unfold identity?
  rw [NameMap.get?_modify]
  split
  · rw [Option.map_map]
    exact Option.map_congr fun n _ => h n
  · rfl

theorem listsGuide_modify (nodes : NameMap Node) (node other guide : String) (f : Node → Node) :
    ListsGuide (nodes.modify node f) other guide ↔
      ∃ n, nodes.get? other = some n ∧ guide ∈ (if other = node then f n else n).guides := by
  unfold ListsGuide
  rw [NameMap.get?_modify]
  split <;> simp

namespace Contents

variable {c c' c'' : Contents}

/-- A package holds a guide of a node. -/
def Holds (c : Contents) (packageId node guide : String) : Prop :=
  (c.guides.holders node guide).contains packageId = true

/-! ## Registering -/

/-- Nodes are what they were, and guides are listed and held as before and possibly more. -/
structure Extends (c c' : Contents) : Prop where
  identity : ∀ id, identity? c'.nodes id = identity? c.nodes id
  lists : ∀ node guide, ListsGuide c.nodes node guide → ListsGuide c'.nodes node guide
  holds : ∀ packageId node guide, c.Holds packageId node guide → c'.Holds packageId node guide

theorem Extends.refl (c : Contents) : c.Extends c :=
  ⟨fun _ => rfl, fun _ _ => id, fun _ _ _ => id⟩

theorem Extends.trans (h : c.Extends c') (h' : c'.Extends c'') : c.Extends c'' where
  identity id := (h'.identity id).trans (h.identity id)
  lists node guide listed := h'.lists node guide (h.lists node guide listed)
  holds packageId node guide held :=
    h'.holds packageId node guide (h.holds packageId node guide held)

/-- A node may get another action or another guide. -/
theorem extends_modify (c : Contents) (node : String) {f : Node → Node}
    (identity : ∀ n, (f n).identity = n.identity) (guides : ∀ n, n.guides ⊆ (f n).guides) :
    c.Extends { c with nodes := c.nodes.modify node f } where
  identity id := identity?_modify c.nodes identity node id
  lists other guide := by
    rintro ⟨n, found, mem⟩
    refine (listsGuide_modify c.nodes node other guide f).mpr ⟨n, found, ?_⟩
    split
    · exact guides n mem
    · exact mem
  holds _ _ _ := id

/-- A guide may get another holder. -/
theorem extends_record (c : Contents) (packageId node guide : String) :
    c.Extends { c with guides := c.guides.record node guide packageId } where
  identity _ := rfl
  lists _ _ := id
  holds other node' guide' held := by
    unfold Holds
    rw [GuideOwners.holders_record]
    split
    · next same =>
      obtain ⟨rfl, rfl⟩ := same
      exact (NameSet.contains_add _ _ _).mpr (.inr held)
    · exact held

end Contents

namespace Merge

theorem extends_addAction (m : Merge) (packageId node name : String) (entry : ManifestAction) :
    m.contents.Extends (m.addAction packageId node name entry).contents := by
  have installed := m.contents.extends_modify node
    (f := fun n => n.withAction name (entry.toAction packageId name)) (fun _ => rfl)
    (fun _ => List.Subset.refl _)
  rw [contents_addAction]
  split
  · exact ⟨installed.identity, installed.lists, installed.holds⟩
  · exact .refl _

theorem extends_addGuide (m : Merge) (packageId node guide : String) :
    m.contents.Extends (m.addGuide packageId node guide).contents := by
  have held := m.contents.extends_record packageId node guide
  unfold addGuide
  dsimp only
  split
  · split
    · exact held
    · exact .refl _
  · refine held.trans (Contents.extends_modify _ node (fun n => ?_) fun n => ?_)
    · unfold Node.addGuide
      split <;> rfl
    · unfold Node.addGuide
      split
      · exact List.Subset.refl _
      · exact List.subset_append_left _ _

end Merge

namespace Contents

/-- What merging an action keeps and merging a guide keeps, merging a contribution keeps. -/
theorem addContribution_invariant {P : Contents → Prop} {packageId : String}
    (action : ∀ (m : Merge) (node name : String) (entry : ManifestAction), P m.contents →
      P (m.addAction packageId node name entry).contents)
    (guide : ∀ (m : Merge) (node guide : String), P m.contents →
      P (m.addGuide packageId node guide).contents)
    {m : Merge} (node : String) (contribution : Contribution) (h : P m.contents) :
    P (m.addContribution packageId node contribution).contents := by
  have actions := Merge.foldl_invariant (fun m (e : String × ManifestAction) =>
      m.addAction packageId node e.1 e.2)
    (fun m e => action m node e.1 e.2) contribution.actions.entries h
  unfold Merge.addContribution
  split
  · dsimp only
    split
    · exact Merge.foldl_invariant _ (fun m name => guide m node name) contribution.guides actions
    · exact actions
  · exact Merge.foldl_invariant (fun m name => m.warn (.unknownNode node name)) (fun _ _ => id) _ h

/-- What merging an action keeps and merging a guide keeps, a registration keeps. -/
theorem register_invariant {P : Contents → Prop} {packageId : String}
    (action : ∀ (m : Merge) (node name : String) (entry : ManifestAction), P m.contents →
      P (m.addAction packageId node name entry).contents)
    (guide : ∀ (m : Merge) (node guide : String), P m.contents →
      P (m.addGuide packageId node guide).contents)
    (manifest : Manifest) (h : P c) : P (c.register packageId manifest).contents :=
  Merge.foldl_invariant (P := P)
    (fun m (e : String × Contribution) => m.addContribution packageId e.1 e.2)
    (fun _ e h => addContribution_invariant action guide e.1 e.2 h) manifest.contributions h

theorem extends_register (c : Contents) (packageId : String) (manifest : Manifest) :
    c.Extends (c.register packageId manifest).contents :=
  register_invariant (P := c.Extends)
    (fun m node name entry h => h.trans (m.extends_addAction packageId node name entry))
    (fun m node guide h => h.trans (m.extends_addGuide packageId node guide))
    manifest (.refl c)

/-! ## Unregistering -/

theorem extends_foldl_removeAction (owned : List (String × String)) (c : Contents) :
    c.Extends (owned.foldl (fun c e => c.removeAction e.1 e.2) c) := by
  induction owned generalizing c with
  | nil => exact .refl c
  | cons e rest ih =>
    have removed := c.extends_modify e.1 (f := fun n => n.removeAction e.2) (fun _ => rfl)
      fun _ => List.Subset.refl _
    have first : c.Extends (c.removeAction e.1 e.2) :=
      ⟨removed.identity, removed.lists, removed.holds⟩
    exact first.trans (ih (c.removeAction e.1 e.2))

/-- Removing guides from nodes removes no others. -/
theorem foldl_removeGuide (orphaned : List (String × String)) (c : Contents) (count : Nat) :
    let after := (orphaned.foldl (fun (c, n) e => let (c, m) := c.removeGuide e.1 e.2; (c, n + m))
      (c, count)).1
    (∀ id, identity? after.nodes id = identity? c.nodes id) ∧
      ∀ node guide, (node, guide) ∉ orphaned → ListsGuide c.nodes node guide →
        ListsGuide after.nodes node guide := by
  induction orphaned generalizing c count with
  | nil => exact ⟨fun _ => rfl, fun _ _ _ => id⟩
  | cons e rest ih =>
    obtain ⟨identity, lists⟩ := ih (c.removeGuide e.1 e.2).1 (count + (c.removeGuide e.1 e.2).2)
    refine ⟨fun id => (identity id).trans ?_, fun node guide kept listed => lists node guide ?_ ?_⟩
    · exact identity?_modify c.nodes (f := fun n => n.removeGuide e.2) (fun _ => rfl) e.1 id
    · exact fun later => kept (List.mem_cons_of_mem _ later)
    · obtain ⟨n, found, mem⟩ := listed
      refine (listsGuide_modify c.nodes e.1 node guide _).mpr ⟨n, found, ?_⟩
      split
      · next same =>
        refine List.mem_filter.mpr ⟨mem, decide_eq_true fun other => kept ?_⟩
        rw [same, other]
        exact List.mem_cons_self
      · exact mem

theorem identity?_unregister (c : Contents) (packageId id : String) :
    identity? (c.unregister packageId).1.nodes id = identity? c.nodes id :=
  ((foldl_removeGuide _ _ _).1 id).trans ((extends_foldl_removeAction _ _).identity id)

theorem holds_unregister (c : Contents) (packageId other node guide : String) :
    (c.unregister packageId).1.Holds other node guide ↔
      other ≠ packageId ∧ c.Holds other node guide := by
  have dropped : (c.unregister packageId).1.guides = c.guides.drop packageId := rfl
  unfold Holds
  rw [dropped, GuideOwners.holders_drop, NameSet.contains_erase]

/-- A guide goes only with the last package that held it. -/
theorem lists_unregister {c : Contents} {node guide : String}
    (listed : ListsGuide c.nodes node guide) (packageId : String) :
    ListsGuide (c.unregister packageId).1.nodes node guide ∨
      ∀ other, c.Holds other node guide ↔ other = packageId := by
  by_cases orphaned : (node, guide) ∈ c.guides.heldAlone packageId
  · exact .inr (GuideOwners.contains_holders_of_mem_heldAlone orphaned)
  · exact .inl ((foldl_removeGuide _ _ _).2 node guide orphaned
      ((extends_foldl_removeAction _ _).lists node guide listed))

end Contents

/-! ## Changes -/

/-- The package that makes a change. -/
def Change.packageId : Change → String
  | .register packageId _ => packageId
  | .unregister packageId => packageId

/-- A change is a registration whose manifest declares an action of a node. -/
def Change.Declares (change : Change) (node name : String) : Prop :=
  ∃ packageId manifest entry, change = .register packageId manifest ∧
    manifest.entry? node name = some entry

namespace Contents

variable {c c' c'' : Contents}

/-- What is left to a package as it was: the definitions and the ownership of the actions that
it owns, and the guides that it holds, on the nodes that list them. -/
structure Undisturbed (packageId : String) (c c' : Contents) : Prop where
  owned : ∀ node name, c.provenance.owner? node name = some packageId →
    c'.view node name = c.view node name
  held : ∀ node guide, c.Holds packageId node guide → c'.Holds packageId node guide
  listed : ∀ node guide, c.Holds packageId node guide → ListsGuide c.nodes node guide →
    ListsGuide c'.nodes node guide

/-- What every change leaves as it was: which nodes there are and what they are, guides that no
package holds, and actions that no package owns unless the change declares them. -/
structure Preserves (change : Change) (c c' : Contents) : Prop where
  identity : ∀ id, identity? c'.nodes id = identity? c.nodes id
  listed : ∀ node guide, (∀ packageId, ¬ c.Holds packageId node guide) →
    ListsGuide c.nodes node guide → ListsGuide c'.nodes node guide
  unowned : ∀ node name, c.provenance.owner? node name = none → ¬ change.Declares node name →
    c'.view node name = c.view node name

theorem Undisturbed.refl (packageId : String) (c : Contents) : Undisturbed packageId c c :=
  ⟨fun _ _ _ => rfl, fun _ _ => id, fun _ _ _ => id⟩

theorem Undisturbed.trans {packageId : String} (h : Undisturbed packageId c c')
    (h' : Undisturbed packageId c' c'') : Undisturbed packageId c c'' where
  owned node name owned := by
    have view := h.owned node name owned
    rw [← view]
    exact h'.owned node name ((congrArg Prod.snd view).trans owned)
  held node guide held := h'.held node guide (h.held node guide held)
  listed node guide held listed :=
    h'.listed node guide (h.held node guide held) (h.listed node guide held listed)

/-- The actions that a registration leaves alone. -/
theorem view_register_of_none {packageId node name : String} {manifest : Manifest}
    (none : c.installed? packageId manifest node name = none) :
    (c.register packageId manifest).contents.view node name = c.view node name := by
  rw [view_register, none]

/-- A change of another package leaves a package undisturbed. -/
theorem undisturbed_apply (c : Contents) {change : Change} {packageId : String}
    (other : change.packageId ≠ packageId) : Undisturbed packageId c (c.apply change) := by
  cases change with
  | register contributor manifest =>
    have more := c.extends_register contributor manifest
    refine ⟨fun node name owned => view_register_of_none ?_, more.holds packageId,
      fun node guide _ => more.lists node guide⟩
    have closed : c.isOpen contributor node name = false := by
      unfold isOpen
      rw [owned]
      exact decide_eq_false (Ne.symm other)
    unfold installed?
    rw [closed, Bool.and_false]
    rfl
  | unregister contributor =>
    have different : packageId ≠ contributor := Ne.symm other
    refine ⟨fun node name owned => ?_, fun node guide held => ?_, fun node guide held listed => ?_⟩
    · refine (view_unregister c contributor node name).trans (if_neg fun same => different ?_)
      exact Option.some.inj (owned.symm.trans same)
    · exact (holds_unregister c contributor packageId node guide).mpr ⟨different, held⟩
    · rcases lists_unregister listed contributor with still | alone
      · exact still
      · exact absurd ((alone packageId).mp held) different

/-- No change makes, removes or redefines a node, takes a guide that no package holds, or
touches an action that no package owns and no manifest declares. -/
theorem preserves_apply (c : Contents) (change : Change) : Preserves change c (c.apply change) := by
  cases change with
  | register contributor manifest =>
    have more := c.extends_register contributor manifest
    refine ⟨more.identity, fun node guide _ => more.lists node guide,
      fun node name _ undeclared => view_register_of_none ?_⟩
    unfold installed?
    split
    · exact Option.eq_none_iff_forall_ne_some.mpr fun entry declared =>
        undeclared ⟨contributor, manifest, entry, rfl, declared⟩
    · rfl
  | unregister contributor =>
    refine ⟨c.identity?_unregister contributor, fun node guide unheld listed => ?_,
      fun node name unowned _ => ?_⟩
    · rcases lists_unregister listed contributor with still | alone
      · exact still
      · exact absurd ((alone contributor).mpr rfl) (unheld contributor)
    · refine (view_unregister c contributor node name).trans (if_neg fun owned => ?_)
      rw [unowned] at owned
      cases owned

/-! ### Guides of nodes -/

/-- A guide belongs to the node that lists it: the table of holders does not mention it. -/
def BelongsToNode (c : Contents) (node guide : String) : Prop :=
  ListsGuide c.nodes node guide ∧ c.guides.isOwned node guide = false

/-- No package gets hold of a guide that belongs to a node. -/
theorem isOwned_addGuide {m : Merge} {node guide : String} (h : m.contents.BelongsToNode node guide)
    (packageId other name : String) :
    (m.addGuide packageId other name).contents.guides.isOwned node guide = false := by
  obtain ⟨⟨n, found, mem⟩, unowned⟩ := h
  by_cases same : node = other ∧ guide = name
  · obtain ⟨rfl, rfl⟩ := same
    have present : (m.contents.nodes.get? node).any (fun n => n.guides.contains guide) = true := by
      rw [found]
      exact List.contains_iff_mem.mpr mem
    unfold Merge.addGuide
    dsimp only
    rw [if_pos present, unowned]
    exact unowned
  · have recorded : (m.contents.guides.record other name packageId).isOwned node guide = false := by
      rw [GuideOwners.isOwned_record, unowned, decide_eq_false same]
      rfl
    unfold Merge.addGuide
    dsimp only
    split
    · split
      · exact recorded
      · exact unowned
    · exact recorded

theorem isOwned_addAction (m : Merge) (packageId node name other guide : String)
    (entry : ManifestAction) :
    (m.addAction packageId node name entry).contents.guides.isOwned other guide =
      m.contents.guides.isOwned other guide := by
  rw [Merge.contents_addAction]
  split <;> rfl

/-- A guide that belongs to a node does so after every change. -/
theorem belongsToNode_apply {node guide : String} (h : c.BelongsToNode node guide)
    (change : Change) : (c.apply change).BelongsToNode node guide := by
  have unowned : ¬ c.guides.isOwned node guide = true := Bool.eq_false_iff.mp h.2
  have unheld (packageId : String) : ¬ c.Holds packageId node guide := fun held =>
    unowned (GuideOwners.isOwned_of_contains_holders held)
  refine ⟨(preserves_apply c change).listed node guide unheld h.1, ?_⟩
  cases change with
  | register packageId manifest =>
    refine (register_invariant (P := fun c => c.BelongsToNode node guide)
      (fun m other name entry h => ⟨(m.extends_addAction packageId other name entry).lists _ _ h.1,
        (isOwned_addAction m packageId other name node guide entry).trans h.2⟩)
      (fun m other name h => ⟨(m.extends_addGuide packageId other name).lists _ _ h.1,
        isOwned_addGuide h packageId other name⟩) manifest h).2
  | unregister packageId =>
    exact Bool.eq_false_iff.mpr fun owned => unowned (GuideOwners.isOwned_of_isOwned_drop owned)

/-! ## Histories -/

/-- **Isolation.** Whatever other packages do, a package keeps what it owns and holds. -/
theorem undisturbed_history (c : Contents) {packageId : String} {changes : List Change}
    (others : ∀ change ∈ changes, change.packageId ≠ packageId) :
    Undisturbed packageId c (c.history changes) := by
  induction changes using List.reverseRecOn with
  | nil => exact .refl packageId c
  | append_singleton changes change ih =>
    rw [history_concat]
    obtain ⟨others, other⟩ := List.forall_mem_append.mp others
    exact (ih others).trans (undisturbed_apply _ (other change (List.mem_singleton_self _)))

theorem belongsToNode_history {node guide : String} (h : c.BelongsToNode node guide)
    (changes : List Change) : (c.history changes).BelongsToNode node guide := by
  induction changes using List.reverseRecOn with
  | nil => exact h
  | append_singleton changes change ih =>
    rw [history_concat]
    exact belongsToNode_apply ih change

end Contents

end CapabilityPipeline
