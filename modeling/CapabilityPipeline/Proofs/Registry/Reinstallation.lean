import CapabilityPipeline.Proofs.Registry.Tables
import CapabilityPipeline.Proofs.Registry.Unobstructed

/-!
# Installing, uninstalling, installing again

A package that is registered and unregistered again leaves behind what was there before it came,
but for the actions that it took over from nobody: these are gone. Registered once more, it brings
about what it brought about the first time.

Results:

* `Contents.Settled`, `Contents.Lacks`: a registry that a package can come to.
* `Contents.unregister_register`: unregistering undoes a registration.
* `Contents.register_withoutUnowned`: registering again is as registering the first time.
* `Registry.reinstall`: the same for a registry with files.
* `Registry.register_done`, `Registry.unregister_done`: what a request that succeeds has done.
-/

namespace CapabilityPipeline

open Text (Symbol)

namespace Contents

variable {c c' : Contents} {packageId : String} {m : Manifest}

/-! ## Registries that a package comes to -/

/-- A registry in order: there are no empty parts in its tables, and every guide that a package
holds is on the list of its node. -/
structure Settled (c : Contents) : Prop where
  owners : c.provenance.Filled
  holders : c.guides.Filled
  listed : ∀ packageId node guide, c.Holds packageId node guide → ListsGuide c.nodes node guide

/-- A package has no part in a registry. -/
structure Lacks (c : Contents) (packageId : String) : Prop where
  owns : ∀ node name, c.provenance.owner? node name ≠ some packageId
  holds : ∀ node guide, ¬ c.Holds packageId node guide

/-- The contents without the actions that a manifest names and no package owns. -/
def withoutUnowned (c : Contents) (m : Manifest) : Contents :=
  { c with nodes := c.nodes.mapValues fun id n =>
      { n with actions := n.actions.filter fun name _ =>
          (m.entry? id name).isNone || (c.provenance.owner? id name).isSome } }

theorem view_withoutUnowned (c : Contents) (m : Manifest) (node name : String) :
    (c.withoutUnowned m).view node name =
      if (m.entry? node name).isSome ∧ c.provenance.owner? node name = none then (none, none)
      else c.view node name := by
  unfold withoutUnowned view action?
  dsimp only
  rw [NameMap.get?_mapValues]
  cases c.nodes.get? node with
  | none => cases m.entry? node name <;> cases c.provenance.owner? node name <;> simp
  | some n =>
    rw [Option.map_some, Option.bind_some, Option.bind_some, NameMap.get?_filter]
    cases m.entry? node name <;> cases c.provenance.owner? node name <;>
      cases n.actions.get? name <;> simp

theorem identity?_withoutUnowned (c : Contents) (m : Manifest) (id : String) :
    identity? (c.withoutUnowned m).nodes id = identity? c.nodes id := by
  unfold withoutUnowned identity?
  rw [NameMap.get?_mapValues, Option.map_map]
  rfl

theorem guides?_withoutUnowned (c : Contents) (m : Manifest) (id : String) :
    guides? (c.withoutUnowned m).nodes id = guides? c.nodes id := by
  unfold withoutUnowned guides?
  rw [NameMap.get?_mapValues, Option.map_map]
  rfl

/-- A package without any part installs actions of nodes that are there and that no package
owns. -/
theorem Lacks.installed?_eq_some (lacks : c.Lacks packageId) {node name : String}
    {entry : ManifestAction} :
    c.installed? packageId m node name = some entry ↔
      m.entry? node name = some entry ∧ c.provenance.owner? node name = none ∧
        c.nodes.contains node = true := by
  have isOpen : c.isOpen packageId node name = (c.provenance.owner? node name).isNone := by
    unfold isOpen
    cases owned : c.provenance.owner? node name with
    | none => rfl
    | some owner =>
      exact decide_eq_false fun same => lacks.owns node name (owned.trans (congrArg some same))
  unfold installed?
  rw [isOpen]
  simp only [Option.ite_none_right_eq_some, Bool.and_eq_true, Option.isNone_iff_eq_none]
  tauto

/-- No action is defined on a node that is not there. -/
theorem action?_of_not_contains {node : String} (absent : c.nodes.contains node ≠ true)
    (name : String) : c.action? node name = none := by
  unfold action?
  rw [Option.not_isSome_iff_eq_none.mp absent]
  rfl

/-- What a package does not install is kept when it leaves. -/
theorem Lacks.view_withoutUnowned_of_none (lacks : c.Lacks packageId) {node name : String}
    (none : c.installed? packageId m node name = none) :
    (c.withoutUnowned m).view node name = c.view node name := by
  rw [view_withoutUnowned]
  split
  · next named =>
    obtain ⟨declared, free⟩ := named
    obtain ⟨entry, declared⟩ := Option.isSome_iff_exists.mp declared
    have absent : c.nodes.contains node ≠ true := fun there => by
      rw [lacks.installed?_eq_some.mpr ⟨declared, free, there⟩] at none
      cases none
    unfold view
    rw [action?_of_not_contains absent, free]
  · rfl

/-! ## What registering contributes -/

/-- Guides that a registration adds to nodes go to the ends of their lists, and the package holds
these. Other packages hold what they held, and what a package shares was held before. -/
structure Contributes (packageId : String) (c c' : Contents) : Prop where
  filled : c'.guides.Filled
  guides : ∀ id, ∃ added, guides? c'.nodes id = (guides? c.nodes id).map (· ++ added) ∧
    ∀ guide ∈ added, ¬ ListsGuide c.nodes id guide ∧ c'.Holds packageId id guide
  others : ∀ other node guide, other ≠ packageId →
    (c'.Holds other node guide ↔ c.Holds other node guide)
  shared : ∀ node guide, ListsGuide c.nodes node guide → c'.Holds packageId node guide →
    ∃ other, other ≠ packageId ∧ c.Holds other node guide

theorem Contributes.refl (filled : c.guides.Filled) (lacks : c.Lacks packageId) :
    Contributes packageId c c where
  filled := filled
  guides id := ⟨[], by simp, fun _ none => by cases none⟩
  others _ _ _ _ := Iff.rfl
  shared node guide _ held := absurd held (lacks.holds node guide)

theorem Contributes.lists (h : Contributes packageId c c') {node guide : String}
    (listed : ListsGuide c.nodes node guide) : ListsGuide c'.nodes node guide := by
  obtain ⟨guides, found, mem⟩ := listsGuide_iff.mp listed
  obtain ⟨added, after, -⟩ := h.guides node
  rw [found] at after
  exact listsGuide_iff.mpr ⟨guides ++ added, after, List.mem_append_left _ mem⟩

/-- Nothing about guides depends on the actions of nodes. -/
theorem Contributes.congr (h : Contributes packageId c c') {c'' : Contents}
    (guides : ∀ id, guides? c''.nodes id = guides? c'.nodes id) (same : c''.guides = c'.guides) :
    Contributes packageId c c'' := by
  obtain ⟨filled, added, others, shared⟩ := h
  unfold Holds at added others shared
  rw [← same] at filled others shared
  refine ⟨filled, fun id => ?_, others, shared⟩
  rw [guides id]
  unfold Holds
  rw [same]
  exact added id

theorem holds_record (c : Contents) (packageId node guide other node' guide' : String) :
    ({ c with guides := c.guides.record node guide packageId } : Contents).Holds other node'
        guide' ↔
      (other = packageId ∧ node' = node ∧ guide' = guide) ∨ c.Holds other node' guide' := by
  unfold Holds
  rw [GuideOwners.holders_record]
  split
  · next same =>
    obtain ⟨rfl, rfl⟩ := same
    rw [NameSet.contains_add]
    simp
  · next different => simp [different]

/-- A package comes to hold a guide that is not on the list of its node before, or that another
package holds. -/
theorem Contributes.record (h : Contributes packageId c c') (node guide : String)
    (shared : ListsGuide c.nodes node guide →
      ∃ other, other ≠ packageId ∧ c.Holds other node guide) :
    Contributes packageId c { c' with guides := c'.guides.record node guide packageId } where
  filled := h.filled.record node guide packageId
  guides id := by
    obtain ⟨added, after, each⟩ := h.guides id
    refine ⟨added, after, fun name mem => ⟨(each name mem).1, ?_⟩⟩
    exact (c'.holds_record packageId node guide packageId id name).mpr (.inr (each name mem).2)
  others other node' guide' different := by
    rw [holds_record, ← h.others other node' guide' different]
    exact or_iff_right fun same => different same.1
  shared node' guide' listed held := by
    rcases (c'.holds_record packageId node guide packageId node' guide').mp held with
      ⟨-, rfl, rfl⟩ | before
    · exact shared listed
    · exact h.shared node' guide' listed before

end Contents

namespace Merge

open Contents

variable {c : Contents} {packageId : String}

theorem contributes_addAction {m : Merge} (h : Contributes packageId c m.contents)
    (node name : String) (entry : ManifestAction) :
    Contributes packageId c (m.addAction packageId node name entry).contents := by
  rw [contents_addAction]
  split
  · refine h.congr (fun id => ?_) rfl
    unfold install
    rw [guides?_modify]
    split
    · rfl
    · rfl
  · exact h

theorem contributes_addGuide {m : Merge} (h : Contributes packageId c m.contents)
    (node guide : String) :
    Contributes packageId c (m.addGuide packageId node guide).contents := by
  have present_iff : (m.contents.nodes.get? node).any (fun n => n.guides.contains guide) = true ↔
      ListsGuide m.contents.nodes node guide := by
    unfold ListsGuide
    cases m.contents.nodes.get? node <;> simp
  unfold addGuide
  dsimp only
  split
  · split
    · next owned =>
      -- A guide that is held already is held by another, or shared with one who held it before.
      refine h.record node guide fun listed => ?_
      obtain ⟨holder, held⟩ := h.filled.exists_holder owned
      by_cases same : holder = packageId
      · exact h.shared node guide listed (same ▸ held)
      · exact ⟨holder, same, (h.others holder node guide same).mp held⟩
    · exact h
  · next absent =>
    have unlisted : ¬ ListsGuide m.contents.nodes node guide := fun listed =>
      absent (present_iff.mpr listed)
    have held := h.record node guide fun listed =>
      absurd (h.lists listed) unlisted
    refine ⟨held.filled, fun id => ?_, held.others, held.shared⟩
    obtain ⟨added, after, each⟩ := held.guides id
    rw [guides?_modify]
    split
    · next same =>
      subst same
      refine ⟨added ++ [guide], ?_, fun name mem => ?_⟩
      · unfold guides? at after ⊢
        cases found : m.contents.nodes.get? id with
        | none =>
          rw [found] at after
          rw [Option.map_eq_none_iff.mp after.symm]
          rfl
        | some n =>
          have new : ¬ n.guides.contains guide = true := fun listed =>
            unlisted ⟨n, found, List.contains_iff_mem.mp listed⟩
          rw [found, Option.map_some] at after
          obtain ⟨guides, before, same⟩ := Option.map_eq_some_iff.mp after.symm
          rw [before, Option.map_some, Option.map_some]
          unfold Node.addGuide
          rw [if_neg new]
          exact congrArg some (by rw [← same, List.append_assoc])
      · rcases List.mem_append.mp mem with mem | mem
        · exact each name mem
        · cases List.mem_singleton.mp mem
          refine ⟨fun listed => unlisted (h.lists listed), ?_⟩
          exact (m.contents.holds_record packageId id guide packageId id guide).mpr
            (.inl ⟨rfl, rfl, rfl⟩)
    · exact ⟨added, after, each⟩

theorem filled_addAction {m : Merge} (h : m.contents.provenance.Filled)
    (packageId node name : String) (entry : ManifestAction) :
    (m.addAction packageId node name entry).contents.provenance.Filled := by
  rw [contents_addAction]
  split
  · exact Provenance.Filled.record h node name packageId
  · exact h

theorem provenance_addGuide (m : Merge) (packageId node guide : String) :
    (m.addGuide packageId node guide).contents.provenance = m.contents.provenance := by
  unfold addGuide
  dsimp only
  split
  · split <;> rfl
  · rfl

end Merge

namespace Contents

variable {c c' : Contents} {packageId : String} {m : Manifest}

theorem contributes_register (settled : c.Settled) (lacks : c.Lacks packageId) (m : Manifest) :
    Contributes packageId c (c.register packageId m).contents :=
  register_invariant (P := Contributes packageId c)
    (fun _ node name entry h => Merge.contributes_addAction h node name entry)
    (fun _ node guide h => Merge.contributes_addGuide h node guide) m
    (.refl settled.holders lacks)

theorem filled_register (h : c.provenance.Filled) (packageId : String) (m : Manifest) :
    (c.register packageId m).contents.provenance.Filled :=
  register_invariant (P := fun c => c.provenance.Filled)
    (fun _ node name entry h => Merge.filled_addAction h packageId node name entry)
    (fun before node guide h => (before.provenance_addGuide packageId node guide).symm ▸ h) m h

/-! ## What unregistering leaves -/

theorem provenance_foldl_removeGuide (orphaned : List (String × String)) (c : Contents)
    (count : Nat) :
    (orphaned.foldl (fun (c, n) e => let (c, m) := c.removeGuide e.1 e.2; (c, n + m))
      (c, count)).1.provenance = c.provenance := by
  induction orphaned generalizing c count with
  | nil => rfl
  | cons e rest ih => exact ih (c.removeGuide e.1 e.2).1 _

theorem filled_unregister (h : c.provenance.Filled) (packageId : String) :
    (c.unregister packageId).1.provenance.Filled := by
  have removed (owned : List (String × String)) (c : Contents) (h : c.provenance.Filled) :
      (owned.foldl (fun c e => c.removeAction e.1 e.2) c).provenance.Filled := by
    induction owned generalizing c with
    | nil => exact h
    | cons e rest ih => exact ih (c.removeAction e.1 e.2) (h.remove e.1 e.2)
  have same := provenance_foldl_removeGuide (c.guides.heldAlone packageId)
    ((c.provenance.ownedBy packageId).foldl (fun c e => c.removeAction e.1 e.2) c) 0
  have last : (c.unregister packageId).1.provenance = _ := same
  rw [last]
  exact removed _ c h

theorem guides?_foldl_removeAction (owned : List (String × String)) (c : Contents) (id : String) :
    guides? (owned.foldl (fun c e => c.removeAction e.1 e.2) c).nodes id = guides? c.nodes id := by
  induction owned generalizing c with
  | nil => rfl
  | cons e rest ih =>
    refine (ih (c.removeAction e.1 e.2)).trans ?_
    unfold removeAction
    rw [guides?_modify]
    split
    · rfl
    · rfl

theorem guides?_foldl_removeGuide (orphaned : List (String × String)) (c : Contents)
    (count : Nat) (id : String) :
    guides? (orphaned.foldl (fun (c, n) e => let (c, m) := c.removeGuide e.1 e.2; (c, n + m))
        (c, count)).1.nodes id =
      (guides? c.nodes id).map fun guides => guides.filter fun guide => (id, guide) ∉ orphaned := by
  induction orphaned generalizing c count with
  | nil => simp
  | cons e rest ih =>
    have step : guides? (c.removeGuide e.1 e.2).1.nodes id =
        (guides? c.nodes id).map fun guides => guides.filter fun guide => (id, guide) ≠ e := by
      unfold removeGuide
      rw [guides?_modify]
      obtain ⟨node, removed⟩ := e
      unfold guides?
      split
      · next same =>
        rw [Option.map_map]
        simp only [Node.removeGuide, same, Function.comp_def, ne_eq, Prod.mk.injEq, true_and]
      · next different =>
        simp [different, Function.comp_def]
    refine (ih (c.removeGuide e.1 e.2).1 _).trans ?_
    rw [step, Option.map_map]
    refine Option.map_congr fun guides _ => ?_
    rw [Function.comp_apply, List.filter_filter]
    refine List.filter_congr fun guide _ => ?_
    simp [List.mem_cons, not_or, Bool.and_comm]

/-- A node keeps the guides that the package does not hold alone. -/
theorem guides?_unregister (c : Contents) (packageId id : String) :
    guides? (c.unregister packageId).1.nodes id = (guides? c.nodes id).map fun guides =>
      guides.filter fun guide => (id, guide) ∉ c.guides.heldAlone packageId := by
  have removed := guides?_foldl_removeGuide (c.guides.heldAlone packageId)
    ((c.provenance.ownedBy packageId).foldl (fun c e => c.removeAction e.1 e.2) c) 0 id
  rw [guides?_foldl_removeAction] at removed
  exact removed

/-! ## Unregistering what was registered -/

/-- The guides that come with a package go with it. -/
theorem guides?_unregister_register (settled : c.Settled) (lacks : c.Lacks packageId)
    (m : Manifest) (id : String) :
    guides? ((c.register packageId m).contents.unregister packageId).1.nodes id =
      guides? c.nodes id := by
  have contributes := contributes_register settled lacks m
  obtain ⟨added, after, each⟩ := contributes.guides id
  rw [guides?_unregister, after, Option.map_map]
  cases found : guides? c.nodes id with
  | none => rfl
  | some guides =>
    have kept : ∀ guide ∈ guides,
        (id, guide) ∉ (c.register packageId m).contents.guides.heldAlone packageId := by
      intro guide mem alone
      have alone := GuideOwners.mem_heldAlone.mp alone
      obtain ⟨other, different, held⟩ := contributes.shared id guide
        (listsGuide_iff.mpr ⟨guides, found, mem⟩) ((alone packageId).mpr rfl)
      exact different ((alone other).mp ((contributes.others other id guide different).mpr held))
    have gone : ∀ guide ∈ added,
        (id, guide) ∈ (c.register packageId m).contents.guides.heldAlone packageId := by
      intro guide mem
      obtain ⟨new, held⟩ := each guide mem
      refine GuideOwners.mem_heldAlone.mpr fun other => ⟨fun holds => ?_, fun same => same ▸ held⟩
      by_contra different
      exact new (settled.listed other id guide
        ((contributes.others other id guide different).mp holds))
    rw [Option.map_some, Function.comp_apply, List.filter_append]
    rw [List.filter_eq_self.mpr fun guide mem => decide_eq_true (kept guide mem),
      List.filter_eq_nil_iff.mpr fun guide mem => by simpa using gone guide mem, List.append_nil]

/-- The actions that come with a package go with it, also those that no package owned before. -/
theorem view_unregister_register (lacks : c.Lacks packageId) (m : Manifest) (node name : String) :
    ((c.register packageId m).contents.unregister packageId).1.view node name =
      (c.withoutUnowned m).view node name := by
  have registered := c.view_register packageId m node name
  have owner : (c.register packageId m).contents.provenance.owner? node name = _ :=
    congrArg Prod.snd registered
  rw [view_unregister, owner, registered]
  cases installed : c.installed? packageId m node name with
  | some entry =>
    obtain ⟨declared, free, -⟩ := lacks.installed?_eq_some.mp installed
    have gone : (c.withoutUnowned m).view node name = (none, none) :=
      (c.view_withoutUnowned m node name).trans (if_pos ⟨by rw [declared]; rfl, free⟩)
    rw [gone]
    exact if_pos rfl
  | none =>
    rw [lacks.view_withoutUnowned_of_none installed]
    exact if_neg (lacks.owns node name)

/-- **Unregistering undoes a registration**, but for the actions that no package owned and the
manifest names: these are gone. -/
theorem unregister_register (settled : c.Settled) (lacks : c.Lacks packageId) (m : Manifest) :
    ((c.register packageId m).contents.unregister packageId).1 = c.withoutUnowned m := by
  have contributes := contributes_register settled lacks m
  have actions := view_unregister_register lacks m
  have nodes : ((c.register packageId m).contents.unregister packageId).1.nodes =
      (c.withoutUnowned m).nodes := by
    refine nodes_ext (fun id => ?_) (fun id => ?_) fun id name => congrArg Prod.fst (actions id name)
    · rw [identity?_unregister, (c.extends_register packageId m).identity, identity?_withoutUnowned]
    · rw [guides?_unregister_register settled lacks, guides?_withoutUnowned]
  have provenance : ((c.register packageId m).contents.unregister packageId).1.provenance =
      (c.withoutUnowned m).provenance :=
    (filled_unregister (filled_register settled.owners packageId m) packageId).ext settled.owners
      fun node name => congrArg Prod.snd (actions node name)
  have guides : ((c.register packageId m).contents.unregister packageId).1.guides =
      (c.withoutUnowned m).guides := by
    refine (GuideOwners.filled_drop _ packageId).ext settled.holders fun node guide other => ?_
    refine (holds_unregister _ packageId other node guide).trans ⟨fun ⟨different, held⟩ =>
      (contributes.others other node guide different).mp held, fun held => ?_⟩
    have different : other ≠ packageId := fun same => lacks.holds node guide (same ▸ held)
    exact ⟨different, (contributes.others other node guide different).mpr held⟩
  rcases result : ((c.register packageId m).contents.unregister packageId).1 with ⟨n, p, g⟩
  rw [result] at nodes provenance guides
  subst nodes provenance guides
  rfl

/-! ## Registering again -/

/-- Contents that differ at most in how actions are defined. -/
structure Alike (c c' : Contents) : Prop where
  identity : ∀ id, identity? c'.nodes id = identity? c.nodes id
  guides : ∀ id, guides? c'.nodes id = guides? c.nodes id
  provenance : c'.provenance = c.provenance
  holders : c'.guides = c.guides

theorem alike_withoutUnowned (c : Contents) (m : Manifest) : c.Alike (c.withoutUnowned m) :=
  ⟨c.identity?_withoutUnowned m, c.guides?_withoutUnowned m, rfl, rfl⟩

theorem Alike.contains (h : c.Alike c') (id : String) :
    c'.nodes.contains id = c.nodes.contains id := by
  have same := congrArg Option.isSome (h.identity id)
  unfold identity? at same
  rwa [Option.isSome_map, Option.isSome_map] at same

theorem Alike.present (h : c.Alike c') (node guide : String) :
    (c'.nodes.get? node).any (fun n => n.guides.contains guide) =
      (c.nodes.get? node).any fun n => n.guides.contains guide := by
  have same := congrArg (Option.any fun guides => guides.contains guide) (h.guides node)
  unfold guides? at same
  rwa [Option.any_map, Option.any_map] at same

end Contents

namespace Merge

open Contents

variable {c : Contents} {packageId : String} {m m' : Merge}

/-- Merges that go alike so far. -/
structure Alike (m m' : Merge) : Prop where
  contents : m.contents.Alike m'.contents
  registered : m'.report.registered = m.report.registered

theorem Alike.install (h : m.Alike m') (packageId node name : String) (entry : ManifestAction) :
    (m.install packageId node name entry).Alike (m'.install packageId node name entry) := by
  obtain ⟨⟨identity, guides, provenance, holders⟩, registered⟩ := h
  refine ⟨⟨fun id => ?_, fun id => ?_, ?_, holders⟩, ?_⟩
  · have same (nodes : NameMap Node) := identity?_modify nodes
      (f := fun n => n.withAction name (entry.toAction packageId name)) (fun _ => rfl) node id
    exact (same _).trans ((identity id).trans (same _).symm)
  · have same (nodes : NameMap Node) : guides? (nodes.modify node fun n =>
        n.withAction name (entry.toAction packageId name)) id = guides? nodes id := by
      rw [guides?_modify]
      split
      · rfl
      · rfl
    exact (same _).trans ((guides id).trans (same _).symm)
  · exact congrArg (·.record node name packageId) provenance
  · exact congrArg (· + 1) registered

theorem Alike.warn (h : m.Alike m') (warning warning' : Warning) :
    (m.warn warning).Alike (m'.warn warning') :=
  ⟨h.contents, h.registered⟩

theorem Alike.addAction (h : m.Alike m') (packageId node name : String) (entry : ManifestAction) :
    (m.addAction packageId node name entry).Alike (m'.addAction packageId node name entry) := by
  have warned (defined defined' : Bool) :
      (if defined then m.warn (.replacesBuiltIn node name) else m).Alike
        (if defined' then m'.warn (.replacesBuiltIn node name) else m') := by
    cases defined <;> cases defined' <;> exact ⟨h.contents, h.registered⟩
  unfold Merge.addAction
  rw [h.contents.provenance]
  split
  · split
    · exact h.install packageId node name entry
    · exact h.warn _ _
  · exact (warned _ _).install packageId node name entry

theorem Alike.addGuide (h : m.Alike m') (packageId node guide : String) :
    (m.addGuide packageId node guide).Alike (m'.addGuide packageId node guide) := by
  obtain ⟨contents, registered⟩ := h
  have held := congrArg (·.record node guide packageId) contents.holders
  unfold Merge.addGuide
  dsimp only
  rw [contents.present, contents.holders]
  split
  · split
    · exact ⟨⟨contents.identity, contents.guides, contents.provenance, rfl⟩, registered⟩
    · exact ⟨contents, registered⟩
  · refine ⟨⟨fun id => ?_, fun id => ?_, contents.provenance, rfl⟩, registered⟩
    · have same (n : Node) : (n.addGuide guide).identity = n.identity := by
        unfold Node.addGuide
        split <;> rfl
      exact (identity?_modify _ same node id).trans
        ((contents.identity id).trans (identity?_modify _ same node id).symm)
    · have after (nodes : NameMap Node) : guides? (nodes.modify node fun n => n.addGuide guide) id =
          if id = node then (guides? nodes id).map fun guides =>
            if guides.contains guide then guides else guides ++ [guide]
          else guides? nodes id := by
        rw [guides?_modify]
        unfold guides?
        rw [Option.map_map]
        split
        · refine Option.map_congr fun n _ => ?_
          unfold Node.addGuide
          rw [Function.comp_apply]
          split <;> rfl
        · rfl
      dsimp only
      rw [after, after, contents.guides id]

theorem Alike.addContribution (h : m.Alike m') (packageId node : String)
    (contribution : Contribution) :
    (m.addContribution packageId node contribution).Alike
      (m'.addContribution packageId node contribution) := by
  have actions := List.foldl_rel (l := contribution.actions.entries) (r := Alike) h
    fun e _ _ _ alike => alike.addAction packageId node e.1 e.2
  unfold Merge.addContribution
  dsimp only
  rw [h.contents.contains, h.registered, actions.registered]
  split
  · split
    · exact List.foldl_rel actions fun guide _ _ _ alike => alike.addGuide packageId node guide
    · exact actions
  · exact List.foldl_rel h fun name _ _ _ alike => alike.warn _ _

/-- Something is registered, and the package owns an action. -/
def Owning (packageId : String) (m : Merge) : Prop :=
  m.report.registered ≠ 0 ∧ ∃ node name, m.contents.provenance.owner? node name = some packageId

theorem Owning.addGuide (h : Owning packageId m) (node guide : String) :
    Owning packageId (m.addGuide packageId node guide) := by
  have registered : (m.addGuide packageId node guide).report.registered = m.report.registered := by
    unfold Merge.addGuide
    dsimp only
    split
    · split <;> rfl
    · rfl
  unfold Owning
  rw [registered, provenance_addGuide]
  exact h

/-- A merge has done nothing yet, or the package owns an action. -/
def Accounts (packageId : String) (c : Contents) (m : Merge) : Prop :=
  m.report.registered = 0 ∧ m.contents = c ∨ Owning packageId m

theorem Accounts.addAction (h : Accounts packageId c m) (node name : String)
    (entry : ManifestAction) : Accounts packageId c (m.addAction packageId node name entry) := by
  have installed (m : Merge) : Accounts packageId c (m.install packageId node name entry) :=
    .inr ⟨Nat.succ_ne_zero _, node, name,
      (m.contents.provenance.owner?_record node name packageId node name).trans (if_pos ⟨rfl, rfl⟩)⟩
  unfold Merge.addAction
  split
  · split
    · exact installed m
    · exact h
  · exact installed _

theorem Accounts.addContribution (h : Accounts packageId c m) (node : String)
    (contribution : Contribution) :
    Accounts packageId c (m.addContribution packageId node contribution) := by
  have actions : Accounts packageId c (contribution.actions.entries.foldl
      (fun m e => m.addAction packageId node e.1 e.2) m) :=
    List.foldlRecOn _ _ h fun _ accounts e _ => accounts.addAction node e.1 e.2
  unfold Merge.addContribution
  dsimp only
  split
  · split
    · next more =>
      -- Guides come only after an action, so that something is registered already.
      rcases actions with ⟨none, -⟩ | owned
      · rw [none] at more
        exact absurd more (Nat.not_lt_zero _)
      · exact .inr (List.foldlRecOn _ _ owned fun _ owned guide _ => owned.addGuide node guide)
    · exact actions
  · exact List.foldlRecOn _ _ h fun _ accounts _ _ => accounts

end Merge

namespace Contents

variable {c : Contents} {packageId : String} {m : Manifest}

/-- A registration that registers nothing changes nothing. After any other the package owns an
action. -/
theorem accounts_register (c : Contents) (packageId : String) (m : Manifest) :
    (c.register packageId m).Accounts packageId c :=
  List.foldlRecOn _ _ (.inl ⟨rfl, rfl⟩) fun _ accounts e _ => accounts.addContribution e.1 e.2

/-- **Registering again** brings about what registering the first time did. -/
theorem register_withoutUnowned (lacks : c.Lacks packageId) (m : Manifest) :
    ((c.withoutUnowned m).register packageId m).contents = (c.register packageId m).contents := by
  have before := c.alike_withoutUnowned m
  have alike : (c.register packageId m).Alike ((c.withoutUnowned m).register packageId m) :=
    List.foldl_rel (r := Merge.Alike) ⟨before, rfl⟩ fun e _ _ _ alike =>
      alike.addContribution packageId e.1 e.2
  have actions (node name : String) :
      ((c.withoutUnowned m).register packageId m).contents.view node name =
        (c.register packageId m).contents.view node name := by
    have installs : (c.withoutUnowned m).installed? packageId m node name =
        c.installed? packageId m node name := by
      unfold installed?
      rw [before.contains]
      rfl
    rw [view_register, view_register, installs]
    split
    · rfl
    · next none => exact lacks.view_withoutUnowned_of_none none
  have nodes := nodes_ext alike.contents.identity alike.contents.guides
    fun id name => congrArg Prod.fst (actions id name)
  rcases again : ((c.withoutUnowned m).register packageId m).contents with ⟨n, p, g⟩
  have provenance := alike.contents.provenance
  have guides := alike.contents.holders
  rw [again] at nodes provenance guides
  subst nodes provenance guides
  rfl

/-- Nothing is lost when a package installs nothing. -/
theorem withoutUnowned_of_register (lacks : c.Lacks packageId)
    (same : (c.register packageId m).contents = c) : c.withoutUnowned m = c := by
  have actions (node name : String) :
      (c.withoutUnowned m).view node name = c.view node name := by
    refine lacks.view_withoutUnowned_of_none (Option.eq_none_iff_forall_ne_some.mpr ?_)
    intro entry installed
    have registered := c.view_register packageId m node name
    rw [same, installed] at registered
    exact lacks.owns node name (congrArg Prod.snd registered)
  have nodes := nodes_ext (c.identity?_withoutUnowned m) (c.guides?_withoutUnowned m)
    fun id name => congrArg Prod.fst (actions id name)
  exact congrArg (fun nodes => { c with nodes }) nodes

end Contents

/-! ## Registries with files -/

namespace Registry

variable {r r' : Registry} {files files' : FileTree} {c : Contents} {packageId : String}
  {m : Manifest}

/-- The files of a registry hold contents, and readers see these. -/
structure Keeps (r : Registry) (files : FileTree) (c : Contents) : Prop where
  loaded : r.store.loadContents files = .ok c
  published : r.snapshot = c.snapshot

/-- A request after which the registry keeps contents, and packages are where they were. -/
structure Leaves (r : Registry) (files : FileTree) (r' : Registry) (files' : FileTree)
    (c : Contents) : Prop where
  keeps : r'.Keeps files' c
  wellFormed : files'.WellFormed
  manifests : ∀ packageId m, r.readManifest files packageId = .ok m →
    r'.readManifest files' packageId = .ok m

theorem Keeps.leaves (h : r.Keeps files c) (wellFormed : files.WellFormed) :
    Leaves r files r files c :=
  ⟨h, wellFormed, fun _ _ => id⟩

theorem readManifest_eq_ok : r.readManifest files packageId = .ok m ↔
    isPackageId packageId = true ∧ m.isEmpty = false ∧
      ∃ content, files.read (r.manifestPath packageId) = .ok content ∧
        Manifest.read content = .ok m := by
  unfold readManifest
  constructor
  · intro h
    split at h
    · next isId =>
      dsimp only at h
      split at h
      · cases h
      · cases h
      · next content read =>
        split at h
        · cases h
        · next manifest parsed =>
          split at h
          · cases h
          · next some =>
            cases h
            exact ⟨isId, Bool.eq_false_iff.mpr some, content, read, parsed⟩
    · cases h
  · rintro ⟨isId, some, content, read, parsed⟩
    rw [if_pos isId]
    dsimp only
    rw [read]
    dsimp only
    rw [parsed]
    dsimp only
    rw [some]
    rfl

/-- Saving touches no manifest. -/
theorem readManifest_changes {base : Place} (changes : files.Changes (Store.Own base) files')
    (same : r'.packagesDir = r.packagesDir) :
    r'.readManifest files' packageId = .ok m ↔ r.readManifest files packageId = .ok m := by
  have isName : Path.IsName "ibl_actions.json" := ⟨by decide, 'n', by decide, by decide⟩
  have away : ∀ place, files.locate (r.manifestPath packageId) = .ok place →
      ¬ Store.Own base place := by
    rintro place located ⟨name, mem, own⟩
    obtain ⟨dir, -, rfl⟩ := FileTree.reached_of_locate
      (Path.isIn_join (Path.join r.packagesDir packageId) isName) isName located
    cases (List.append_inj' own rfl).2
    exact absurd mem (by decide)
  have path : r'.manifestPath packageId = r.manifestPath packageId := by
    unfold manifestPath
    rw [same]
  rw [readManifest_eq_ok, readManifest_eq_ok, path]
  simp only [changes.read_eq_ok away]

theorem commit_eq (h : r.commit c files = (r', files', none)) :
    r.store.save c files = (files', none) ∧ r' = { r with snapshot := c.snapshot } := by
  unfold commit at h
  rcases saved : r.store.save c files with ⟨written, - | e⟩
  · rw [saved] at h
    cases h
    exact ⟨rfl, rfl⟩
  · rw [saved] at h
    cases h

/-- A registration that succeeds has no manifest to merge, or it merges the manifest, and then
commits if there is anything to commit. -/
theorem register_done {report : RegisterReport}
    (done : r.register packageId files = (r', files', .ok report)) :
    (∃ reason, r.readManifest files packageId = .error reason ∧ r' = r ∧ files' = files ∧
      report = { RegisterReport.start packageId with skipped := some reason }) ∨
    ∃ m c, r.readManifest files packageId = .ok m ∧ r.store.loadContents files = .ok c ∧
      report = (c.register packageId m).report ∧
      (report.registered = 0 ∧ r' = r ∧ files' = files ∨
        report.registered ≠ 0 ∧
          r.commit (c.register packageId m).contents files = (r', files', none)) := by
  unfold register at done
  cases manifest : r.readManifest files packageId with
  | error reason =>
    rw [manifest] at done
    cases done
    exact .inl ⟨reason, rfl, rfl, rfl, rfl⟩
  | ok m =>
    rw [manifest] at done
    dsimp only at done
    cases loaded : r.store.loadContents files with
    | error e =>
      rw [loaded] at done
      cases done
    | ok c =>
      rw [loaded] at done
      dsimp only at done
      refine .inr ⟨m, c, rfl, rfl, ?_⟩
      split at done
      · next nothing =>
        cases done
        exact ⟨rfl, .inl ⟨nothing, rfl, rfl⟩⟩
      · next registered =>
        split at done
        · next committed =>
          cases done
          exact ⟨rfl, .inr ⟨registered, committed⟩⟩
        · cases done

/-- A request to unregister that succeeds is not about a package, or about one that owns no action,
or it commits what is left without the package. -/
theorem unregister_done {report : UnregisterReport}
    (done : r.unregister packageId files = (r', files', .ok report)) :
    (isPackageId packageId = false ∧ report = ⟨packageId, 0, 0⟩ ∧ r' = r ∧ files' = files) ∨
    ∃ c, isPackageId packageId = true ∧ r.store.loadContents files = .ok c ∧
      ((c.provenance.ownedBy packageId).isEmpty = true ∧ report = ⟨packageId, 0, 0⟩ ∧ r' = r ∧
          files' = files ∨
        (c.provenance.ownedBy packageId).isEmpty = false ∧ report = (c.unregister packageId).2 ∧
          r.commit (c.unregister packageId).1 files = (r', files', none)) := by
  unfold unregister at done
  dsimp only at done
  split at done
  · next isId =>
    cases loaded : r.store.loadContents files with
    | error e =>
      rw [loaded] at done
      cases done
    | ok c =>
      rw [loaded] at done
      dsimp only at done
      refine .inr ⟨c, isId, rfl, ?_⟩
      split at done
      · next nothing =>
        cases done
        exact .inl ⟨nothing, rfl, rfl, rfl⟩
      · next owned =>
        split at done
        · next committed =>
          cases done
          exact .inr ⟨Bool.eq_false_iff.mpr owned, rfl, committed⟩
        · cases done
  · next other =>
    cases done
    exact .inl ⟨Bool.eq_false_iff.mpr other, rfl, rfl, rfl⟩

/-- What a commit writes is kept. -/
theorem leaves_commit (wellFormed : files.WellFormed) (loaded : r.store.loadContents files = .ok c)
    (some : c.nodes ≠ .empty ∨ c.provenance ≠ .empty) (change : Change)
    (done : r.commit (c.apply change) files = (r', files', none)) :
    Leaves r files r' files' (c.apply change) := by
  obtain ⟨base, located⟩ := Store.located_of_loadContents wellFormed loaded some
  have named := c.nodesNamed_apply
    (Store.nodesNamed_of_loadNodes (Store.loadContents_eq_ok.mp loaded).1) change
  obtain ⟨saved, rfl⟩ := commit_eq done
  have changes := located.save_changes _ saved
  exact ⟨⟨located.loadContents_save named saved, rfl⟩, changes.wellFormed,
    fun _ _ => (readManifest_changes changes rfl).mpr⟩

/-- After a registration the registry keeps what the manifest was merged into. -/
theorem Keeps.leaves_register (h : r.Keeps files c) (wellFormed : files.WellFormed)
    (manifest : r.readManifest files packageId = .ok m) {report : RegisterReport}
    (done : r.register packageId files = (r', files', .ok report)) :
    Leaves r files r' files' (c.register packageId m).contents := by
  rcases register_done done with ⟨reason, skipped, -⟩ | ⟨m', c', manifest', loaded', report', result⟩
  · rw [manifest] at skipped
    cases skipped
  · cases manifest.symm.trans manifest'
    cases h.loaded.symm.trans loaded'
    rcases result with ⟨nothing, rfl, rfl⟩ | ⟨registered, committed⟩
    · rcases c.accounts_register packageId m with ⟨-, same⟩ | ⟨more, -⟩
      · rw [same]
        exact h.leaves wellFormed
      · exact absurd (report' ▸ nothing) more
    · exact leaves_commit wellFormed h.loaded
        (.inl (Contents.nodes_ne_empty_of_registered (report' ▸ registered)))
        (.register packageId m) committed

/-- After a package that owns actions is unregistered, the registry keeps what is left. -/
theorem Keeps.leaves_unregister (h : r.Keeps files c) (wellFormed : files.WellFormed)
    (isId : isPackageId packageId = true)
    (owned : (c.provenance.ownedBy packageId).isEmpty = false) {report : UnregisterReport}
    (done : r.unregister packageId files = (r', files', .ok report)) :
    Leaves r files r' files' (c.unregister packageId).1 := by
  rcases unregister_done done with ⟨other, -⟩ | ⟨c', -, loaded, result⟩
  · rw [isId] at other
    cases other
  · cases h.loaded.symm.trans loaded
    rcases result with ⟨nothing, -⟩ | ⟨-, -, committed⟩
    · rw [owned] at nothing
      cases nothing
    · exact leaves_commit wellFormed h.loaded
        (.inr (Contents.provenance_ne_empty_of_owned owned)) (.unregister packageId) committed

/-- A package that owns nothing is not unregistered. -/
theorem Keeps.leaves_unregister_nothing (h : r.Keeps files c) (wellFormed : files.WellFormed)
    (none : (c.provenance.ownedBy packageId).isEmpty = true) {report : UnregisterReport}
    (done : r.unregister packageId files = (r', files', .ok report)) :
    Leaves r files r' files' c := by
  rcases unregister_done done with ⟨-, -, rfl, rfl⟩ | ⟨c', -, loaded, result⟩
  · exact h.leaves wellFormed
  · cases h.loaded.symm.trans loaded
    rcases result with ⟨-, -, rfl, rfl⟩ | ⟨owned, -⟩
    · exact h.leaves wellFormed
    · rw [none] at owned
      cases owned

theorem isPackageId_of_readManifest (h : r.readManifest files packageId = .ok m) :
    isPackageId packageId = true :=
  (readManifest_eq_ok.mp h).1

theorem ownedBy_isEmpty_iff {p : Provenance} :
    (p.ownedBy packageId).isEmpty = true ↔ ∀ node name, p.owner? node name ≠ some packageId := by
  rw [List.isEmpty_iff, List.eq_nil_iff_forall_not_mem]
  constructor
  · exact fun none node name owned => none (node, name) (Provenance.mem_ownedBy.mpr owned)
  · exact fun none (node, name) mem => none node name (Provenance.mem_ownedBy.mp mem)

/-- A package without a manifest to merge changes nothing. -/
theorem Keeps.register_skipped (h : r.Keeps files c) (lacks : c.Lacks packageId)
    {reason : SkipReason} (skipped : r.readManifest files packageId = .error reason) :
    r.register packageId files =
        (r, files, .ok { RegisterReport.start packageId with skipped := some reason }) ∧
      r.unregister packageId files = (r, files, .ok ⟨packageId, 0, 0⟩) := by
  constructor
  · unfold register
    rw [skipped]
  · unfold unregister
    rw [h.loaded]
    dsimp only
    rw [if_pos (ownedBy_isEmpty_iff.mpr lacks.owns), ite_self]

/-- **Install, uninstall, reinstall.** A package comes to a settled registry in which it has no
part, and is registered, unregistered and registered again. The registry keeps what the manifest
is merged into, then what was there at first but for the actions that the manifest names and no
package owned, and then the same as after the first registration. Without a manifest that
declares an action all stays as it was. -/
theorem reinstall (wellFormed : files.WellFormed) (keeps : r.Keeps files c) (settled : c.Settled)
    (lacks : c.Lacks packageId)
    {r₁ r₀ r₂ : Registry} {files₁ files₀ files₂ : FileTree} {report₁ report₂ : RegisterReport}
    {report₀ : UnregisterReport}
    (install : r.register packageId files = (r₁, files₁, .ok report₁))
    (uninstall : r₁.unregister packageId files₁ = (r₀, files₀, .ok report₀))
    (again : r₀.register packageId files₀ = (r₂, files₂, .ok report₂)) :
    (∀ m, r.readManifest files packageId = .ok m →
      r₁.Keeps files₁ (c.register packageId m).contents ∧
        r₀.Keeps files₀ (c.withoutUnowned m) ∧
        r₂.Keeps files₂ (c.register packageId m).contents) ∧
    ∀ reason, r.readManifest files packageId = .error reason →
      r₁.Keeps files₁ c ∧ r₀.Keeps files₀ c ∧ r₂.Keeps files₂ c := by
  refine ⟨fun m manifest => ?_, fun reason skipped => ?_⟩
  · have first := keeps.leaves_register wellFormed manifest install
    have second : Leaves r₁ files₁ r₀ files₀ (c.withoutUnowned m) := by
      cases owned : ((c.register packageId m).contents.provenance.ownedBy packageId).isEmpty with
      | false =>
        rw [← Contents.unregister_register settled lacks m]
        exact first.keeps.leaves_unregister first.wellFormed (isPackageId_of_readManifest manifest)
          owned uninstall
      | true =>
        have left := first.keeps.leaves_unregister_nothing first.wellFormed owned uninstall
        have same : (c.register packageId m).contents = c := by
          rcases c.accounts_register packageId m with ⟨-, same⟩ | ⟨-, node, name, some⟩
          · exact same
          · exact absurd some (ownedBy_isEmpty_iff.mp owned node name)
        rw [Contents.withoutUnowned_of_register lacks same]
        rwa [same] at left
    have third := second.keeps.leaves_register second.wellFormed
      (second.manifests packageId m (first.manifests packageId m manifest)) again
    rw [Contents.register_withoutUnowned lacks m] at third
    exact ⟨first.keeps, second.keeps, third.keeps⟩
  · obtain ⟨registers, unregisters⟩ := keeps.register_skipped lacks skipped
    cases registers.symm.trans install
    cases unregisters.symm.trans uninstall
    cases registers.symm.trans again
    exact ⟨keeps, keeps, keeps⟩

/-! ## A package at the desk -/

section Clear

variable {base : Place}

theorem exists_commit (clear : r.store.Clear files base) (c : Contents) :
    ∃ r' files', r.commit c files = (r', files', none) ∧ r'.store.Clear files' base := by
  obtain ⟨files', saved, clear⟩ := clear.exists_save c
  refine ⟨{ r with snapshot := ⟨c.nodes, c.provenance⟩ }, files', ?_, clear⟩
  unfold commit
  rw [saved]

/-- A registration succeeds when nothing is in the way of saving. -/
theorem Keeps.exists_register (h : r.Keeps files c) (clear : r.store.Clear files base)
    (packageId : String) :
    ∃ r' files' report, r.register packageId files = (r', files', .ok report) ∧
      r'.store.Clear files' base := by
  unfold register
  cases r.readManifest files packageId with
  | error reason => exact ⟨r, files, _, rfl, clear⟩
  | ok m =>
    dsimp only
    rw [h.loaded]
    dsimp only
    split
    · exact ⟨r, files, _, rfl, clear⟩
    · obtain ⟨r', files', committed, clear⟩ :=
        exists_commit clear (c.register packageId m).contents
      rw [committed]
      exact ⟨r', files', _, rfl, clear⟩

/-- An unregistration succeeds when nothing is in the way of saving. -/
theorem Keeps.exists_unregister (h : r.Keeps files c) (clear : r.store.Clear files base)
    (packageId : String) :
    ∃ r' files' report, r.unregister packageId files = (r', files', .ok report) ∧
      r'.store.Clear files' base := by
  unfold unregister
  dsimp only
  split
  · rw [h.loaded]
    dsimp only
    split
    · exact ⟨r, files, _, rfl, clear⟩
    · obtain ⟨r', files', committed, clear⟩ := exists_commit clear (c.unregister packageId).1
      rw [committed]
      exact ⟨r', files', _, rfl, clear⟩
  · exact ⟨r, files, _, rfl, clear⟩

end Clear

/-- What a registry holds with the desk, which also has a bell that no package owns. -/
def bellContents : Contents where
  nodes := deskContents.nodes.modify "desk" (·.withAction "ring" (.code "Rings the bell"))
  provenance := deskContents.provenance
  guides := deskContents.guides

/-- The registry with the desk and the bell. -/
def bellRegistry : Registry :=
  ⟨⟨"registry"⟩, "packages", false, bellContents.snapshot⟩

/-- A package that rings, and that would send letters from the desk as well. -/
def phoneManifest : Manifest :=
  .single "desk" ⟨(NameMap.empty.insert "ring" ⟨"", none, none, none⟩).insert "send"
    ⟨"", none, none, none⟩, ["Be brief", "Speak up"]⟩ none

/-- The files of the registry with the desk and the bell, and of the package. -/
def bellFiles : FileTree where
  start := []
  entries := (["registry"], .directory) :: (["packages"], .directory) ::
    (["packages", "phone"], .directory) ::
    (["packages", "phone", "ibl_actions.json"], .file (Symbol.ofText
      "\x7b\"node\":\"desk\",\"actions\":\x7b\"ring\":\x7b\x7d,\"send\":\x7b\x7d\x7d,\"guides\":[\"Be brief\",\"Speak up\"]\x7d")) ::
    (Store.contentsOf bellContents).map fun d =>
      (["registry", d.1], .file (Symbol.ofText d.2.pretty))

theorem clear_bell : bellRegistry.store.Clear bellFiles ["registry"] :=
  Store.clear_of_free (by decide) ⟨by decide, by decide⟩ Store.arePaths_registry (by decide)

theorem keeps_bell : bellRegistry.Keeps bellFiles bellContents where
  loaded := clear_bell.loadContents_eq (by decide) (Store.forall_mem_contentsOf.mpr ⟨rfl, rfl, rfl⟩)
  published := rfl

theorem holds_bell {packageId node guide : String} :
    bellContents.Holds packageId node guide ↔
      packageId = "mail" ∧ node = "desk" ∧ guide = "Be brief" := by
  have recorded := Contents.holds_record ⟨bellContents.nodes, bellContents.provenance, .empty⟩
    "mail" "desk" "Be brief" packageId node guide
  refine recorded.trans (or_iff_left fun none => ?_)
  cases none

theorem settled_bell : bellContents.Settled where
  owners node actions found :=
    (by decide : ∀ e ∈ bellContents.provenance.table.entries, e.2.isEmpty = false) _
      (NameMap.mem_entries.mpr found)
  holders := GuideOwners.Filled.record ⟨fun _ _ none => (by cases none),
    fun _ _ _ _ none => by cases none⟩ "desk" "Be brief" "mail"
  listed packageId node guide held := by
    obtain ⟨-, rfl, rfl⟩ := holds_bell.mp held
    exact ⟨_, rfl, by decide⟩

theorem lacks_bell : bellContents.Lacks "phone" where
  owns := ownedBy_isEmpty_iff.mp (by decide)
  holds node guide held := absurd (holds_bell.mp held).1 (by decide)

theorem readManifest_bell : bellRegistry.readManifest bellFiles "phone" = .ok phoneManifest := by
  decide +kernel

/-- The bell is gone after the package has come and gone, and it is the package's again when it
has come back. -/
theorem reinstall_bell : bellFiles.WellFormed ∧ bellRegistry.Keeps bellFiles bellContents ∧
    bellContents.Settled ∧ bellContents.Lacks "phone" ∧
    bellRegistry.readManifest bellFiles "phone" = .ok phoneManifest ∧
    ∃ r₁ files₁ report₁ r₀ files₀ report₀ r₂ files₂ report₂,
      bellRegistry.register "phone" bellFiles = (r₁, files₁, .ok report₁) ∧
        r₁.unregister "phone" files₁ = (r₀, files₀, .ok report₀) ∧
        r₀.register "phone" files₀ = (r₂, files₂, .ok report₂) ∧
        r₁.Keeps files₁ (bellContents.register "phone" phoneManifest).contents ∧
        r₀.Keeps files₀ deskContents ∧
        r₂.Keeps files₂ (bellContents.register "phone" phoneManifest).contents := by
  obtain ⟨r₁, files₁, report₁, install, clear₁⟩ := keeps_bell.exists_register clear_bell "phone"
  have first := keeps_bell.leaves_register clear_bell.wellFormed readManifest_bell install
  obtain ⟨r₀, files₀, report₀, uninstall, clear₀⟩ := first.keeps.exists_unregister clear₁ "phone"
  have second := first.keeps.leaves_unregister first.wellFormed (by decide) (by decide) uninstall
  obtain ⟨r₂, files₂, report₂, again, -⟩ := second.keeps.exists_register clear₀ "phone"
  obtain ⟨registered, unregistered, reregistered⟩ := (reinstall clear_bell.wellFormed keeps_bell
    settled_bell lacks_bell install uninstall again).1 phoneManifest readManifest_bell
  have gone : bellContents.withoutUnowned phoneManifest = deskContents := by decide
  exact ⟨clear_bell.wellFormed, keeps_bell, settled_bell, lacks_bell, readManifest_bell,
    r₁, files₁, report₁, r₀, files₀, report₀, r₂, files₂, report₂, install, uninstall, again,
    registered, gone ▸ unregistered, reregistered⟩

end Registry

end CapabilityPipeline
