import CapabilityPipeline.Proofs.Names.Lookup
import CapabilityPipeline.Registry.Installer

/-!
# What registering and unregistering change

The registry is looked at one action at a time: how the action of a node is defined and which
package owns it. Registering and unregistering are described by what they do to this view of
every action.

Results:

* `Contents.view_register`: a registered package defines and owns the actions that its manifest
  installs, and all others are as before.
* `Contents.view_unregister`: an unregistered package owns nothing, and what it owned is gone.
* `Contents.contains_register`: registering neither adds nor removes nodes.
-/

namespace CapabilityPipeline

/-! ## The view -/

/-- How an action of a node is defined. -/
def Contents.action? (c : Contents) (node name : String) : Option Action :=
  (c.nodes.get? node).bind fun n => n.actions.get? name

/-- How an action of a node is defined, and which package owns it. -/
def Contents.view (c : Contents) (node name : String) : Option Action × Option String :=
  (c.action? node name, c.provenance.owner? node name)

/-- What a manifest declares for an action of a node. -/
def Manifest.entry? (m : Manifest) (node name : String) : Option ManifestAction :=
  (m.contributions.lookup node).bind fun contribution => contribution.actions.get? name

/-- A package may define an action: no other package owns it. -/
def Contents.isOpen (c : Contents) (packageId node name : String) : Bool :=
  (c.provenance.owner? node name).all (· = packageId)

/-- What registering a package installs as an action of a node: what the manifest declares, if
the node exists and no other package owns the action. -/
def Contents.installed? (c : Contents) (packageId : String) (m : Manifest) (node name : String) :
    Option ManifestAction :=
  if c.nodes.contains node && c.isOpen packageId node name then m.entry? node name else none

/-- An action that a package contributes, as it is seen afterwards. -/
def ManifestAction.viewed (entry : ManifestAction) (packageId name : String) :
    Option Action × Option String :=
  (some (entry.toAction packageId name), some packageId)

/-! ## Owners -/

namespace Provenance

theorem owner?_record (p : Provenance) (node action packageId other name : String) :
    (p.record node action packageId).owner? other name =
      if other = node ∧ name = action then some packageId else p.owner? other name := by
  unfold record owner?
  rw [NameMap.get?_insert]
  by_cases hn : other = node
  · subst hn
    rw [if_pos rfl, Option.bind_some, NameMap.get?_insert]
    by_cases ha : name = action
    · simp [ha]
    · rw [if_neg ha, if_neg (fun h => ha h.2)]
      cases p.table.get? other <;> simp
  · rw [if_neg hn, if_neg (fun h => hn h.1)]

theorem owner?_remove (p : Provenance) (node action other name : String) :
    (p.remove node action).owner? other name =
      if other = node ∧ name = action then none else p.owner? other name := by
  unfold remove
  cases h : p.table.get? node with
  | none =>
    by_cases hn : other = node
    · simp [owner?, hn, h]
    · simp [hn]
  | some actions =>
    by_cases hn : other = node
    · subst hn
      have before : p.owner? other name = actions.get? name := by simp [owner?, h]
      have after : (if (actions.erase action).isEmpty then (⟨p.table.erase other⟩ : Provenance)
          else ⟨p.table.insert other (actions.erase action)⟩).owner? other name =
          (actions.erase action).get? name := by
        split
        · next empty => simp [owner?, NameMap.get?_erase, NameMap.isEmpty_iff.mp empty name]
        · simp [owner?, NameMap.get?_insert]
      rw [after, before, NameMap.get?_erase]
      simp
    · have untouched : (if (actions.erase action).isEmpty then (⟨p.table.erase node⟩ : Provenance)
          else ⟨p.table.insert node (actions.erase action)⟩).owner? other name =
          p.owner? other name := by
        split
        · simp [owner?, NameMap.get?_erase, hn]
        · simp [owner?, NameMap.get?_insert, hn]
      rw [untouched, if_neg (fun h => hn h.1)]

theorem mem_entries {p : Provenance} {node action packageId : String} :
    (node, action, packageId) ∈ p.entries ↔ p.owner? node action = some packageId := by
  unfold entries owner?
  rw [List.mem_flatMap]
  constructor
  · rintro ⟨⟨n, actions⟩, hn, h⟩
    obtain ⟨⟨a, q⟩, ha, same⟩ := List.mem_map.mp h
    cases same
    rw [NameMap.mem_entries.mp hn, Option.bind_some]
    exact NameMap.mem_entries.mp ha
  · intro h
    obtain ⟨actions, hn, ha⟩ := Option.bind_eq_some_iff.mp h
    exact ⟨(node, actions), NameMap.mem_entries.mpr hn,
      List.mem_map.mpr ⟨(action, packageId), NameMap.mem_entries.mpr ha, rfl⟩⟩

theorem mem_ownedBy {p : Provenance} {packageId node action : String} :
    (node, action) ∈ p.ownedBy packageId ↔ p.owner? node action = some packageId := by
  unfold ownedBy
  rw [List.mem_map]
  constructor
  · rintro ⟨⟨n, a, q⟩, h, same⟩
    obtain ⟨hmem, hq⟩ := List.mem_filter.mp h
    cases same
    rw [← of_decide_eq_true hq]
    exact mem_entries.mp hmem
  · intro h
    exact ⟨(node, action, packageId),
      List.mem_filter.mpr ⟨mem_entries.mpr h, decide_eq_true rfl⟩, rfl⟩

end Provenance

/-! ## Nodes -/

theorem Contents.action?_modify (nodes : NameMap Node) (provenance provenance' : Provenance)
    (guides guides' : GuideOwners) (node other name : String) (f : Node → Node) :
    (⟨nodes.modify node f, provenance, guides⟩ : Contents).action? other name =
      if other = node then (nodes.get? node).bind fun n => (f n).actions.get? name
      else (⟨nodes, provenance', guides'⟩ : Contents).action? other name := by
  unfold Contents.action?
  by_cases h : other = node
  · subst h
    rw [if_pos rfl, NameMap.get?_modify_self]
    cases nodes.get? other <;> rfl
  · rw [if_neg h, NameMap.get?_modify_of_ne _ h]

theorem Node.addGuide_actions (n : Node) (guide : String) :
    (n.addGuide guide).actions = n.actions := by
  unfold addGuide
  split <;> rfl

/-! ## Registering -/

namespace Merge

theorem contents_addAction (m : Merge) (packageId node name : String) (entry : ManifestAction) :
    (m.addAction packageId node name entry).contents =
      if m.contents.isOpen packageId node name then
        (m.install packageId node name entry).contents
      else m.contents := by
  unfold addAction Contents.isOpen
  cases m.contents.provenance.owner? node name with
  | none =>
    simp only [Option.all_none, if_true]
    split <;> rfl
  | some owner =>
    by_cases h : owner = packageId
    · simp [h]
    · simp [h, warn]

theorem contains_addAction (m : Merge) (packageId node name other : String)
    (entry : ManifestAction) :
    (m.addAction packageId node name entry).contents.nodes.contains other =
      m.contents.nodes.contains other := by
  rw [contents_addAction]
  split
  · exact NameMap.contains_modify _ _ _ _
  · rfl

theorem view_addAction {m : Merge} {node : String} (present : m.contents.nodes.contains node)
    (packageId name other act : String) (entry : ManifestAction) :
    (m.addAction packageId node name entry).contents.view other act =
      if other = node ∧ act = name ∧ m.contents.isOpen packageId node name then
        entry.viewed packageId name
      else m.contents.view other act := by
  obtain ⟨n, hn⟩ := NameMap.contains_iff.mp present
  rw [contents_addAction]
  by_cases free : m.contents.isOpen packageId node name
  · rw [if_pos free]
    unfold Contents.view install
    rw [Contents.action?_modify _ _ m.contents.provenance _ m.contents.guides,
      Provenance.owner?_record, hn]
    by_cases ho : other = node
    · by_cases ha : act = name
      · simp [ho, ha, free, ManifestAction.viewed, Node.withAction, NameMap.get?_insert]
      · simp [ho, ha, Node.withAction, NameMap.get?_insert, Contents.action?, hn]
    · simp [ho]
  · rw [if_neg free, if_neg (fun h => free h.2.2)]

theorem isOpen_addAction {m : Merge} {node : String} (present : m.contents.nodes.contains node)
    (packageId name act : String) (entry : ManifestAction) :
    (m.addAction packageId node name entry).contents.isOpen packageId node act =
      m.contents.isOpen packageId node act := by
  have owners := congrArg Prod.snd (view_addAction present packageId name node act entry)
  simp only [Contents.view] at owners
  unfold Contents.isOpen at owners ⊢
  rw [owners]
  split
  · next h =>
    obtain ⟨-, rfl, free⟩ := h
    rw [free]
    simp [ManifestAction.viewed]
  · rfl

/-- Merging the actions of a contribution, one after another. -/
theorem view_foldl_addAction (packageId node : String) :
    ∀ (entries : List (String × ManifestAction)) (m : Merge), m.contents.nodes.contains node →
      (entries.map Prod.fst).Nodup → ∀ other act,
      (entries.foldl (fun m e => m.addAction packageId node e.1 e.2) m).contents.view other act =
        if other = node ∧ m.contents.isOpen packageId node act then
          ((entries.lookup act).map fun entry => entry.viewed packageId act).getD
            (m.contents.view other act)
        else m.contents.view other act := by
  intro entries
  induction entries with
  | nil => intro m _ _ other act; simp
  | cons e rest ih =>
    intro m present distinct other act
    obtain ⟨name, entry⟩ := e
    rw [List.map_cons, List.nodup_cons] at distinct
    rw [List.foldl_cons, ih _ (by rw [contains_addAction]; exact present) distinct.2,
      isOpen_addAction present, view_addAction present]
    by_cases ho : other = node
    · by_cases ha : act = name
      · subst ho ha
        have absent : rest.lookup act = none := by
          rw [List.lookup_eq_none_iff]
          intro p hp
          have : p.1 ≠ act := fun same => distinct.1 (same ▸ List.mem_map.mpr ⟨p, hp, rfl⟩)
          simpa using Ne.symm this
        by_cases free : m.contents.isOpen packageId other act
        · simp [absent, free]
        · simp [free]
      · have skip : List.lookup act ((name, entry) :: rest) = rest.lookup act :=
          NameMap.lookup_cons_ne ha _ _
        simp [ho, ha, skip]
    · simp [ho]

theorem view_addGuide (m : Merge) (packageId node guide other act : String) :
    (m.addGuide packageId node guide).contents.view other act = m.contents.view other act := by
  unfold addGuide
  dsimp only
  split
  · split <;> rfl
  · unfold Contents.view
    rw [Contents.action?_modify _ _ m.contents.provenance _ m.contents.guides]
    by_cases h : other = node
    · simp [h, Node.addGuide_actions, Contents.action?]
    · simp [h]

theorem contains_addGuide (m : Merge) (packageId node guide other : String) :
    (m.addGuide packageId node guide).contents.nodes.contains other =
      m.contents.nodes.contains other := by
  unfold addGuide
  dsimp only
  split
  · split <;> rfl
  · exact NameMap.contains_modify _ _ _ _

/-! ### Contributions and manifests -/

/-- What the steps of a merge keep, all of them together keep. -/
theorem foldl_invariant {α : Type} {P : Contents → Prop} (step : Merge → α → Merge)
    (kept : ∀ (m : Merge) (a : α), P m.contents → P (step m a).contents) (l : List α) {m : Merge}
    (h : P m.contents) : P (l.foldl step m).contents := by
  induction l generalizing m with
  | nil => exact h
  | cons a rest ih => exact ih (kept m a h)

theorem contains_foldl {α : Type} (step : Merge → α → Merge)
    (kept : ∀ m a other, (step m a).contents.nodes.contains other =
      m.contents.nodes.contains other) (l : List α) (m : Merge) (other : String) :
    (l.foldl step m).contents.nodes.contains other = m.contents.nodes.contains other :=
  foldl_invariant (P := fun c => c.nodes.contains other = m.contents.nodes.contains other) step
    (fun m a same => (kept m a other).trans same) l rfl

theorem view_foldl {α : Type} (step : Merge → α → Merge)
    (kept : ∀ m a other act, (step m a).contents.view other act = m.contents.view other act)
    (l : List α) (m : Merge) (other act : String) :
    (l.foldl step m).contents.view other act = m.contents.view other act :=
  foldl_invariant (P := fun c => c.view other act = m.contents.view other act) step
    (fun m a same => (kept m a other act).trans same) l rfl

theorem contains_addContribution (m : Merge) (packageId node other : String)
    (contribution : Contribution) :
    (m.addContribution packageId node contribution).contents.nodes.contains other =
      m.contents.nodes.contains other := by
  unfold addContribution
  have actions := contains_foldl (fun m (e : String × ManifestAction) =>
    m.addAction packageId node e.1 e.2) (fun m e other => contains_addAction m _ _ _ _ _)
    contribution.actions.entries m other
  split
  · dsimp only
    split
    · rw [contains_foldl _ (fun m guide other => contains_addGuide m _ _ _ _), actions]
    · exact actions
  · exact contains_foldl (fun m name => m.warn (.unknownNode node name)) (fun _ _ _ => rfl) _ _ _

theorem view_addContribution (m : Merge) (packageId node other act : String)
    (contribution : Contribution) :
    (m.addContribution packageId node contribution).contents.view other act =
      if other = node ∧ m.contents.nodes.contains node ∧ m.contents.isOpen packageId node act then
        ((contribution.actions.get? act).map fun entry => entry.viewed packageId act).getD
          (m.contents.view other act)
      else m.contents.view other act := by
  unfold addContribution
  by_cases present : m.contents.nodes.contains node
  · have actions := view_foldl_addAction packageId node contribution.actions.entries m present
      (NameMap.keys_nodup _) other act
    rw [if_pos present]
    simp only [present, true_and]
    rw [← NameMap.get?] at actions
    split
    · rw [view_foldl _ (fun m guide other act => view_addGuide m _ _ _ _ _), actions]
    · exact actions
  · rw [if_neg present, view_foldl (fun m name => m.warn (.unknownNode node name))
      (fun _ _ _ _ => rfl), if_neg (fun h => present h.2.1)]

end Merge

theorem Manifest.contributions_nodup (m : Manifest) : (m.contributions.map Prod.fst).Nodup := by
  cases m with
  | multi nodes command => exact nodes.keys_nodup
  | single node contribution command => simp [contributions]

namespace Contents

theorem contains_register (c : Contents) (packageId : String) (m : Manifest) (node : String) :
    (c.register packageId m).contents.nodes.contains node = c.nodes.contains node := by
  unfold register
  rw [Merge.contains_foldl _ (fun m e other => Merge.contains_addContribution m _ _ _ _)]

theorem view_foldl_addContribution (packageId node act : String) :
    ∀ (contributions : List (String × Contribution)) (m : Merge),
      (contributions.map Prod.fst).Nodup →
      (contributions.foldl (fun m e => m.addContribution packageId e.1 e.2) m).contents.view
          node act =
        if m.contents.nodes.contains node ∧ m.contents.isOpen packageId node act then
          (((contributions.lookup node).bind fun c => c.actions.get? act).map fun entry =>
            entry.viewed packageId act).getD (m.contents.view node act)
        else m.contents.view node act := by
  intro contributions
  induction contributions with
  | nil => intro m _; simp
  | cons e rest ih =>
    intro m distinct
    obtain ⟨other, contribution⟩ := e
    rw [List.map_cons, List.nodup_cons] at distinct
    have step := Merge.view_addContribution m packageId other node act contribution
    rw [List.foldl_cons, ih _ distinct.2, Merge.contains_addContribution]
    by_cases hn : node = other
    · subst hn
      have absent : rest.lookup node = none := by
        rw [List.lookup_eq_none_iff]
        intro p hp
        have : p.1 ≠ node := fun same => distinct.1 (same ▸ List.mem_map.mpr ⟨p, hp, rfl⟩)
        simpa using Ne.symm this
      rw [step, absent]
      simp
    · have skip : List.lookup node ((other, contribution) :: rest) = rest.lookup node :=
        NameMap.lookup_cons_ne hn _ _
      rw [if_neg (fun h => hn h.1)] at step
      have free : (m.addContribution packageId other contribution).contents.isOpen packageId
          node act = m.contents.isOpen packageId node act := by
        unfold isOpen
        rw [show (m.addContribution packageId other contribution).contents.provenance.owner?
          node act = m.contents.provenance.owner? node act from congrArg Prod.snd step]
      rw [step, skip, free]

/-- **Registration.** What a manifest installs is defined as the package contributes it and owned
by the package; every other action keeps its definition and its owner. -/
theorem view_register (c : Contents) (packageId : String) (m : Manifest) (node act : String) :
    (c.register packageId m).contents.view node act =
      match c.installed? packageId m node act with
      | some entry => entry.viewed packageId act
      | none => c.view node act := by
  unfold register
  rw [view_foldl_addContribution _ _ _ _ _ m.contributions_nodup]
  unfold installed? Manifest.entry?
  dsimp only
  by_cases h : c.nodes.contains node ∧ c.isOpen packageId node act
  · rw [if_pos h, if_pos (by simpa using h)]
    cases (m.contributions.lookup node).bind fun c => c.actions.get? act <;> rfl
  · rw [if_neg h, if_neg (by simpa using h)]

/-! ## Unregistering -/

theorem view_removeAction (c : Contents) (node action other act : String) :
    (c.removeAction node action).view other act =
      if other = node ∧ act = action then (none, none) else c.view other act := by
  unfold removeAction view
  rw [action?_modify _ _ c.provenance _ c.guides, Provenance.owner?_remove]
  by_cases hn : other = node
  · by_cases ha : act = action
    · subst hn ha
      cases c.nodes.get? other <;> simp [Node.removeAction, NameMap.get?_erase]
    · subst hn
      simp only [ha, and_false, if_false, if_true]
      unfold action?
      cases c.nodes.get? other <;> simp [Node.removeAction, NameMap.get?_erase, ha]
  · simp [hn]

theorem view_foldl_removeAction (node act : String) :
    ∀ (owned : List (String × String)) (c : Contents),
      (owned.foldl (fun c e => c.removeAction e.1 e.2) c).view node act =
        if (node, act) ∈ owned then (none, none) else c.view node act := by
  intro owned
  induction owned with
  | nil => intro c; simp
  | cons e rest ih =>
    intro c
    obtain ⟨other, action⟩ := e
    rw [List.foldl_cons, ih, view_removeAction]
    by_cases h : node = other ∧ act = action
    · simp [h]
    · simp [h]

theorem view_foldl_removeGuide (node act : String) :
    ∀ (orphaned : List (String × String)) (c : Contents) (n : Nat),
      (orphaned.foldl (fun (c, n) e => let (c, m) := c.removeGuide e.1 e.2; (c, n + m))
        (c, n)).1.view node act = c.view node act := by
  intro orphaned
  induction orphaned with
  | nil => intro c n; rfl
  | cons e rest ih =>
    intro c n
    rw [List.foldl_cons, ih]
    unfold removeGuide view
    rw [action?_modify _ _ c.provenance _ c.guides]
    by_cases h : node = e.1
    · subst h
      unfold action?
      cases c.nodes.get? e.1 <;> simp [Node.removeGuide]
    · simp [h]

/-- **Unregistration.** What a package owns loses its definition and its owner; every other
action keeps both. -/
theorem view_unregister (c : Contents) (packageId node act : String) :
    (c.unregister packageId).1.view node act =
      if c.provenance.owner? node act = some packageId then (none, none)
      else c.view node act := by
  have guides := view_foldl_removeGuide node act (c.guides.heldAlone packageId)
    ((c.provenance.ownedBy packageId).foldl (fun c e => c.removeAction e.1 e.2) c) 0
  rw [view_foldl_removeAction] at guides
  simp only [Provenance.mem_ownedBy] at guides
  exact guides

end Contents

end CapabilityPipeline
