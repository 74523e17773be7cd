import CapabilityPipeline.Proofs.Registry.Atomicity
import CapabilityPipeline.Proofs.Registry.Standing

/-!
# Registering twice

A package that is registered a second time with the same manifest finds done what it asks for: its
actions are defined and its own, and its guides are on the lists of their nodes. Nothing changes,
and the report is the first one without what only the first registration could do, which is to add
guides and to replace built-in actions.

Results:

* `Contents.Brought`: a guide of a package is where the package brings it.
* `Merge.Repeats`: a second merge that goes along with the first and finds everything done.
* `Contents.register_register`: a second registration changes nothing.
* `Registry.register_again`: the same for a registry with files.
-/

namespace CapabilityPipeline

open Text (Symbol)

/-! ## What is recorded already -/

theorem Provenance.record_eq_self {p : Provenance} {node action packageId : String}
    (owned : p.owner? node action = some packageId) : p.record node action packageId = p := by
  obtain ⟨actions, found, entry⟩ := Option.bind_eq_some_iff.mp owned
  unfold record
  dsimp only
  rw [found, Option.getD_some, NameMap.insert_eq_self entry, NameMap.insert_eq_self found]

theorem GuideOwners.record_eq_self {g : GuideOwners} {node guide packageId : String}
    (held : (g.holders node guide).contains packageId = true) : g.record node guide packageId = g := by
  obtain ⟨holders, entry⟩ := Option.isSome_iff_exists.mp (isOwned_of_contains_holders held)
  unfold GuideOwners.holders at held
  rw [entry] at held
  obtain ⟨guides, found, within⟩ := Option.bind_eq_some_iff.mp entry
  have joined : holders.add packageId = holders :=
    NameMap.insert_eq_self (NameMap.contains_iff.mp held).choose_spec
  unfold record
  dsimp only
  rw [found, Option.getD_some, within, Option.getD_some, joined, NameMap.insert_eq_self within,
    NameMap.insert_eq_self found]

/-! ## Reports -/

/-- The warning says that a built-in action is replaced. -/
def Warning.replaces : Warning → Bool
  | replacesBuiltIn _ _ => true
  | _ => false

/-- The report of a registration that finds everything done. -/
def RegisterReport.repeated (r : RegisterReport) : RegisterReport :=
  { r with guidesAdded := 0, warnings := r.warnings.filter fun w => !w.replaces }

namespace Contents

variable {c c' : Contents} {packageId node name : String}

/-! ## Owners -/

/-- The owner of an action, if it is another package. -/
def foreignOwner? (c : Contents) (packageId node name : String) : Option String :=
  (c.provenance.owner? node name).filter (· ≠ packageId)

theorem foreignOwner?_eq_some {owner : String} : c.foreignOwner? packageId node name = some owner ↔
    c.provenance.owner? node name = some owner ∧ owner ≠ packageId := by
  unfold foreignOwner?
  rw [Option.filter_eq_some_iff, decide_eq_true_iff]

theorem foreignOwner?_of_owned (owned : c.provenance.owner? node name = some packageId) :
    c.foreignOwner? packageId node name = none := by
  unfold foreignOwner?
  rw [owned]
  simp

theorem isOpen_iff :
    c.isOpen packageId node name = true ↔ c.foreignOwner? packageId node name = none := by
  unfold isOpen foreignOwner?
  cases c.provenance.owner? node name <;> simp

/-! ## Guides -/

/-- A guide is on the list of its node, and if packages hold it then the package is one of them. -/
structure Brought (c : Contents) (packageId node guide : String) : Prop where
  listed : ListsGuide c.nodes node guide
  held : c.guides.isOwned node guide = true → c.Holds packageId node guide

/-- Where a guide is listed, a package gets hold of it only with others. -/
theorem Brought.record {guide : String} (h : c.Brought packageId node guide) (other name : String) :
    ({ c with guides := c.guides.record other name packageId } : Contents).Brought
      packageId node guide := by
  refine ⟨h.listed, fun owned => (c.holds_record _ _ _ _ _ _).mpr ?_⟩
  have owned : c.guides.isOwned node guide = true ∨ node = other ∧ guide = name := by
    rw [GuideOwners.isOwned_record, Bool.or_eq_true, decide_eq_true_iff] at owned
    exact owned.symm
  exact owned.elim (fun before => .inr (h.held before)) fun same => .inl ⟨rfl, same⟩

end Contents

namespace Merge

open Contents

variable {m m' : Merge} {c' : Contents} {packageId node name guide : String}
  {entry : ManifestAction} {contribution : Contribution}

/-! ## What merging does to owners and guides -/

theorem foreignOwner?_addAction (m : Merge) (packageId node name : String) (entry : ManifestAction)
    (other act : String) :
    (m.addAction packageId node name entry).contents.foreignOwner? packageId other act =
      m.contents.foreignOwner? packageId other act := by
  rw [contents_addAction]
  split
  · next free =>
    have owner := m.contents.provenance.owner?_record node name packageId other act
    split at owner
    · next same =>
      obtain ⟨rfl, rfl⟩ := same
      rw [isOpen_iff.mp free]
      exact foreignOwner?_of_owned owner
    · exact congrArg (Option.filter (· ≠ packageId)) owner
  · rfl

theorem brought_addAction (h : m.contents.Brought packageId node guide) (other name : String)
    (entry : ManifestAction) :
    (m.addAction packageId other name entry).contents.Brought packageId node guide := by
  have more := m.extends_addAction packageId other name entry
  refine ⟨more.lists node guide h.listed, fun owned => more.holds packageId node guide (h.held ?_)⟩
  rwa [isOwned_addAction] at owned

/-- A guide stays where a package brought it when the package brings guides. -/
theorem brought_addGuide_of_brought (h : m.contents.Brought packageId node guide)
    (other name : String) :
    (m.addGuide packageId other name).contents.Brought packageId node guide := by
  have recorded := h.record other name
  refine ⟨(m.extends_addGuide packageId other name).lists node guide h.listed, ?_⟩
  unfold addGuide
  dsimp only
  split
  · split
    · exact recorded.held
    · exact h.held
  · exact recorded.held

theorem brought_addGuide (present : m.contents.nodes.contains node = true)
    (packageId guide : String) :
    (m.addGuide packageId node guide).contents.Brought packageId node guide := by
  obtain ⟨n, found⟩ := NameMap.contains_iff.mp present
  have held := (m.contents.holds_record packageId node guide packageId node guide).mpr
    (.inl ⟨rfl, rfl, rfl⟩)
  unfold addGuide
  dsimp only
  rw [found, Option.any_some]
  split
  · next on =>
    have listed : ListsGuide m.contents.nodes node guide :=
      ⟨n, found, List.contains_iff_mem.mp on⟩
    split
    · exact ⟨listed, fun _ => held⟩
    · next unowned => exact ⟨listed, fun owned => absurd owned unowned⟩
  · next new =>
    refine ⟨(listsGuide_modify _ node node guide _).mpr ⟨n, found, ?_⟩, fun _ => held⟩
    rw [if_pos rfl, Node.addGuide, if_neg new]
    exact List.mem_append_right _ (List.mem_singleton_self guide)

/-- What one step of a merge brings about, and the steps after it keep, holds in the end. -/
theorem foldl_establishes {α : Type} {P Q : Contents → Prop} (step : Merge → α → Merge)
    {l : List α} {a : α} (mem : a ∈ l)
    (before : ∀ (m : Merge) (b : α), Q m.contents → Q (step m b).contents)
    (here : ∀ m : Merge, Q m.contents → P (step m a).contents)
    (after : ∀ (m : Merge) (b : α), P m.contents → P (step m b).contents)
    (h : Q m.contents) : P (l.foldl step m).contents := by
  obtain ⟨first, rest, rfl⟩ := List.append_of_mem mem
  rw [List.foldl_append, List.foldl_cons]
  exact foldl_invariant step after rest (here _ (foldl_invariant step before first h))

/-- A contribution of which some action is installed brings its guides. -/
theorem brought_addContribution (present : m.contents.nodes.contains node = true)
    (opened : ∃ e ∈ contribution.actions.entries, m.contents.isOpen packageId node e.1 = true)
    (mem : guide ∈ contribution.guides) :
    (m.addContribution packageId node contribution).contents.Brought packageId node guide := by
  have still := (contains_foldl _ (fun m (e : String × ManifestAction) other =>
    contains_addAction m packageId node e.1 other e.2) contribution.actions.entries m
      node).trans present
  have more : m.report.registered < (contribution.actions.entries.foldl
      (fun m e => m.addAction packageId node e.1 e.2) m).report.registered := by
    rw [registered_foldl_addAction packageId _ present, Nat.lt_add_right_iff_pos,
      List.countP_pos_iff]
    exact opened
  unfold addContribution
  rw [if_pos present]
  dsimp only
  rw [if_pos more]
  exact foldl_establishes (P := fun c => c.Brought packageId node guide)
    (Q := fun c => c.nodes.contains node = true) _ mem
    (fun m other there => (contains_addGuide m packageId node other node).trans there)
    (fun _ there => brought_addGuide there packageId guide)
    (fun _ other brought => brought_addGuide_of_brought brought node other) still

end Merge

/-! ## What a registration achieves -/

namespace Contents

variable {c : Contents} {packageId node name : String} {m : Manifest} {contribution : Contribution}

/-- What a package contributes to a node is done: the actions are as contributed unless they
belong to others, and guides are where the package brings them if one of the actions is. -/
structure Fulfils (c : Contents) (packageId node : String) (contribution : Contribution) :
    Prop where
  actions : ∀ e ∈ contribution.actions.entries, c.isOpen packageId node e.1 = true →
    c.view node e.1 = e.2.viewed packageId e.1
  guides : (∃ e ∈ contribution.actions.entries, c.isOpen packageId node e.1 = true) →
    ∀ guide ∈ contribution.guides, c.Brought packageId node guide

theorem foreignOwner?_addGuide (m : Merge) (packageId node guide other act : String) :
    (m.addGuide packageId node guide).contents.foreignOwner? packageId other act =
      m.contents.foreignOwner? packageId other act := by
  unfold foreignOwner?
  rw [Merge.provenance_addGuide]

/-- A registration takes no action away from another package. -/
theorem foreignOwner?_register (c : Contents) (packageId : String) (m : Manifest)
    (node name : String) : (c.register packageId m).contents.foreignOwner? packageId node name =
      c.foreignOwner? packageId node name :=
  register_invariant
    (P := fun after => after.foreignOwner? packageId node name = c.foreignOwner? packageId node name)
    (fun m other act entry same =>
      (m.foreignOwner?_addAction packageId other act entry node name).trans same)
    (fun m other guide same => (foreignOwner?_addGuide m packageId other guide node name).trans same)
    m rfl

theorem isOpen_congr {c' : Contents}
    (same : c'.foreignOwner? packageId node name = c.foreignOwner? packageId node name) :
    c'.isOpen packageId node name = c.isOpen packageId node name := by
  rw [Bool.eq_iff_iff, isOpen_iff, isOpen_iff, same]

theorem entry?_of_mem (mem : (node, contribution) ∈ m.contributions) (name : String) :
    m.entry? node name = contribution.actions.get? name := by
  have found : m.contributions.lookup node = some contribution := by
    cases m with
    | multi nodes command => exact NameMap.mem_entries.mp mem
    | single _ _ command =>
      cases List.mem_singleton.mp mem
      exact NameMap.lookup_cons_self node contribution []
  rw [Manifest.entry?, found, Option.bind_some]

/-- **A registration does what the manifest asks for**, on the nodes that there are. -/
theorem fulfils_register (c : Contents) (packageId : String)
    (mem : (node, contribution) ∈ m.contributions) (present : c.nodes.contains node = true) :
    (c.register packageId m).contents.Fulfils packageId node contribution := by
  have opens (name : String) : (c.register packageId m).contents.isOpen packageId node name =
      c.isOpen packageId node name :=
    isOpen_congr (c.foreignOwner?_register packageId m node name)
  constructor
  · intro e entry opened
    have declared : c.installed? packageId m node e.1 = some e.2 := by
      rw [opens] at opened
      rw [installed?, present, opened, Bool.and_true, if_pos rfl, entry?_of_mem mem]
      exact NameMap.mem_entries.mp entry
    rw [view_register, declared]
  · rintro ⟨e, entry, opened⟩ guide brings
    refine Merge.foldl_establishes (P := fun c => c.Brought packageId node guide)
      (Q := fun c => c.nodes.contains node = true ∧ c.isOpen packageId node e.1 = true)
      (m := ⟨c, .start packageId⟩)
      (fun m e => m.addContribution packageId e.1 e.2) mem (fun m b h => ⟨?_, ?_⟩)
      (fun m h => Merge.brought_addContribution h.1 ⟨e, entry, h.2⟩ brings)
      (fun m b brought => ?_) ⟨present, (opens e.1).symm.trans opened⟩
    · exact (m.contains_addContribution packageId b.1 node b.2).trans h.1
    · exact addContribution_invariant (P := fun c => c.isOpen packageId node e.1 = true)
        (fun m other act entry h => (isOpen_congr
          (m.foreignOwner?_addAction packageId other act entry node e.1)).trans h)
        (fun m other guide h => (isOpen_congr
          (foreignOwner?_addGuide m packageId other guide node e.1)).trans h) b.1 b.2 h.2
    · exact addContribution_invariant (P := fun c => c.Brought packageId node guide)
        (fun _ other act entry h => Merge.brought_addAction h other act entry)
        (fun _ other name h => Merge.brought_addGuide_of_brought h other name) b.1 b.2 brought

end Contents

namespace Merge

open Contents

variable {m m' : Merge} {c' : Contents} {packageId node name guide : String}
  {entry : ManifestAction} {contribution : Contribution}

/-! ## The second merge -/

theorem addAction_of_foreign {owner : String}
    (foreign : m.contents.foreignOwner? packageId node name = some owner) (entry : ManifestAction) :
    m.addAction packageId node name entry = m.warn (.foreignOwner node name owner) := by
  obtain ⟨owned, other⟩ := foreignOwner?_eq_some.mp foreign
  unfold addAction
  rw [owned]
  exact if_neg other

theorem addAction_of_owned (owned : m.contents.provenance.owner? node name = some packageId)
    (entry : ManifestAction) :
    m.addAction packageId node name entry = m.install packageId node name entry := by
  unfold addAction
  rw [owned]
  exact if_pos rfl

/-- An action that is installed counts once, whether it replaces another or not. -/
theorem repeated_addAction (opened : m.contents.foreignOwner? packageId node name = none)
    (entry : ManifestAction) : (m.addAction packageId node name entry).report.repeated =
      { m.report.repeated with registered := m.report.registered + 1 } := by
  cases owner : m.contents.provenance.owner? node name with
  | some owner' =>
    have own : owner' = packageId := by
      by_contra other
      rw [foreignOwner?_eq_some.mpr ⟨owner, other⟩] at opened
      cases opened
    rw [addAction_of_owned (owner.trans (congrArg some own))]
    rfl
  | none =>
    unfold addAction
    rw [owner]
    dsimp only
    split
    · unfold install warn RegisterReport.repeated
      rw [List.filter_append]
      exact congrArg (fun warnings => RegisterReport.mk _ _ _ warnings _) (List.append_nil _)
    · rfl

/-- An action that is defined as contributed is not changed when it is installed again. -/
theorem contents_install_of_view
    (done : m.contents.view node name = entry.viewed packageId name) :
    (m.install packageId node name entry).contents = m.contents := by
  obtain ⟨defined, owned⟩ := Prod.mk.inj done
  have nodes : (m.contents.nodes.modify node fun n =>
      n.withAction name (entry.toAction packageId name)) = m.contents.nodes := by
    refine NameMap.modify_eq_self fun n found => ?_
    rw [action?, found, Option.bind_some] at defined
    rw [Node.withAction, NameMap.insert_eq_self defined]
  unfold install
  dsimp only
  rw [nodes, Provenance.record_eq_self owned]

/-- A guide that the package has brought is not brought again. -/
theorem addGuide_of_brought (h : m.contents.Brought packageId node guide) :
    m.addGuide packageId node guide = m := by
  obtain ⟨n, found, listed⟩ := h.listed
  unfold addGuide
  dsimp only
  rw [found, Option.any_some, if_pos (List.contains_iff_mem.mpr listed)]
  split
  · next owned => rw [GuideOwners.record_eq_self (h.held owned)]
  · rfl

/-- A merge that goes along with another one, finds all done, and reports what the other reports
but for what is done once. -/
structure Repeats (c' : Contents) (packageId : String) (m m' : Merge) : Prop where
  again : m' = ⟨c', m.report.repeated⟩
  owners : ∀ node name,
    c'.foreignOwner? packageId node name = m.contents.foreignOwner? packageId node name
  nodes : ∀ node, c'.nodes.contains node = m.contents.nodes.contains node

theorem Repeats.registered (h : Repeats c' packageId m m') :
    m'.report.registered = m.report.registered := by
  rw [h.again]
  rfl

theorem Repeats.warn (h : Repeats c' packageId m m') {warning : Warning}
    (kept : warning.replaces = false) :
    Repeats c' packageId (m.warn warning) (m'.warn warning) := by
  refine ⟨?_, h.owners, h.nodes⟩
  rw [h.again]
  unfold Merge.warn RegisterReport.repeated
  rw [List.filter_append, List.filter_cons, kept]
  rfl

theorem Repeats.addAction (h : Repeats c' packageId m m') (name : String) (entry : ManifestAction)
    (done : c'.isOpen packageId node name = true → c'.view node name = entry.viewed packageId name) :
    Repeats c' packageId (m.addAction packageId node name entry)
      (m'.addAction packageId node name entry) := by
  obtain ⟨again, owners, nodes⟩ := h
  have contents : m'.contents = c' := congrArg Merge.contents again
  cases foreign : m.contents.foreignOwner? packageId node name with
  | some owner =>
    have foreign' := (owners node name).trans foreign
    rw [addAction_of_foreign foreign, addAction_of_foreign (contents ▸ foreign')]
    exact Repeats.warn ⟨again, owners, nodes⟩ rfl
  | none =>
    have done := done (isOpen_iff.mpr ((owners node name).trans foreign))
    rw [← contents] at done
    refine ⟨?_, fun other act => ?_, fun other => ?_⟩
    · rw [addAction_of_owned (congrArg Prod.snd done), repeated_addAction foreign]
      have unchanged := contents_install_of_view done
      rw [again] at unchanged ⊢
      exact congrArg (fun c => Merge.mk c _) unchanged
    · exact (owners other act).trans (m.foreignOwner?_addAction packageId node name entry other
        act).symm
    · exact (nodes other).trans (m.contains_addAction packageId node name other entry).symm

theorem Repeats.addGuide (h : Repeats c' packageId m m') (guide : String)
    (done : c'.Brought packageId node guide) :
    Repeats c' packageId (m.addGuide packageId node guide) (m'.addGuide packageId node guide) := by
  obtain ⟨again, owners, nodes⟩ := h
  have repeated : (m.addGuide packageId node guide).report.repeated = m.report.repeated := by
    unfold Merge.addGuide
    dsimp only
    split
    · split <;> rfl
    · rfl
  refine ⟨?_, fun other act => ?_, fun other => ?_⟩
  · have contents : m'.contents = c' := congrArg Merge.contents again
    rw [addGuide_of_brought (contents ▸ done), repeated]
    exact again
  · exact (owners other act).trans (foreignOwner?_addGuide m packageId node guide other act).symm
  · exact (nodes other).trans (m.contains_addGuide packageId node guide other).symm

theorem Repeats.addContribution (h : Repeats c' packageId m m') (node : String)
    (contribution : Contribution)
    (done : c'.nodes.contains node = true → c'.Fulfils packageId node contribution) :
    Repeats c' packageId (m.addContribution packageId node contribution)
      (m'.addContribution packageId node contribution) := by
  have contents : m'.contents = c' := congrArg Merge.contents h.again
  unfold Merge.addContribution
  dsimp only
  rw [contents, h.nodes node]
  split
  · next present =>
    have done := done ((h.nodes node).trans present)
    have actions := List.foldl_rel (l := contribution.actions.entries)
      (r := Repeats c' packageId) h fun e mem _ _ repeats =>
        repeats.addAction e.1 e.2 (done.actions e mem)
    rw [h.registered, actions.registered]
    split
    · next more =>
      have opened : ∃ e ∈ contribution.actions.entries, c'.isOpen packageId node e.1 = true := by
        rw [registered_foldl_addAction packageId _ present, Nat.lt_add_right_iff_pos,
          List.countP_pos_iff] at more
        obtain ⟨e, mem, opened⟩ := more
        exact ⟨e, mem, (isOpen_congr (h.owners node e.1)).trans opened⟩
      exact List.foldl_rel actions fun guide mem _ _ repeats =>
        repeats.addGuide guide (done.guides opened guide mem)
    · exact actions
  · exact List.foldl_rel h fun name _ _ _ repeats => repeats.warn rfl

end Merge

namespace Contents

/-- **A second registration changes nothing**, and it reports what the first one did but for the
guides that were added and the built-in actions that were replaced. -/
theorem register_register (c : Contents) (packageId : String) (m : Manifest) :
    (c.register packageId m).contents.register packageId m =
      ⟨(c.register packageId m).contents, (c.register packageId m).report.repeated⟩ := by
  have start : Merge.Repeats (c.register packageId m).contents packageId ⟨c, .start packageId⟩
      ⟨(c.register packageId m).contents, .start packageId⟩ :=
    ⟨rfl, c.foreignOwner?_register packageId m, c.contains_register packageId m⟩
  refine (List.foldl_rel (r := Merge.Repeats (c.register packageId m).contents packageId) start
    fun e mem _ _ repeats => repeats.addContribution e.1 e.2 fun present => ?_).again
  exact c.fulfils_register packageId mem ((c.contains_register packageId m e.1).symm.trans present)

end Contents

/-! ## Registries with files -/

/-- Files that hold the same contents are the same. -/
theorem Store.Written.sameFiles {s : Store} {c : Contents} {files files' : FileTree}
    (h : s.Written c files) (h' : s.Written c files') : s.SameFiles files files' := by
  intro name mem
  have names : Store.fileNames = (Store.contentsOf c).map Prod.fst := rfl
  have documents : s.documents c = (Store.contentsOf c).map fun d => (s.path d.1, d.2) := rfl
  unfold Written at h h'
  rw [documents] at h h'
  rw [names] at mem
  obtain ⟨d, hd, rfl⟩ := List.mem_map.mp mem
  have here := List.mem_map_of_mem (f := fun d => (s.path d.1, d.2)) hd
  exact (h' _ here).trans (h _ here).symm

namespace Registry

variable {r r₁ r₂ : Registry} {files files₁ files₂ : FileTree} {c : Contents} {packageId : String}
  {report₁ report₂ : RegisterReport}

/-- The same contents are committed again without a change. -/
theorem commit_again {base base₁ : Place} (located : r.store.Located files base)
    (located₁ : r₁.store.Located files₁ base₁) (first : r.commit c files = (r₁, files₁, none))
    (second : r₁.commit c files₁ = (r₂, files₂, none)) :
    r₂ = r₁ ∧ r₁.store.SameFiles files₁ files₂ := by
  obtain ⟨saved, same⟩ := commit_eq first
  obtain ⟨saved₁, same₁⟩ := commit_eq second
  have written : r₁.store.Written c files₁ := by
    rw [same]
    exact located.written_save saved
  refine ⟨?_, written.sameFiles (located₁.written_save saved₁)⟩
  rw [same₁, same]

/-- **Registering again changes nothing.** When a package is registered and then registered once
more with the same manifest, and both succeed, the registry is after the second time what it was
after the first: its three files are the same and hold the same contents, and readers see the
same. The second report is the first one without guides that were added and without warnings of
built-in actions that were replaced. -/
theorem register_again (wellFormed : files.WellFormed)
    (first : r.register packageId files = (r₁, files₁, .ok report₁))
    (second : r₁.register packageId files₁ = (r₂, files₂, .ok report₂)) :
    r₂ = r₁ ∧ r₂.store.loadContents files₂ = r₁.store.loadContents files₁ ∧
      r₁.store.SameFiles files₁ files₂ ∧ report₂ = report₁.repeated := by
  -- Where the first registration changed nothing, the second one is the first.
  have unchanged (same : r₁ = r) (same' : files₁ = files)
      (repeated : report₁ = report₁.repeated) :
      r₂ = r₁ ∧ r₂.store.loadContents files₂ = r₁.store.loadContents files₁ ∧
        r₁.store.SameFiles files₁ files₂ ∧ report₂ = report₁.repeated := by
    subst same same'
    cases first.symm.trans second
    exact ⟨rfl, rfl, fun _ _ => rfl, repeated⟩
  rcases register_done first with ⟨reason, -, same, same', report⟩ |
    ⟨m, c, manifest, loaded, report, ⟨nothing, same, same'⟩ | ⟨registered, committed⟩⟩
  · exact unchanged same same' (by rw [report]; rfl)
  · refine unchanged same same' ?_
    rcases c.accounts_register packageId m with ⟨-, rest⟩ | ⟨more, -⟩
    · have again := congrArg Merge.report (c.register_register packageId m)
      rw [rest] at again
      rwa [← report] at again
    · exact absurd (report ▸ nothing) more
  · have some : c.nodes ≠ .empty :=
      Contents.nodes_ne_empty_of_registered (report ▸ registered)
    have leaves := leaves_commit wellFormed loaded (.inl some) (.register packageId m) committed
    have again := c.register_register packageId m
    have kept : r₁.store.loadContents files₁ = .ok (c.register packageId m).contents :=
      leaves.keeps.loaded
    rcases register_done second with ⟨reason, skipped, -⟩ |
      ⟨m', c', manifest', loaded', report', committed'⟩
    · rw [leaves.manifests packageId m manifest] at skipped
      cases skipped
    · cases (leaves.manifests packageId m manifest).symm.trans manifest'
      cases kept.symm.trans loaded'
      have repeated : report₂ = report₁.repeated := by
        rw [report', again, report]
      have more : report₂.registered ≠ 0 := by
        rw [repeated]
        exact registered
      rcases committed' with ⟨nothing, -⟩ | ⟨-, committed'⟩
      · exact absurd nothing more
      · obtain ⟨base, located⟩ := Store.located_of_loadContents wellFormed loaded (.inl some)
        obtain ⟨base₁, located₁⟩ := Store.located_of_loadContents leaves.wellFormed kept
          (.inl (Contents.nodes_ne_empty_of_registered (report' ▸ more)))
        rw [again] at committed'
        obtain ⟨unmoved, sameFiles⟩ := commit_again located located₁ committed committed'
        rw [unmoved]
        exact ⟨rfl, sameFiles.loadContents, sameFiles, repeated⟩

/-- The package takes the bell over once and brings its second guide once. It is told each time
that the letters are another's. -/
theorem register_again_bell : bellFiles.WellFormed ∧
    ∃ r₁ files₁ report₁ r₂ files₂ report₂,
      bellRegistry.register "phone" bellFiles = (r₁, files₁, .ok report₁) ∧
        r₁.register "phone" files₁ = (r₂, files₂, .ok report₂) ∧
        r₂ = r₁ ∧ r₂.store.loadContents files₂ = r₁.store.loadContents files₁ ∧
        r₁.store.SameFiles files₁ files₂ ∧
        report₁ = ⟨"phone", 1, 1,
          [.replacesBuiltIn "desk" "ring", .foreignOwner "desk" "send" "mail"], none⟩ ∧
        report₂ = ⟨"phone", 1, 0, [.foreignOwner "desk" "send" "mail"], none⟩ := by
  obtain ⟨r₁, files₁, report₁, first, clear₁⟩ := keeps_bell.exists_register clear_bell "phone"
  have left := keeps_bell.leaves_register clear_bell.wellFormed readManifest_bell first
  obtain ⟨r₂, files₂, report₂, second, -⟩ := left.keeps.exists_register clear₁ "phone"
  obtain ⟨same, contents, sameFiles, repeated⟩ := register_again clear_bell.wellFormed first second
  have reported : report₁ = (bellContents.register "phone" phoneManifest).report := by
    rcases register_done first with ⟨reason, skipped, -⟩ | ⟨m, c, manifest, loaded, report, -⟩
    · rw [readManifest_bell] at skipped
      cases skipped
    · cases readManifest_bell.symm.trans manifest
      cases keeps_bell.loaded.symm.trans loaded
      exact report
  refine ⟨clear_bell.wellFormed, r₁, files₁, report₁, r₂, files₂, report₂, first, second, same,
    contents, sameFiles, ?_, ?_⟩
  · rw [reported]
    decide
  · rw [repeated, reported]
    decide

end Registry

end CapabilityPipeline
