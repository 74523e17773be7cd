import CapabilityPipeline.Proofs.Registry.Backing
import CapabilityPipeline.Proofs.Registry.Repetition
import CapabilityPipeline.Proofs.Registry.Totals

/-!
# Reports account for everything

A registration goes through the actions that its manifest declares. It registers an action or skips
it, and what it warns of depends only on what the registry held before: a skipped action is warned
of once, and an action that is registered is warned of only if it takes the place of a built-in one.
An unregistration reports what it takes out.

Results:

* `Manifest.declared`: the actions that a manifest declares, each once.
* `Contents.warning?`: what a registration warns of an action.
* `Merge.Tells`: by what a report grows on the way.
* `Contents.Accounted`: a report accounts for every action and guide.
* `Registry.requests_accounted`: reports account for what the files of a registry hold before and
  after.
-/

namespace CapabilityPipeline

open Text (Symbol)

/-! ## Warnings -/

/-- The node and the action that a warning names. -/
def Warning.subject : Warning → String × String
  | unknownNode node action => (node, action)
  | foreignOwner node action _ => (node, action)
  | replacesBuiltIn node action => (node, action)

/-- The warnings of a report that name an action. -/
def RegisterReport.warningsOf (r : RegisterReport) (node name : String) : List Warning :=
  r.warnings.filter fun w => w.subject = (node, name)

/-- Where different keys yield at most one item each, the items of one key are what it yields. -/
theorem filter_filterMap_eq {α β : Type} [DecidableEq α] (yields : α → Option β) {key : β → α}
    (keyed : ∀ a b, yields a = some b → key b = a) {l : List α} (distinct : l.Nodup) {a : α}
    (mem : a ∈ l) : (l.filterMap yields).filter (fun b => key b = a) = (yields a).toList := by
  induction l with
  | nil => cases mem
  | cons first rest ih =>
    obtain ⟨once, distinct⟩ := List.nodup_cons.mp distinct
    rw [List.filterMap_eq_flatMap_toList, List.flatMap_cons, List.filter_append,
      ← List.filterMap_eq_flatMap_toList]
    rcases List.mem_cons.mp mem with rfl | later
    · have own : (yields a).toList.filter (fun b => key b = a) = (yields a).toList :=
        List.filter_eq_self.mpr fun b yielded =>
          decide_eq_true (keyed a b (Option.mem_toList.mp yielded))
      have others : (rest.filterMap yields).filter (fun b => key b = a) = [] :=
        List.filter_eq_nil_iff.mpr fun b yielded => by
          obtain ⟨other, mem, yielded⟩ := List.mem_filterMap.mp yielded
          intro same
          exact once (((keyed other b yielded).symm.trans (of_decide_eq_true same)) ▸ mem)
      rw [own, others, List.append_nil]
    · have none : (yields first).toList.filter (fun b => key b = a) = [] :=
        List.filter_eq_nil_iff.mpr fun b yielded same => by
          have key := keyed first b (Option.mem_toList.mp yielded)
          exact once ((key.symm.trans (of_decide_eq_true same)) ▸ later)
      rw [none, List.nil_append]
      exact ih distinct later

/-! ## Declared actions -/

namespace Manifest

/-- The actions that a manifest declares, each with its node, in order. -/
def declared (m : Manifest) : List (String × String) :=
  m.contributions.flatMap fun e => e.2.actions.keys.map fun name => (e.1, name)

variable {m : Manifest} {node name : String}

theorem mem_declared : (node, name) ∈ m.declared ↔ ∃ entry, m.entry? node name = some entry := by
  unfold declared
  rw [List.mem_flatMap]
  constructor
  · rintro ⟨⟨id, contribution⟩, mem, among⟩
    obtain ⟨act, key, same⟩ := List.mem_map.mp among
    cases same
    obtain ⟨⟨act, entry⟩, listed, rfl⟩ := List.mem_map.mp key
    exact ⟨entry, (Contents.entry?_of_mem mem act).trans (NameMap.mem_entries.mp listed)⟩
  · rintro ⟨entry, found⟩
    obtain ⟨contribution, there, listed⟩ := Option.bind_eq_some_iff.mp found
    refine ⟨(node, contribution), NameMap.mem_of_lookup_eq_some there, ?_⟩
    have key : name ∈ contribution.actions.keys :=
      List.mem_map.mpr ⟨(name, entry), NameMap.mem_entries.mpr listed, rfl⟩
    exact List.mem_map.mpr ⟨name, key, rfl⟩

/-- No action is declared twice. -/
theorem declared_nodup (m : Manifest) : m.declared.Nodup := by
  refine List.nodup_flatMap.mpr ⟨fun e _ => ?_, ?_⟩
  · exact e.2.actions.keys_nodup.map fun _ _ same => (Prod.mk.inj same).2
  · refine (List.pairwise_map.mp (List.nodup_iff_pairwise_ne.mp m.contributions_nodup)).imp ?_
    intro e e' different
    refine List.disjoint_left.mpr fun a mem mem' => different ?_
    obtain ⟨_, -, rfl⟩ := List.mem_map.mp mem
    obtain ⟨_, -, same⟩ := List.mem_map.mp mem'
    exact (Prod.mk.inj same).1.symm

end Manifest

/-! ## What is told of an action -/

/-- A package has as many actions as entries. -/
theorem Provenance.length_ownedBy (p : Provenance) (packageId : String) :
    (p.ownedBy packageId).length = p.entries.countP fun e => e.2.2 = packageId :=
  (List.length_map _).trans List.countP_eq_length_filter.symm

namespace Contents

variable {c c' : Contents} {packageId node name : String}

/-- What a registration warns of an action that the manifest declares, if anything. -/
def warning? (c : Contents) (packageId node name : String) : Option Warning :=
  if c.nodes.contains node then
    match c.provenance.owner? node name with
    | some owner => if owner = packageId then none else some (.foreignOwner node name owner)
    | none => if (c.action? node name).isSome then some (.replacesBuiltIn node name) else none
  else some (.unknownNode node name)

/-- A registration accepts an action unless it warns that it skips it. -/
def accepts (c : Contents) (packageId node name : String) : Bool :=
  (c.warning? packageId node name).all Warning.replaces

theorem subject_of_warning? {w : Warning} (h : c.warning? packageId node name = some w) :
    w.subject = (node, name) := by
  unfold warning? at h
  split at h
  · split at h
    · split at h
      · cases h
      · exact Option.some.inj h ▸ rfl
    · split at h
      · exact Option.some.inj h ▸ rfl
      · cases h
  · exact Option.some.inj h ▸ rfl

/-- An action is accepted on a node that exists if no other package owns it. -/
theorem accepts_eq (c : Contents) (packageId node name : String) :
    c.accepts packageId node name =
      (c.nodes.contains node && c.isOpen packageId node name) := by
  unfold accepts warning? isOpen
  cases c.nodes.contains node with
  | false => rfl
  | true =>
    cases c.provenance.owner? node name with
    | none => cases (c.action? node name).isSome <;> rfl
    | some owner => by_cases own : owner = packageId <;> simp [own, Warning.replaces]

theorem warning?_congr (there : c'.nodes.contains node = c.nodes.contains node)
    (view : c'.view node name = c.view node name) :
    c'.warning? packageId node name = c.warning? packageId node name := by
  obtain ⟨action, owner⟩ := Prod.mk.inj view
  unfold warning?
  rw [there, action, owner]

theorem accepts_congr (same : c'.warning? packageId node name = c.warning? packageId node name) :
    c'.accepts packageId node name = c.accepts packageId node name :=
  congrArg (Option.all Warning.replaces) same

end Contents

/-! ## How reports grow -/

namespace Merge

open Contents

variable {m m' m'' : Merge} {packageId node : String} {told told' : List Warning}
  {count count' : Nat}

/-- A merge goes on to another that warns of so much more and has registered so many actions
more. -/
structure Tells (m m' : Merge) (told : List Warning) (count : Nat) : Prop where
  warnings : m'.report.warnings = m.report.warnings ++ told
  registered : m'.report.registered = m.report.registered + count
  skipped : m'.report.skipped = m.report.skipped
  packageId : m'.report.packageId = m.report.packageId

theorem Tells.refl (m : Merge) : m.Tells m [] 0 :=
  ⟨(List.append_nil _).symm, rfl, rfl, rfl⟩

theorem Tells.trans (h : m.Tells m' told count) (h' : m'.Tells m'' told' count') :
    m.Tells m'' (told ++ told') (count + count') where
  warnings := by rw [h'.warnings, h.warnings, List.append_assoc]
  registered := by rw [h'.registered, h.registered, Nat.add_assoc]
  skipped := h'.skipped.trans h.skipped
  packageId := h'.packageId.trans h.packageId

/-- An action is told of as the contents demand, and registered if they accept it. -/
theorem tells_addAction (present : m.contents.nodes.contains node = true)
    (packageId name : String) (entry : ManifestAction) :
    m.Tells (m.addAction packageId node name entry)
      (m.contents.warning? packageId node name).toList
      (if m.contents.accepts packageId node name then 1 else 0) := by
  have defined : ((m.contents.nodes.get? node).any fun n => n.actions.contains name) =
      (m.contents.action? node name).isSome := by
    unfold action?
    cases m.contents.nodes.get? node <;> rfl
  have rest : (m.addAction packageId node name entry).report.skipped = m.report.skipped ∧
      (m.addAction packageId node name entry).report.packageId = m.report.packageId := by
    unfold addAction
    split
    · split <;> exact ⟨rfl, rfl⟩
    · dsimp only
      split <;> exact ⟨rfl, rfl⟩
  refine ⟨?_, ?_, rest.1, rest.2⟩
  · unfold addAction warning?
    rw [defined, present]
    cases m.contents.provenance.owner? node name with
    | none => cases (m.contents.action? node name).isSome <;> simp [install, warn]
    | some owner => by_cases own : owner = packageId <;> simp [own, install, warn]
  · rw [registered_addAction, accepts_eq, present, Bool.true_and]

/-- Actions of a node, of different names, are told of in their order. -/
theorem tells_foldl_addAction (present : m.contents.nodes.contains node = true)
    (packageId : String) (entries : List (String × ManifestAction))
    (distinct : (entries.map Prod.fst).Nodup) :
    m.Tells (entries.foldl (fun m e => m.addAction packageId node e.1 e.2) m)
      ((entries.map Prod.fst).filterMap (m.contents.warning? packageId node))
      ((entries.map Prod.fst).countP (m.contents.accepts packageId node)) := by
  induction entries generalizing m with
  | nil => exact .refl m
  | cons e rest ih =>
    obtain ⟨once, distinct⟩ := List.nodup_cons.mp distinct
    have still (other : String) := contains_addAction m packageId node e.1 other e.2
    have first := tells_addAction present packageId e.1 e.2
    have later := ih ((still node).trans present) distinct
    -- the names are different, so that what is told of the later ones is what it was
    have same : ∀ name ∈ rest.map Prod.fst,
        (m.addAction packageId node e.1 e.2).contents.warning? packageId node name =
          m.contents.warning? packageId node name := by
      intro name mem
      refine warning?_congr (still node) ?_
      have other : name ≠ e.1 := fun named => once (named ▸ mem)
      rw [view_addAction present, if_neg fun h => other h.2.1]
    rw [List.filterMap_congr same, List.countP_congr fun name mem => by
      rw [accepts_congr (same name mem)]] at later
    have both := first.trans later
    rw [Nat.add_comm] at both
    rw [List.map_cons, List.countP_cons, List.filterMap_eq_flatMap_toList, List.flatMap_cons,
      ← List.filterMap_eq_flatMap_toList]
    exact both

theorem tells_addGuide (m : Merge) (packageId node guide : String) :
    m.Tells (m.addGuide packageId node guide) [] 0 := by
  unfold addGuide
  dsimp only
  split
  · split <;> exact ⟨(List.append_nil _).symm, rfl, rfl, rfl⟩
  · exact ⟨(List.append_nil _).symm, rfl, rfl, rfl⟩

theorem tells_foldl_addGuide (m : Merge) (packageId node : String) (guides : List String) :
    m.Tells (guides.foldl (fun m guide => m.addGuide packageId node guide) m) [] 0 :=
  List.foldlRecOn (motive := fun m' => m.Tells m' [] 0) _ _ (.refl m) fun m' h guide _ =>
    h.trans (m'.tells_addGuide packageId node guide)

/-- Actions of a node that does not exist are told of in their order. -/
theorem tells_foldl_warn (m : Merge) (node : String) (names : List String) :
    m.Tells (names.foldl (fun m name => m.warn (.unknownNode node name)) m)
      (names.map (.unknownNode node)) 0 := by
  induction names generalizing m with
  | nil => exact .refl m
  | cons name rest ih =>
    have first : m.Tells (m.warn (.unknownNode node name)) [.unknownNode node name] 0 :=
      ⟨rfl, rfl, rfl, rfl⟩
    exact first.trans (ih _)

/-- The actions of a contribution are told of in their order. -/
theorem tells_addContribution (m : Merge) (packageId node : String) (contribution : Contribution) :
    m.Tells (m.addContribution packageId node contribution)
      (contribution.actions.keys.filterMap (m.contents.warning? packageId node))
      (contribution.actions.keys.countP (m.contents.accepts packageId node)) := by
  unfold addContribution
  split
  · next present =>
    have actions := tells_foldl_addAction present packageId contribution.actions.entries
      contribution.actions.keys_nodup
    dsimp only
    split
    · have all := actions.trans (tells_foldl_addGuide _ packageId node contribution.guides)
      rw [List.append_nil] at all
      exact all
    · exact actions
  · next absent =>
    have unknown : m.contents.warning? packageId node = some ∘ .unknownNode node := by
      funext name
      rw [warning?, if_neg absent]
      rfl
    have refused : ∀ name ∈ contribution.actions.keys,
        ¬ m.contents.accepts packageId node name = true := by
      intro name _
      rw [accepts, unknown]
      exact Bool.false_ne_true
    rw [unknown, List.filterMap_eq_map, List.countP_eq_zero.mpr refused]
    exact tells_foldl_warn m node _

/-- The contributions to different nodes are told of in their order. -/
theorem tells_foldl_addContribution (m : Merge) (packageId : String)
    (contributions : List (String × Contribution))
    (distinct : (contributions.map Prod.fst).Nodup) :
    let names := contributions.flatMap fun e => e.2.actions.keys.map fun name => (e.1, name)
    m.Tells (contributions.foldl (fun m e => m.addContribution packageId e.1 e.2) m)
      (names.filterMap fun e => m.contents.warning? packageId e.1 e.2)
      (names.countP fun e => m.contents.accepts packageId e.1 e.2) := by
  induction contributions generalizing m with
  | nil => exact .refl m
  | cons e rest ih =>
    obtain ⟨once, distinct⟩ := List.nodup_cons.mp distinct
    have first := m.tells_addContribution packageId e.1 e.2
    have later := ih (m.addContribution packageId e.1 e.2) distinct
    -- and so are the nodes
    have same : ∀ a ∈ rest.flatMap fun e => e.2.actions.keys.map fun name => (e.1, name),
        (m.addContribution packageId e.1 e.2).contents.warning? packageId a.1 a.2 =
          m.contents.warning? packageId a.1 a.2 := by
      intro a mem
      obtain ⟨e', later, among⟩ := List.mem_flatMap.mp mem
      obtain ⟨name, -, rfl⟩ := List.mem_map.mp among
      have different : e'.1 ≠ e.1 := fun same => once (same ▸ List.mem_map_of_mem later)
      refine warning?_congr (contains_addContribution m packageId e.1 e'.1 e.2) ?_
      rw [view_addContribution, if_neg fun h => different h.1]
    dsimp only at later
    rw [List.filterMap_congr same, List.countP_congr fun a mem => by
      rw [accepts_congr (same a mem)]] at later
    dsimp only
    rw [List.flatMap_cons, List.filterMap_append, List.countP_append, List.filterMap_map,
      List.countP_map]
    exact first.trans later

end Merge

namespace Contents

variable {c : Contents} {packageId : String} {m : Manifest} {node name : String}

/-- **What a registration tells** of the declared actions is told of each on its own, from what was
there before. -/
theorem tells_register (c : Contents) (packageId : String) (m : Manifest) :
    Merge.Tells ⟨c, .start packageId⟩ (c.register packageId m)
      (m.declared.filterMap fun e => c.warning? packageId e.1 e.2)
      (m.declared.countP fun e => c.accepts packageId e.1 e.2) :=
  Merge.tells_foldl_addContribution _ packageId m.contributions m.contributions_nodup

theorem warnings_register (c : Contents) (packageId : String) (m : Manifest) :
    (c.register packageId m).report.warnings =
      m.declared.filterMap fun e => c.warning? packageId e.1 e.2 :=
  (c.tells_register packageId m).warnings

theorem registered_register (c : Contents) (packageId : String) (m : Manifest) :
    (c.register packageId m).report.registered =
      m.declared.countP fun e => c.accepts packageId e.1 e.2 :=
  (c.tells_register packageId m).registered.trans (Nat.zero_add _)

/-- A report warns of a declared action what the contents demand. -/
theorem warningsOf_register (declared : (node, name) ∈ m.declared) :
    (c.register packageId m).report.warningsOf node name =
      (c.warning? packageId node name).toList := by
  unfold RegisterReport.warningsOf
  rw [warnings_register]
  exact filter_filterMap_eq (fun e => c.warning? packageId e.1 e.2)
    (fun _ _ => subject_of_warning?) m.declared_nodup declared

theorem subject_mem_declared {w : Warning} (mem : w ∈ (c.register packageId m).report.warnings) :
    w.subject ∈ m.declared := by
  rw [warnings_register] at mem
  obtain ⟨e, declared, warned⟩ := List.mem_filterMap.mp mem
  rw [subject_of_warning? warned]
  exact declared

/-! ## Registered and skipped -/

/-- A report says that an action is registered: it is the package's afterwards, as the manifest
declares it, and no warning says that it is skipped. -/
structure Registers (c' : Contents) (packageId node name : String) (entry : ManifestAction)
    (report : RegisterReport) : Prop where
  view : c'.view node name = entry.viewed packageId name
  warned : ∀ w ∈ report.warningsOf node name, w.replaces = true

/-- A report says that an action is skipped: exactly one warning names it, and says so, and the
action was not the package's and still is not. -/
structure Skips (c c' : Contents) (packageId node name : String) (report : RegisterReport) :
    Prop where
  before : c.provenance.owner? node name ≠ some packageId
  after : c'.provenance.owner? node name ≠ some packageId
  warned : ∃ w, report.warningsOf node name = [w] ∧ w.replaces = false

/-- A report accounts for every declared action and for the guides. What is registered and what is
skipped are told apart by the owner afterwards. -/
structure Accounted (c c' : Contents) (packageId : String) (m : Manifest)
    (report : RegisterReport) : Prop where
  divided : ∀ node name entry, m.entry? node name = some entry →
    c'.Registers packageId node name entry report ∨ c.Skips c' packageId node name report
  registered : report.registered =
    m.declared.countP fun e => c'.provenance.owner? e.1 e.2 = some packageId
  takeovers : ∀ node name, report.warnings.count (.replacesBuiltIn node name) =
    if (node, name) ∈ m.declared ∧ c.provenance.owner? node name = none ∧
      (c.action? node name).isSome then 1 else 0
  named : ∀ w ∈ report.warnings, w.subject ∈ m.declared
  guidesAdded : c'.guideTotal = c.guideTotal + report.guidesAdded
  grown : ∀ node, c.guideList node <+: c'.guideList node
  notSkipped : report.skipped = none
  ofPackage : report.packageId = packageId

/-- Only actions that are defined have owners. -/
def OwnersDefined (c : Contents) : Prop :=
  ∀ node name, c.provenance.owner? node name ≠ none → (c.action? node name).isSome = true

theorem contains_of_isSome_action? (defined : (c.action? node name).isSome = true) :
    c.nodes.contains node = true := by
  obtain ⟨action, found⟩ := Option.isSome_iff_exists.mp defined
  obtain ⟨n, there, -⟩ := Option.bind_eq_some_iff.mp found
  exact NameMap.contains_iff.mpr ⟨n, there⟩

theorem Backed.ownersDefined (backed : c.Backed) : c.OwnersDefined := fun node name owned => by
  obtain ⟨packageId, owner⟩ := Option.ne_none_iff_exists'.mp owned
  exact Option.isSome_iff_exists.mpr (backed.defined packageId node name owner)

/-- A package accepts what it owns. -/
theorem OwnersDefined.accepts (defined : c.OwnersDefined)
    (owned : c.provenance.owner? node name = some packageId) :
    c.accepts packageId node name = true := by
  have there := contains_of_isSome_action? (defined node name (by rw [owned]; exact nofun))
  rw [accepts_eq, there, Bool.true_and, isOpen_iff]
  exact foreignOwner?_of_owned owned

/-- What is accepted is registered. -/
theorem registers_of_accepts {entry : ManifestAction} (declared : m.entry? node name = some entry)
    (accepted : c.accepts packageId node name = true) :
    (c.register packageId m).contents.Registers packageId node name entry
      (c.register packageId m).report where
  view := by
    have installed : c.installed? packageId m node name = some entry := by
      rw [installed?, ← accepts_eq, if_pos accepted, declared]
    rw [view_register, installed]
  warned w mem := by
    rw [warningsOf_register (Manifest.mem_declared.mpr ⟨entry, declared⟩), Option.mem_toList] at mem
    rw [accepts, Option.all_eq_true] at accepted
    exact accepted w mem

/-- What is not accepted is skipped. -/
theorem skips_of_not_accepts (defined : c.OwnersDefined) {entry : ManifestAction}
    (declared : m.entry? node name = some entry)
    (refused : ¬ c.accepts packageId node name = true) :
    c.Skips (c.register packageId m).contents packageId node name
      (c.register packageId m).report where
  before owned := refused (defined.accepts owned)
  after owned := by
    have installed : c.installed? packageId m node name = none := by
      rw [installed?, ← accepts_eq, if_neg refused]
    have view := c.view_register packageId m node name
    rw [installed] at view
    exact refused (defined.accepts ((congrArg Prod.snd view).symm.trans owned))
  warned := by
    rw [warningsOf_register (Manifest.mem_declared.mpr ⟨entry, declared⟩)]
    unfold accepts at refused
    cases told : c.warning? packageId node name with
    | none => rw [told] at refused; exact absurd rfl refused
    | some w => rw [told] at refused; exact ⟨w, rfl, Bool.not_eq_true _ ▸ refused⟩

/-- Of the declared actions the accepted ones are the package's afterwards. -/
theorem accepts_iff_owner? (defined : c.OwnersDefined) (declared : (node, name) ∈ m.declared) :
    c.accepts packageId node name = true ↔
      (c.register packageId m).contents.provenance.owner? node name = some packageId := by
  obtain ⟨entry, found⟩ := Manifest.mem_declared.mp declared
  constructor
  · exact fun accepted => congrArg Prod.snd (registers_of_accepts found accepted).view
  · intro owned
    by_contra refused
    exact (skips_of_not_accepts defined found refused).after owned

theorem warning?_eq_replacesBuiltIn (c : Contents) (packageId node name : String) :
    c.warning? packageId node name = some (.replacesBuiltIn node name) ↔
      c.provenance.owner? node name = none ∧ (c.action? node name).isSome = true := by
  unfold warning?
  constructor
  · intro h
    split at h
    · split at h
      · split at h <;> cases h
      · next unowned =>
        split at h
        · next defined => exact ⟨unowned, defined⟩
        · cases h
    · cases h
  · rintro ⟨unowned, defined⟩
    rw [if_pos (contains_of_isSome_action? defined), unowned]
    exact if_pos defined

/-- **A registration accounts for every action and guide.** -/
theorem accounted_register (defined : c.OwnersDefined) (packageId : String) (m : Manifest) :
    c.Accounted (c.register packageId m).contents packageId m
      (c.register packageId m).report where
  divided node name entry declared := by
    by_cases accepted : c.accepts packageId node name = true
    · exact .inl (registers_of_accepts declared accepted)
    · exact .inr (skips_of_not_accepts defined declared accepted)
  registered := by
    rw [registered_register]
    refine List.countP_congr fun e declared => ?_
    rw [accepts_iff_owner? defined declared, decide_eq_true_iff]
  takeovers node name := by
    have among : (c.register packageId m).report.warnings.count (.replacesBuiltIn node name) =
        ((c.register packageId m).report.warningsOf node name).count
          (.replacesBuiltIn node name) :=
      (List.count_filter (p := fun w : Warning => w.subject = (node, name))
        (decide_eq_true rfl)).symm
    rw [among]
    by_cases declared : (node, name) ∈ m.declared
    · rw [warningsOf_register declared]
      simp only [declared, true_and, ← c.warning?_eq_replacesBuiltIn packageId]
      split
      · next told => rw [told]; exact List.count_singleton_self
      · next other =>
        exact List.count_eq_zero.mpr fun mem => other (Option.mem_toList.mp mem)
    · rw [if_neg fun h => declared h.1]
      refine List.count_eq_zero.mpr fun mem => declared ?_
      exact subject_mem_declared (List.mem_of_mem_filter mem)
  named _ := subject_mem_declared
  guidesAdded := c.guideTotal_register packageId m
  grown := c.guideList_prefix_register packageId m
  notSkipped := (c.tells_register packageId m).skipped
  ofPackage := (c.tells_register packageId m).packageId

/-! ## Taken out -/

/-- A report tells how many entries a package had, and by how much the lists of guides shrink. -/
structure AccountedGone (c c' : Contents) (packageId : String) (report : UnregisterReport) :
    Prop where
  removed : report.removed = c.provenance.entries.countP fun e => e.2.2 = packageId
  guidesRemoved : c'.guideTotal + report.guidesRemoved = c.guideTotal
  shrunk : ∀ node, (c'.guideList node).Sublist (c.guideList node)

/-- **An unregistration accounts for what it takes out.** -/
theorem accountedGone_unregister (c : Contents) (packageId : String) :
    c.AccountedGone (c.unregister packageId).1 packageId (c.unregister packageId).2 where
  removed := c.provenance.length_ownedBy packageId
  guidesRemoved := c.guideTotal_unregister packageId
  shrunk := c.guideList_sublist_unregister packageId

end Contents

/-! ## Registries with files -/

namespace Registry

variable {r r' : Registry} {files files' : FileTree} {c : Contents} {packageId : String}
  {m : Manifest}

/-- After a registration the files hold what the manifest is merged into, and the report is that of
the merge. -/
theorem loadContents_register (wellFormed : files.WellFormed)
    (loaded : r.store.loadContents files = .ok c)
    (manifest : r.readManifest files packageId = .ok m) {report : RegisterReport}
    (done : r.register packageId files = (r', files', .ok report)) :
    r.store.loadContents files' = .ok (c.register packageId m).contents ∧
      report = (c.register packageId m).report := by
  rcases register_done done with ⟨reason, skipped, -⟩ |
    ⟨m', c', manifest', loaded', report', ⟨nothing, rfl, rfl⟩ | ⟨registered, committed⟩⟩
  · rw [manifest] at skipped
    cases skipped
  · cases manifest.symm.trans manifest'
    cases loaded.symm.trans loaded'
    rcases c.accounts_register packageId m with ⟨-, same⟩ | ⟨more, -⟩
    · exact ⟨same.symm ▸ loaded, report'⟩
    · exact absurd (report' ▸ nothing) more
  · cases manifest.symm.trans manifest'
    cases loaded.symm.trans loaded'
    have left := leaves_commit wellFormed loaded
      (.inl (Contents.nodes_ne_empty_of_registered (report' ▸ registered)))
      (.register packageId m) committed
    obtain ⟨-, rfl⟩ := commit_eq committed
    exact ⟨left.keeps.loaded, report'⟩

/-- After an unregistration the files hold what it leaves, of which the report tells. -/
theorem exists_accountedGone (wellFormed : files.WellFormed)
    (loaded : r.store.loadContents files = .ok c) (isId : isPackageId packageId = true)
    {report : UnregisterReport}
    (done : r.unregister packageId files = (r', files', .ok report)) :
    ∃ c', r.store.loadContents files' = .ok c' ∧ c.AccountedGone c' packageId report := by
  rcases unregister_done done with ⟨other, -⟩ |
    ⟨c', -, loaded', ⟨nothing, rfl, rfl, rfl⟩ | ⟨owned, rfl, committed⟩⟩
  · rw [isId] at other
    cases other
  · cases loaded.symm.trans loaded'
    refine ⟨c, loaded, ?_, rfl, fun _ => List.Sublist.refl _⟩
    rw [← Provenance.length_ownedBy, List.isEmpty_iff.mp nothing]
    rfl
  · cases loaded.symm.trans loaded'
    have left := leaves_commit wellFormed loaded
      (.inr (Contents.provenance_ne_empty_of_owned owned)) (.unregister packageId) committed
    obtain ⟨-, rfl⟩ := commit_eq committed
    exact ⟨_, left.keeps.loaded, c.accountedGone_unregister packageId⟩

/-- **Reports account for every action and guide.** In the files of a registry only actions that are
defined have owners. A package that has a manifest is registered: the report divides the actions
that the manifest declares into those that are registered and those that are skipped, and it tells
which built-in actions are replaced and by how much the lists of guides grow. A package is
unregistered, whose id is a name as that of every package with a manifest is: the report tells how
many entries it had and by how much the lists of guides shrink. -/
theorem requests_accounted (wellFormed : files.WellFormed)
    (loaded : r.store.loadContents files = .ok c) (defined : c.OwnersDefined)
    (packageId : String) :
    (∀ m r' files' report, r.readManifest files packageId = .ok m →
      r.register packageId files = (r', files', .ok report) →
      ∃ c', r.store.loadContents files' = .ok c' ∧ c.Accounted c' packageId m report) ∧
    ∀ r' files' report, isPackageId packageId = true →
      r.unregister packageId files = (r', files', .ok report) →
      ∃ c', r.store.loadContents files' = .ok c' ∧ c.AccountedGone c' packageId report := by
  refine ⟨fun m r' files' report manifest done => ?_, fun r' files' report isId done =>
    exists_accountedGone wellFormed loaded isId done⟩
  obtain ⟨written, rfl⟩ := loadContents_register wellFormed loaded manifest done
  exact ⟨_, written, Contents.accounted_register defined packageId m⟩

/-- The phone takes over the bell and may not send letters, and it adds one guide and shares one.
When it is taken out again, one action and one guide go. -/
theorem requests_accounted_phone : bellFiles.WellFormed ∧
    bellRegistry.store.loadContents bellFiles = .ok bellContents ∧ bellContents.OwnersDefined ∧
    bellRegistry.readManifest bellFiles "phone" = .ok phoneManifest ∧
    ∃ r₁ files₁ report₁ c₁ r₂ files₂ report₂ c₂,
      bellRegistry.register "phone" bellFiles = (r₁, files₁, .ok report₁) ∧
        bellRegistry.store.loadContents files₁ = .ok c₁ ∧
        bellContents.Accounted c₁ "phone" phoneManifest report₁ ∧
        report₁ = ⟨"phone", 1, 1,
          [.replacesBuiltIn "desk" "ring", .foreignOwner "desk" "send" "mail"], none⟩ ∧
        r₁.unregister "phone" files₁ = (r₂, files₂, .ok report₂) ∧
        r₁.store.loadContents files₂ = .ok c₂ ∧ c₁.AccountedGone c₂ "phone" report₂ ∧
        report₂.removed = 1 := by
  have owners := backed_bell.ownersDefined
  have owners₁ := (backed_bell.register "phone" phoneManifest).ownersDefined
  obtain ⟨r₁, files₁, report₁, first, clear₁⟩ := keeps_bell.exists_register clear_bell "phone"
  have left := keeps_bell.leaves_register clear_bell.wellFormed readManifest_bell first
  obtain ⟨r₂, files₂, report₂, second, -⟩ := left.keeps.exists_unregister clear₁ "phone"
  obtain ⟨written, reported⟩ :=
    loadContents_register clear_bell.wellFormed keeps_bell.loaded readManifest_bell first
  obtain ⟨c₁, held₁, accounted⟩ := (requests_accounted clear_bell.wellFormed keeps_bell.loaded
    owners "phone").1 phoneManifest r₁ files₁ report₁ readManifest_bell first
  cases written.symm.trans held₁
  obtain ⟨c₂, held₂, gone⟩ := (requests_accounted left.wellFormed left.keeps.loaded owners₁
    "phone").2 r₂ files₂ report₂ (by decide) second
  refine ⟨clear_bell.wellFormed, keeps_bell.loaded, owners, readManifest_bell, r₁, files₁, report₁,
    _, r₂, files₂, report₂, c₂, first, written, accounted, ?_, second, held₂, gone, ?_⟩
  · rw [reported]
    decide
  · rw [gone.removed]
    decide

end Registry

end CapabilityPipeline
