import CapabilityPipeline.Proofs.Registry.Commutation

/-!
# Guides are backed by actions

A package that owns no action is not unregistered, for there should be nothing to take out. This is
right only because a package never holds a guide of a node without owning an action of the same
node. Together with what is in order about owners and holders anyway, this is kept by all that
packages do, and a package is gone for good when it has been unregistered.

Results:

* `Contents.Backed`: owned actions are defined, held guides are listed once, and who holds a guide
  of a node owns an action of it.
* `Contents.backed_apply`, `Contents.backed_history`: every change keeps it.
* `Registry.Run.backed`: a registry at work keeps it, and who is unregistered has no part left.
-/

namespace CapabilityPipeline

open Text (Symbol)

/-! ## Sound standing -/

namespace Standing

variable {s : Standing}

theorem Sound.join (sound : s.Sound) (packageId : String) : (s.join packageId).Sound := by
  by_cases unlisted : s.listed = 0
  · rw [join_unlisted s unlisted]
    exact fun _ => rfl
  · cases held : s.holders.isEmpty with
    | true =>
      rw [join_own s unlisted held]
      exact sound
    | false =>
      rw [join_listed s unlisted held]
      exact fun _ => sound held

theorem contains_join {packageId other : String}
    (held : (s.join packageId).holders.contains other = true) :
    other = packageId ∨ s.holders.contains other = true := by
  unfold join at held
  split at held
  · exact (NameSet.contains_add _ _ _).mp held
  · split at held
    · exact .inr held
    · exact (NameSet.contains_add _ _ _).mp held

theorem Sound.leave (sound : s.Sound) (packageId : String) : (s.leave packageId).Sound := by
  intro held
  have some : s.holders.isEmpty = false := by
    refine Bool.eq_false_iff.mpr fun none => Bool.eq_false_iff.mp held ?_
    refine NameMap.isEmpty_iff.mpr fun name => ?_
    rw [Standing.leave, NameMap.get?_erase, NameMap.isEmpty_iff.mp none name, ite_self]
  have others : s.heldAlone packageId = false := by
    rw [heldAlone, show NameMap.isEmpty (s.holders.erase packageId) = false from held,
      Bool.and_false]
  rw [Standing.leave, others]
  exact sound some

end Standing

namespace Contents

variable {c : Contents} {packageId : String}

/-! ## The invariant -/

/-- A registry in which ownership is in order: the tables have no empty parts, every guide that a
package holds is once on the list of its node, every owned action is defined, and a package that
holds a guide of a node owns an action of the node. -/
structure Backed (c : Contents) : Prop extends c.Orderly where
  defined : ∀ packageId node name, c.provenance.owner? node name = some packageId →
    ∃ action, c.action? node name = some action
  backing : ∀ packageId node guide, c.Holds packageId node guide →
    ∃ name, c.provenance.owner? node name = some packageId

/-- Nodes to which no package has contributed yet. -/
theorem backed_unowned (nodes : NameMap Node) : Backed ⟨nodes, .empty, .empty⟩ where
  owners _ _ none := by cases none
  holders := ⟨fun _ _ none => (by cases none), fun _ _ _ _ none => by cases none⟩
  once _ _ _ none := by cases none
  defined _ _ _ none := by cases none
  backing _ _ _ none := by cases none

/-- Guides are once on the lists of their nodes if they stand soundly. -/
theorem orderly_of_sound (owners : c.provenance.Filled) (holders : c.guides.Filled)
    (sound : ∀ node guide, (c.standing node guide).Sound) : c.Orderly where
  owners := owners
  holders := holders
  once packageId node guide held := by
    refine sound node guide (Bool.eq_false_iff.mpr fun none => ?_)
    have absent : (c.guides.holders node guide).get? packageId = .none :=
      NameMap.isEmpty_iff.mp none packageId
    unfold Holds NameMap.contains at held
    rw [absent] at held
    cases held

/-- A package that owns no action of a registry in order has no part in it. -/
theorem Backed.lacks (h : c.Backed)
    (owns : ∀ node name, c.provenance.owner? node name ≠ some packageId) : c.Lacks packageId where
  owns := owns
  holds node guide held := by
    obtain ⟨name, owned⟩ := h.backing packageId node guide held
    exact owns node name owned

/-! ## Registering -/

/-- Owned actions keep their owners when a package is registered. -/
theorem owner?_register_of_some {owner node name : String}
    (owned : c.provenance.owner? node name = some owner) (packageId : String) (m : Manifest) :
    (c.register packageId m).contents.provenance.owner? node name = some owner := by
  have view := congrArg Prod.snd (c.view_register packageId m node name)
  cases installed : c.installed? packageId m node name with
  | none =>
    rw [installed] at view
    exact view.trans owned
  | some entry =>
    rw [installed] at view
    unfold installed? at installed
    split at installed
    · next free =>
      have same : owner = packageId := by
        have own := (Bool.and_eq_true_iff.mp free).2
        unfold isOpen at own
        rw [owned] at own
        exact of_decide_eq_true own
      rw [same]
      exact view
    · cases installed

/-- A package that brings a guide owns an action of the node afterwards. -/
theorem exists_owned_of_brings {m : Manifest} {node guide : String}
    (brought : c.brings packageId m node guide = true) :
    ∃ name, (c.register packageId m).contents.provenance.owner? node name = some packageId := by
  unfold brings at brought
  cases found : m.contributions.lookup node with
  | none =>
    rw [found] at brought
    cases brought
  | some contribution =>
    rw [found, Option.any_some, Bool.and_eq_true, Bool.and_eq_true] at brought
    obtain ⟨⟨there, -⟩, acts⟩ := brought
    obtain ⟨⟨name, entry⟩, mem, free⟩ := List.any_eq_true.mp acts
    have installed : c.installed? packageId m node name = some entry := by
      unfold installed? Manifest.entry?
      rw [there, free, found]
      exact NameMap.mem_entries.mp mem
    have view := c.view_register packageId m node name
    rw [installed] at view
    exact ⟨name, congrArg Prod.snd view⟩

/-- Who holds a guide after a registration held it before, or is the package that brings it. -/
theorem holds_register (filled : c.guides.Filled) {m : Manifest} {other node guide : String}
    (held : (c.register packageId m).contents.Holds other node guide) :
    c.Holds other node guide ∨ other = packageId ∧ c.brings packageId m node guide = true := by
  have holders := congrArg Standing.holders (standing_register filled packageId m node guide)
  unfold Holds at held
  rw [show (c.register packageId m).contents.guides.holders node guide = _ from holders] at held
  split at held
  · next brings =>
    rcases Standing.contains_join held with same | before
    · exact .inr ⟨same, brings⟩
    · exact .inl before
  · exact .inl held

theorem Backed.register (h : c.Backed) (packageId : String) (m : Manifest) :
    (c.register packageId m).contents.Backed where
  toOrderly := by
    refine orderly_of_sound (filled_register h.owners packageId m)
      (filledGuides_register h.holders packageId m) fun node guide => ?_
    rw [standing_register h.holders]
    split
    · exact (h.sound node guide).join packageId
    · exact h.sound node guide
  defined owner node name owned := by
    have view := c.view_register packageId m node name
    cases installed : c.installed? packageId m node name with
    | none =>
      rw [installed] at view
      obtain ⟨action, found⟩ :=
        h.defined owner node name ((congrArg Prod.snd view).symm.trans owned)
      exact ⟨action, (congrArg Prod.fst view).trans found⟩
    | some entry =>
      rw [installed] at view
      exact ⟨_, congrArg Prod.fst view⟩
  backing other node guide held := by
    rcases holds_register h.holders held with before | ⟨rfl, brings⟩
    · obtain ⟨name, owned⟩ := h.backing other node guide before
      exact ⟨name, owner?_register_of_some owned packageId m⟩
    · exact exists_owned_of_brings brings

/-! ## Unregistering -/

theorem Backed.unregister (h : c.Backed) (packageId : String) :
    (c.unregister packageId).1.Backed where
  toOrderly := by
    refine orderly_of_sound (filled_unregister h.owners packageId)
      (GuideOwners.filled_drop _ packageId) fun node guide => ?_
    rw [standing_unregister]
    exact (h.sound node guide).leave packageId
  defined owner node name owned := by
    have view := c.view_unregister packageId node name
    split at view
    · cases owned.symm.trans (congrArg Prod.snd view)
    · obtain ⟨action, found⟩ :=
        h.defined owner node name ((congrArg Prod.snd view).symm.trans owned)
      exact ⟨action, (congrArg Prod.fst view).trans found⟩
  backing other node guide held := by
    obtain ⟨different, before⟩ := (c.holds_unregister packageId other node guide).mp held
    obtain ⟨name, owned⟩ := h.backing other node guide before
    have view := c.view_unregister packageId node name
    rw [if_neg fun same => different (Option.some.inj (owned.symm.trans same))] at view
    exact ⟨name, (congrArg Prod.snd view).trans owned⟩

/-- A package that is unregistered has no part left. -/
theorem lacks_unregister (c : Contents) (packageId : String) :
    (c.unregister packageId).1.Lacks packageId where
  owns node name owned := by
    have view := c.view_unregister packageId node name
    split at view
    · cases owned.symm.trans (congrArg Prod.snd view)
    · next other => exact other ((congrArg Prod.snd view).symm.trans owned)
  holds node guide held := ((c.holds_unregister packageId packageId node guide).mp held).1 rfl

/-! ## Changes and histories -/

/-- **Every change keeps ownership in order.** -/
theorem backed_apply (h : c.Backed) (change : Change) : (c.apply change).Backed := by
  cases change with
  | register packageId m => exact h.register packageId m
  | unregister packageId => exact h.unregister packageId

theorem backed_history (h : c.Backed) (changes : List Change) : (c.history changes).Backed :=
  List.foldlRecOn changes apply h fun _ before change _ => backed_apply before change

/-- Who owns an action after a history owned it before, or was registered on the way. -/
theorem owner?_history {changes : List Change} {node name : String}
    (owned : (c.history changes).provenance.owner? node name = some packageId) :
    c.provenance.owner? node name = some packageId ∨
      ∃ manifest, Change.register packageId manifest ∈ changes := by
  rcases view_history c changes node name with same | gone | ⟨p, m, entry, mem, -, view⟩
  · exact .inl ((congrArg Prod.snd same).symm.trans owned)
  · cases owned.symm.trans (congrArg Prod.snd gone)
  · have same : some packageId = some p := owned.symm.trans (congrArg Prod.snd view)
    cases same
    exact .inr ⟨m, mem⟩

end Contents

/-! ## Registries with files -/

namespace Registry

variable {r r' r'' : Registry} {files files' files'' : FileTree} {asked : List Change}
  {c : Contents} {packageId : String}

/-- Only packages are registered. -/
theorem Run.isPackageId_of_register (run : r.Run files asked r' files') {m : Manifest}
    (mem : Change.register packageId m ∈ asked) : isPackageId packageId = true := by
  induction run with
  | start => cases mem
  | register before other ih =>
    rcases List.mem_append.mp mem with mem | mem
    · exact ih mem
    · unfold registration at mem
      split at mem
      · next read =>
        cases List.mem_singleton.mp mem
        exact isPackageId_of_readManifest read
      · cases mem
  | unregister before other ih =>
    rcases List.mem_append.mp mem with mem | mem
    · exact ih mem
    · cases List.mem_singleton.mp mem
  | reload before ih => exact ih mem
  | elsewhere before _ _ ih => exact ih mem

/-- A request to unregister a package that does not fail leaves the package without any part: it is
taken out, or there is nothing to take out. What is no package stays where it is. -/
theorem unregister_cases (wellFormed : files.WellFormed)
    (loaded : r.store.loadContents files = .ok c)
    {report : UnregisterReport}
    (done : r.unregister packageId files = (r', files', .ok report)) :
    (isPackageId packageId = true ∧ r.store.loadContents files' = .ok (c.unregister packageId).1) ∨
      r' = r ∧ files' = files ∧
        (isPackageId packageId = true → ∀ node name,
          c.provenance.owner? node name ≠ some packageId) := by
  have store := (unregister_effect r wellFormed packageId).1.store_eq
  rw [done] at store
  rcases unregister_done done with ⟨other, -, rfl, rfl⟩ | ⟨c', isId, loaded', result⟩
  · rw [other]
    exact .inr ⟨rfl, rfl, fun isId => by cases isId⟩
  · cases loaded.symm.trans loaded'
    rcases result with ⟨nothing, -, rfl, rfl⟩ | ⟨owned, -, committed⟩
    · exact .inr ⟨rfl, rfl, fun _ => ownedBy_isEmpty_iff.mp nothing⟩
    · have left := leaves_commit wellFormed loaded
        (.inr (Contents.provenance_ne_empty_of_owned owned)) (.unregister packageId) committed
      exact .inl ⟨isId, store ▸ left.keeps.loaded⟩

/-- **Ownership stays in order.** A registry in order is put to work. Whatever its requests come to,
its files hold contents in order. A package that is unregistered without an error, if only because
it owns no action, then owns no action and holds no guide. What is no package cannot be
unregistered: the request leaves everything as it is, which matters only if the files named it as an
owner from the start. -/
theorem Run.backed (wellFormed : files.WellFormed) (loaded : r.store.loadContents files = .ok c)
    (inOrder : c.Backed) (run : r.Run files asked r' files') :
    ∃ c', r.store.loadContents files' = .ok c' ∧ c'.Backed ∧
      ∀ packageId r'' files'' report,
        r'.unregister packageId files' = (r'', files'', .ok report) →
        ∃ c'', r.store.loadContents files'' = .ok c'' ∧ c''.Backed ∧
          (isPackageId packageId = true ∨
            (∀ node name, c.provenance.owner? node name ≠ some packageId) → c''.Lacks packageId) ∧
          (isPackageId packageId = false → r'' = r' ∧ files'' = files') := by
  have follows := run.follows wellFormed
  obtain ⟨made, some, held⟩ := follows.readable c loaded
  have after := Contents.backed_history inOrder made
  refine ⟨c.history made, held, after, fun packageId r'' files'' report done => ?_⟩
  have wellFormed' : files'.WellFormed :=
    (run.invariant (motive := fun _ _ _ => True) wellFormed trivial (fun _ _ => trivial)
      fun _ => trivial).2
  rw [← follows.store_eq] at held ⊢
  rcases unregister_cases wellFormed' held done with ⟨isId, written⟩ | ⟨rfl, rfl, nothing⟩
  · refine ⟨_, written, after.unregister packageId, fun _ => Contents.lacks_unregister _ packageId,
      fun other => ?_⟩
    rw [isId] at other
    cases other
  · refine ⟨_, held, after, fun part => after.lacks fun node name owned => ?_, fun _ => ⟨rfl, rfl⟩⟩
    -- what is no package was not registered on the way, and owned nothing at the start
    rcases Contents.owner?_history owned with before | ⟨manifest, mem⟩
    · rcases part with isId | unowned
      · exact nothing isId node name owned
      · exact unowned node name before
    · exact nothing (run.isPackageId_of_register (some.subset mem)) node name owned

theorem backed_bell : bellContents.Backed where
  toOrderly := orderly_bell
  defined packageId node name owned := by
    have entries : bellContents.provenance.entries = [("desk", "send", "mail")] := by decide
    have mem := Provenance.mem_entries.mpr owned
    rw [entries] at mem
    cases List.mem_singleton.mp mem
    exact ⟨_, rfl⟩
  backing packageId node guide held := by
    obtain ⟨rfl, rfl, -⟩ := holds_bell.mp held
    exact ⟨"send", by decide⟩

/-- The phone comes to the desk with a guide of its own and one that it shares with the mail, and it
leaves nothing behind. -/
theorem Run.backed_phone : bellFiles.WellFormed ∧
    bellRegistry.store.loadContents bellFiles = .ok bellContents ∧ bellContents.Backed ∧
    ∃ r₁ files₁ report₁ r₂ files₂ report₂ c₁ c₂,
      bellRegistry.register "phone" bellFiles = (r₁, files₁, .ok report₁) ∧
        r₁.unregister "phone" files₁ = (r₂, files₂, .ok report₂) ∧
        bellRegistry.store.loadContents files₁ = .ok c₁ ∧ c₁.Backed ∧
        bellRegistry.store.loadContents files₂ = .ok c₂ ∧ c₂.Backed ∧ c₂.Lacks "phone" := by
  obtain ⟨r₁, files₁, report₁, install, clear₁⟩ := keeps_bell.exists_register clear_bell "phone"
  have first := keeps_bell.leaves_register clear_bell.wellFormed readManifest_bell install
  obtain ⟨r₂, files₂, report₂, uninstall, -⟩ := first.keeps.exists_unregister clear₁ "phone"
  have idle : bellRegistry.Run bellFiles [] bellRegistry bellFiles := .start
  have run := idle.register "phone"
  rw [install] at run
  obtain ⟨c₁, held₁, backed₁, leaves⟩ :=
    Run.backed clear_bell.wellFormed keeps_bell.loaded backed_bell run
  obtain ⟨c₂, held₂, backed₂, lacks, -⟩ := leaves "phone" r₂ files₂ report₂ uninstall
  exact ⟨clear_bell.wellFormed, keeps_bell.loaded, backed_bell, r₁, files₁, report₁, r₂, files₂,
    report₂, c₁, c₂, install, uninstall, held₁, backed₁, held₂, backed₂, lacks (.inl (by decide))⟩

/-! ### What is no package -/

/-- A desk from which letters are sent by what is no package, as its name has a slash. -/
def strayContents : Contents where
  nodes := NameMap.empty.insert "desk" ((Node.ofId "desk").withAction "send"
    ⟨.package "post/mail" "send", "Sends a letter", none⟩)
  provenance := Provenance.empty.record "desk" "send" "post/mail"
  guides := .empty

/-- The registry with that desk. -/
def strayRegistry : Registry :=
  ⟨⟨"registry"⟩, "packages", false, strayContents.snapshot⟩

/-- The files of the registry. -/
def strayFiles : FileTree where
  start := []
  entries := (["registry"], .directory) :: (Store.contentsOf strayContents).map fun d =>
    (["registry", d.1], .file (Symbol.ofText d.2.pretty))

theorem located_stray : strayRegistry.store.Located strayFiles ["registry"] where
  wellFormed := by decide
  reached := ⟨by decide, by decide⟩
  locate := by decide
  free := by decide

theorem loadContents_stray : strayRegistry.store.loadContents strayFiles = .ok strayContents :=
  located_stray.loadContents_eq (by decide) (Store.forall_mem_contentsOf.mpr ⟨rfl, rfl, rfl⟩)

theorem backed_stray : strayContents.Backed where
  owners := Provenance.Filled.record (fun _ _ none => by cases none) "desk" "send" "post/mail"
  holders := (Contents.backed_unowned .empty).holders
  once _ _ _ none := by cases none
  defined packageId node name owned := by
    have entries : strayContents.provenance.entries = [("desk", "send", "post/mail")] := by decide
    have mem := Provenance.mem_entries.mpr owned
    rw [entries] at mem
    cases List.mem_singleton.mp mem
    exact ⟨_, rfl⟩
  backing _ _ _ none := by cases none

/-- Not everything that is unregistered without an error is gone: what is no package stays. -/
theorem unregistered_remains_stray :
    ¬∀ (r : Registry) (files : FileTree) (c : Contents) (packageId : String) (r' : Registry)
      (files' : FileTree) (report : UnregisterReport), files.WellFormed →
      r.store.loadContents files = .ok c → c.Backed →
      r.unregister packageId files = (r', files', .ok report) →
      ∃ c', r.store.loadContents files' = .ok c' ∧ c'.Lacks packageId := by
  intro gone
  obtain ⟨c', loaded, lacks⟩ := gone strayRegistry strayFiles strayContents "post/mail"
    strayRegistry strayFiles ⟨"post/mail", 0, 0⟩ located_stray.wellFormed loadContents_stray
    backed_stray rfl
  cases loadContents_stray.symm.trans loaded
  exact lacks.owns "desk" "send" (by decide)

end Registry

end CapabilityPipeline
