import CapabilityPipeline.Proofs.Registry.Documents
import CapabilityPipeline.Proofs.Registry.Isolation

/-!
# Registries at work

A registry is asked to register and unregister packages and to read its files again, in any
order, while packages come and go. No other writer changes its files. Each request changes
nothing, or it changes what the files hold and publishes the same. The tree with the files is
well-formed, as all trees are that programs make.

Results:

* `Registry.Effect`, `Registry.register_effect`, `Registry.unregister_effect`: what comes of one
  request.
* `Registry.Run`: what happens to a registry and its files.
* `Registry.Run.openStore_eq`: the published snapshot is what the files hold, at all times.
* `Registry.Run.follows`: what the files hold is what they held, with changes made that were
  asked for.
-/

namespace CapabilityPipeline

open Text (Symbol)

/-! ## What is registered stands on nodes that are there -/

theorem Merge.addContribution_of_absent {m : Merge} {node : String}
    (absent : m.contents.nodes.contains node = false) (packageId : String)
    (contribution : Contribution) :
    (m.addContribution packageId node contribution).report.registered = m.report.registered := by
  have warned (names : List String) (m : Merge) :
      (names.foldl (fun m name => m.warn (.unknownNode node name)) m).report.registered =
        m.report.registered := by
    induction names generalizing m with
    | nil => rfl
    | cons name rest ih => exact ih _
  unfold addContribution
  rw [absent]
  exact warned _ _

theorem Contents.nodes_ne_empty_of_registered {c : Contents} {packageId : String}
    {manifest : Manifest} (h : (c.register packageId manifest).report.registered ≠ 0) :
    c.nodes ≠ .empty := by
  intro none
  have nothing (contributions : List (String × Contribution)) (m : Merge)
      (absent : ∀ node, m.contents.nodes.contains node = false) :
      (contributions.foldl (fun m e => m.addContribution packageId e.1 e.2) m).report.registered =
        m.report.registered := by
    induction contributions generalizing m with
    | nil => rfl
    | cons e rest ih =>
      refine (ih _ fun node => ?_).trans (Merge.addContribution_of_absent (absent e.1) _ _)
      rw [Merge.contains_addContribution, absent]
  refine h (nothing manifest.contributions ⟨c, .start packageId⟩ fun node => ?_)
  rw [none]
  rfl

theorem Contents.provenance_ne_empty_of_owned {c : Contents} {packageId : String}
    (h : (c.provenance.ownedBy packageId).isEmpty = false) : c.provenance ≠ .empty := by
  intro none
  rw [none] at h
  cases h

theorem Contents.nodesNamed_apply {c : Contents} (named : NodesNamed c.nodes) (change : Change) :
    NodesNamed (c.apply change).nodes := by
  intro id node found
  have same := (preserves_apply c change).identity id
  unfold identity? at same
  rw [found, Option.map_some] at same
  obtain ⟨before, there, identity⟩ := Option.map_eq_some_iff.mp same.symm
  exact (congrArg Prod.fst identity).symm.trans (named id before there)

/-- Readers see what the files hold. -/
theorem Store.loadSnapshot_of_loadContents {s : Store} {files : FileTree} {c : Contents}
    (held : s.loadContents files = .ok c) : s.loadSnapshot files = .ok c.snapshot := by
  obtain ⟨nodes, provenance, -⟩ := loadContents_eq_ok.mp held
  exact loadSnapshot_eq_ok.mpr ⟨nodes, provenance⟩

/-! ## One request -/

namespace Registry

variable {r r' r'' : Registry} {files files' files'' : FileTree} {asked more : List Change}

/-- What comes of a request that asks for changes, at most one: neither the registry nor what its
files hold is changed, or the change is made in what the files hold and published. -/
inductive Effect (r : Registry) (files : FileTree) (asked : List Change) (r' : Registry)
    (files' : FileTree) : Prop where
  | kept (unchanged : r' = r) (same : r.store.SameFiles files files')
  | made (change : Change) (only : asked = [change]) (c : Contents)
      (loaded : r.store.loadContents files = .ok c)
      (published : r' = { r with snapshot := (c.apply change).snapshot })
      (written : r.store.loadContents files' = .ok (c.apply change))

theorem Effect.refl (r : Registry) (files : FileTree) (asked : List Change) :
    Effect r files asked r files :=
  .kept rfl fun _ _ => rfl

/-- The registration that a request to register a package asks for: the manifest of the package,
if it can be read. -/
def registration (r : Registry) (files : FileTree) (packageId : String) : List Change :=
  match r.readManifest files packageId with
  | .ok manifest => [.register packageId manifest]
  | .error _ => []

/-- A commit writes and publishes a change, or fails and changes nothing. -/
theorem commit_effect (wellFormed : files.WellFormed) {c : Contents}
    (loaded : r.store.loadContents files = .ok c)
    (some : c.nodes ≠ .empty ∨ c.provenance ≠ .empty) (change : Change) :
    Effect r files [change] (r.commit (c.apply change) files).1
        (r.commit (c.apply change) files).2.1 ∧
      (r.commit (c.apply change) files).2.1.WellFormed := by
  obtain ⟨base, located⟩ := Store.located_of_loadContents wellFormed loaded some
  have named := c.nodesNamed_apply
    (Store.nodesNamed_of_loadNodes (Store.loadContents_eq_ok.mp loaded).1) change
  unfold commit
  rcases saved : r.store.save (c.apply change) files with ⟨files', - | e⟩
  · exact ⟨.made change rfl c loaded rfl (located.loadContents_save named saved),
      ((located.save _ saved).2 rfl).1.wellFormed⟩
  · have changes := (located.save _ saved).1 (Option.some_ne_none e)
    exact ⟨.kept rfl (located.sameFiles changes), changes.wellFormed⟩

theorem register_effect (r : Registry) (wellFormed : files.WellFormed) (packageId : String) :
    Effect r files (r.registration files packageId) (r.register packageId files).1
        (r.register packageId files).2.1 ∧
      (r.register packageId files).2.1.WellFormed := by
  have nothing (asked : List Change) : Effect r files asked r files ∧ files.WellFormed :=
    ⟨.refl r files asked, wellFormed⟩
  unfold registration register
  cases r.readManifest files packageId with
  | error reason => exact nothing _
  | ok manifest =>
    dsimp only
    cases loaded : r.store.loadContents files with
    | error e => exact nothing _
    | ok c =>
      dsimp only
      split
      · exact nothing _
      · next registered =>
        have committed := commit_effect wellFormed loaded
          (.inl (Contents.nodes_ne_empty_of_registered registered)) (.register packageId manifest)
        unfold Contents.apply at committed
        rcases result : r.commit (c.register packageId manifest).contents files with
          ⟨r', files', - | e⟩
        all_goals
          rw [result] at committed
          exact committed

theorem unregister_effect (r : Registry) (wellFormed : files.WellFormed) (packageId : String) :
    Effect r files [.unregister packageId] (r.unregister packageId files).1
        (r.unregister packageId files).2.1 ∧
      (r.unregister packageId files).2.1.WellFormed := by
  have nothing : Effect r files [.unregister packageId] r files ∧ files.WellFormed :=
    ⟨.refl r files _, wellFormed⟩
  unfold unregister
  dsimp only
  split
  · cases loaded : r.store.loadContents files with
    | error e => exact nothing
    | ok c =>
      dsimp only
      split
      · exact nothing
      · next owned =>
        have committed := commit_effect wellFormed loaded
          (.inr (Contents.provenance_ne_empty_of_owned (Bool.eq_false_iff.mpr owned)))
          (.unregister packageId)
        unfold Contents.apply at committed
        rcases result : r.commit (c.unregister packageId).1 files with ⟨r', files', - | e⟩
        all_goals
          rw [result] at committed
          exact committed
  · exact nothing

/-! ## Runs -/

/-- What happens to a registry and its files: requests, whatever comes of them, and changes
elsewhere, such as packages that come and go. The changes that were asked for are listed. -/
inductive Run (r : Registry) (files : FileTree) : List Change → Registry → FileTree → Prop where
  | start : Run r files [] r files
  | register {asked : List Change} {r' : Registry} {files' : FileTree}
      (before : Run r files asked r' files') (packageId : String) :
      Run r files (asked ++ r'.registration files' packageId)
        (r'.register packageId files').1 (r'.register packageId files').2.1
  | unregister {asked : List Change} {r' : Registry} {files' : FileTree}
      (before : Run r files asked r' files') (packageId : String) :
      Run r files (asked ++ [.unregister packageId])
        (r'.unregister packageId files').1 (r'.unregister packageId files').2.1
  /-- A registry whose files cannot be read again stays as it is. -/
  | reload {asked : List Change} {r' : Registry} {files' : FileTree}
      (before : Run r files asked r' files') :
      Run r files asked ((r'.reload files').toOption.getD r') files'
  | elsewhere {asked : List Change} {r' : Registry} {files' files'' : FileTree}
      (before : Run r files asked r' files') (same : r'.store.SameFiles files' files'')
      (wellFormed : files''.WellFormed) : Run r files asked r' files''

/-- What holds at the start and is kept by every effect and by reading the files again holds
after every run. -/
theorem Run.invariant {motive : List Change → Registry → FileTree → Prop}
    (wellFormed : files.WellFormed) (run : r.Run files asked r' files')
    (start : motive [] r files)
    (effect : ∀ {asked more r' r'' files' files''}, motive asked r' files' →
      Effect r' files' more r'' files'' → motive (asked ++ more) r'' files'')
    (reload : ∀ {asked r' files'}, motive asked r' files' →
      motive asked ((r'.reload files').toOption.getD r') files') :
    motive asked r' files' ∧ files'.WellFormed := by
  induction run with
  | start => exact ⟨start, wellFormed⟩
  | register _ packageId ih =>
    obtain ⟨done, wellFormed⟩ := register_effect _ ih.2 packageId
    exact ⟨effect ih.1 done, wellFormed⟩
  | unregister _ packageId ih =>
    obtain ⟨done, wellFormed⟩ := unregister_effect _ ih.2 packageId
    exact ⟨effect ih.1 done, wellFormed⟩
  | reload _ ih => exact ⟨reload ih.1, ih.2⟩
  | elsewhere _ same wellFormed ih =>
    have done := effect ih.1 (.kept rfl same : Effect _ _ [] _ _)
    rw [List.append_nil] at done
    exact ⟨done, wellFormed⟩

/-! ## The published snapshot -/

/-- A registry whose snapshot is what its files hold. -/
structure Mirrors (store : Store) (packagesDir : String) (r : Registry) (files : FileTree) :
    Prop where
  store_eq : r.store = store
  packagesDir_eq : r.packagesDir = packagesDir
  onDisk : r.inMemory = false
  loaded : store.loadSnapshot files = .ok r.snapshot

theorem mirrors_iff {store : Store} {packagesDir : String} :
    Mirrors store packagesDir r files ↔ openStore store packagesDir files = .ok r := by
  unfold openStore
  constructor
  · rintro ⟨rfl, rfl, onDisk, loaded⟩
    obtain ⟨store, packagesDir, inMemory, snapshot⟩ := r
    cases onDisk
    exact bind_eq_ok.mpr ⟨snapshot, loaded, rfl⟩
  · intro opened
    obtain ⟨snapshot, loaded, same⟩ := bind_eq_ok.mp opened
    cases same
    exact ⟨rfl, rfl, rfl, loaded⟩

/-- Reading the files again gives nothing new. -/
theorem Mirrors.reload_eq {store : Store} {packagesDir : String}
    (h : Mirrors store packagesDir r files) : r.reload files = .ok r := by
  obtain ⟨rfl, rfl, onDisk, loaded⟩ := h
  unfold Registry.reload
  rw [if_neg (by rw [onDisk]; exact Bool.false_ne_true), loaded]
  rfl

theorem Mirrors.nodesNamed {store : Store} {packagesDir : String}
    (h : Mirrors store packagesDir r files) : NodesNamed r.snapshot.nodes :=
  Store.nodesNamed_of_loadNodes (Store.loadSnapshot_eq_ok.mp h.loaded).1

theorem Mirrors.snapshot_eq {store : Store} {packagesDir : String}
    (h : Mirrors store packagesDir r files) {c : Contents}
    (held : store.loadContents files = .ok c) : r.snapshot = c.snapshot :=
  Except.ok.inj (h.loaded.symm.trans (Store.loadSnapshot_of_loadContents held))

theorem Run.mirrors {store : Store} {packagesDir : String} (wellFormed : files.WellFormed)
    (mirrors : Mirrors store packagesDir r files) (run : r.Run files asked r' files') :
    Mirrors store packagesDir r' files' := by
  refine (run.invariant (motive := fun _ r' files' => Mirrors store packagesDir r' files')
    wellFormed mirrors (fun before effect => ?_) fun before => ?_).1
  · obtain ⟨rfl, rfl, onDisk, loaded⟩ := before
    cases effect with
    | kept unchanged same =>
      subst unchanged
      exact ⟨rfl, rfl, onDisk, same.loadSnapshot.trans loaded⟩
    | made change _ c _ published written =>
      subst published
      exact ⟨rfl, rfl, onDisk, Store.loadSnapshot_of_loadContents written⟩
  · rw [before.reload_eq]
    exact before

/-- **The published snapshot mirrors the files.** A registry is opened and put to work. Whatever
its requests come to, it is at all times the registry that the files would be opened as, and its
nodes are listed under their own ids. -/
theorem Run.openStore_eq {store : Store} {packagesDir : String} (wellFormed : files.WellFormed)
    (opened : openStore store packagesDir files = .ok r) (run : r.Run files asked r' files') :
    openStore store packagesDir files' = .ok r' ∧ NodesNamed r'.snapshot.nodes := by
  have mirrors := run.mirrors wellFormed (mirrors_iff.mpr opened)
  exact ⟨mirrors_iff.mp mirrors, mirrors.nodesNamed⟩

/-- What a registry holds in which a package sends letters from a desk, and brings a guide. -/
def deskContents : Contents where
  nodes := NameMap.empty.insert "desk" { (Node.ofId "desk").withAction "send"
    ⟨.package "mail" "send", "Sends a letter", none⟩ with guides := ["Be brief"] }
  provenance := Provenance.empty.record "desk" "send" "mail"
  guides := GuideOwners.empty.record "desk" "Be brief" "mail"

/-- The registry with the desk. -/
def deskRegistry : Registry :=
  ⟨⟨"registry"⟩, "packages", false, deskContents.snapshot⟩

/-- The files of the registry with the desk, and no packages. -/
def deskFiles : FileTree where
  start := []
  entries := (["registry"], .directory) :: (Store.contentsOf deskContents).map fun d =>
    (["registry", d.1], .file (Symbol.ofText d.2.pretty))

theorem located_desk : deskRegistry.store.Located deskFiles ["registry"] where
  wellFormed := by decide
  reached := ⟨by decide, by decide⟩
  locate := by decide
  free := by decide

theorem loadContents_desk : deskRegistry.store.loadContents deskFiles = .ok deskContents :=
  located_desk.loadContents_eq (by decide) (Store.forall_mem_contentsOf.mpr ⟨rfl, rfl, rfl⟩)

theorem openStore_desk : openStore ⟨"registry"⟩ "packages" deskFiles = .ok deskRegistry :=
  mirrors_iff.mp ⟨rfl, rfl, rfl, Store.loadSnapshot_of_loadContents loadContents_desk⟩

theorem Run.openStore_eq_desk :
    deskFiles.WellFormed ∧
      openStore ⟨"registry"⟩ "packages" deskFiles = .ok deskRegistry ∧
      openStore ⟨"registry"⟩ "packages" (deskRegistry.unregister "mail" deskFiles).2.1 =
        .ok (deskRegistry.unregister "mail" deskFiles).1 ∧
      NodesNamed (deskRegistry.unregister "mail" deskFiles).1.snapshot.nodes :=
  ⟨located_desk.wellFormed, openStore_desk,
    Run.openStore_eq located_desk.wellFormed openStore_desk (Run.start.unregister "mail")⟩

/-! ## What the files hold -/

theorem Effect.store_eq (h : Effect r files asked r' files') : r'.store = r.store := by
  cases h with
  | kept unchanged _ => rw [unchanged]
  | made _ _ _ _ published _ => rw [published]

/-- What the files hold after a run is what they held with some of the changes made that were
asked for. Files from which nothing could be loaded are as they were. -/
structure Follows (r : Registry) (files : FileTree) (asked : List Change) (r' : Registry)
    (files' : FileTree) : Prop where
  store_eq : r'.store = r.store
  unreadable : ∀ e, r.store.loadContents files = .error e → r.store.SameFiles files files'
  readable : ∀ c, r.store.loadContents files = .ok c →
    ∃ made, made.Sublist asked ∧ r.store.loadContents files' = .ok (c.history made)

theorem Follows.effect (h : Follows r files asked r' files')
    (effect : Effect r' files' more r'' files'') : Follows r files (asked ++ more) r'' files'' := by
  refine ⟨effect.store_eq.trans h.store_eq, fun e failed => ?_, fun c loaded => ?_⟩
  · have before := h.unreadable e failed
    cases effect with
    | kept _ same => exact fun name mem => (h.store_eq ▸ same name mem).trans (before name mem)
    | made _ _ c loaded _ _ =>
      rw [h.store_eq, before.loadContents, failed] at loaded
      cases loaded
  · obtain ⟨made, some, held⟩ := h.readable c loaded
    cases effect with
    | kept _ same =>
      refine ⟨made, some.trans (List.sublist_append_left asked more), ?_⟩
      rw [h.store_eq] at same
      exact same.loadContents.trans held
    | made change only c' loaded' _ written =>
      rw [h.store_eq, held] at loaded'
      cases loaded'
      refine ⟨made ++ [change], some.append (only ▸ .refl _), ?_⟩
      rw [Contents.history_concat, ← h.store_eq]
      exact written

theorem Run.follows (wellFormed : files.WellFormed) (run : r.Run files asked r' files') :
    Follows r files asked r' files' := by
  refine (run.invariant (motive := Follows r files) wellFormed
    ⟨rfl, fun _ _ _ _ => rfl, fun c loaded => ⟨[], .refl _, loaded⟩⟩ Follows.effect
    fun {asked r' files'} h => ⟨?_, h.unreadable, h.readable⟩).1
  rw [← h.store_eq]
  unfold Registry.reload
  split
  · rfl
  · cases r'.store.loadSnapshot files' <;> rfl

end Registry

end CapabilityPipeline
