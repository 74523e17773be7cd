import CapabilityPipeline.Proofs.Registry.Reinstallation

/-!
# Packages beside each other

Packages share the nodes of a registry, and their actions and guides stand side by side. What a
package has is left alone by the others as long as the registry is at work. What a package declares
may still reach for another one: it may name a tool of that package to serve its own action. Such
an action is in the way of consistency, and nothing else is.

Results:

* `Registry.Run.leavesAlone`: packages leave each other alone, at all times.
* `Registry.Run.violations_iff`: the actions that are reported as violations, at all times.
-/

namespace CapabilityPipeline.Registry

open Text (Symbol)

variable {r r' : Registry} {files files' : FileTree} {asked : List Change}

/-! ## What packages leave alone -/

/-- **Packages leave each other alone.** After a run the files hold what they held with some of
the changes made that were asked for, and a package that none of these came from is undisturbed.
Every change that was made preserves what is not of its package, and guides that belong to their
nodes still do. Files that cannot be read are not touched. -/
theorem Run.leavesAlone (wellFormed : files.WellFormed) (run : r.Run files asked r' files') :
    (∀ e, r.store.loadContents files = .error e → r.store.SameFiles files files') ∧
      ∀ c, r.store.loadContents files = .ok c →
        ∃ made, made.Sublist asked ∧ r.store.loadContents files' = .ok (c.history made) ∧
          (∀ packageId, (∀ change ∈ asked, change.packageId ≠ packageId) →
            Contents.Undisturbed packageId c (c.history made)) ∧
          (∀ done change, done ++ [change] <+: made →
            Contents.Preserves change (c.history done) (c.history (done ++ [change]))) ∧
          ∀ node guide, c.BelongsToNode node guide → (c.history made).BelongsToNode node guide := by
  have follows := run.follows wellFormed
  refine ⟨follows.unreadable, fun c loaded => ?_⟩
  obtain ⟨made, some, held⟩ := follows.readable c loaded
  refine ⟨made, some, held, fun packageId others => ?_, fun done change _ => ?_,
    fun node guide belongs => Contents.belongsToNode_history belongs made⟩
  · exact c.undisturbed_history fun change mem => others change (some.subset mem)
  · rw [Contents.history_concat]
    exact Contents.preserves_apply (c.history done) change

/-- The phone takes over the bell, and takes it away when it leaves. The mail keeps its letters, and
its guide, which the phone has shared for a while. -/
theorem Run.leavesAlone_phone : bellFiles.WellFormed ∧
    bellRegistry.store.loadContents bellFiles = .ok bellContents ∧
    ∃ r₁ files₁ report₁ r₂ files₂ report₂ made,
      bellRegistry.register "phone" bellFiles = (r₁, files₁, .ok report₁) ∧
        r₁.unregister "phone" files₁ = (r₂, files₂, .ok report₂) ∧
        made.Sublist [.register "phone" phoneManifest, .unregister "phone"] ∧
        bellRegistry.store.loadContents files₂ = .ok (bellContents.history made) ∧
        bellContents.history made = deskContents ∧ bellContents ≠ deskContents ∧
        Contents.Undisturbed "mail" bellContents (bellContents.history made) ∧
        (∀ done change, done ++ [change] <+: made → Contents.Preserves change
          (bellContents.history done) (bellContents.history (done ++ [change]))) ∧
        ∀ node guide, bellContents.BelongsToNode node guide →
          (bellContents.history made).BelongsToNode node guide := by
  obtain ⟨r₁, files₁, report₁, install, clear₁⟩ := keeps_bell.exists_register clear_bell "phone"
  have first := keeps_bell.leaves_register clear_bell.wellFormed readManifest_bell install
  obtain ⟨r₂, files₂, report₂, uninstall, -⟩ := first.keeps.exists_unregister clear₁ "phone"
  have second := first.keeps.leaves_unregister first.wellFormed (by decide) (by decide) uninstall
  have idle : bellRegistry.Run bellFiles [] bellRegistry bellFiles := .start
  have asked : bellRegistry.registration bellFiles "phone" = [.register "phone" phoneManifest] := by
    rw [registration, readManifest_bell]
  have run := (idle.register "phone").unregister "phone"
  rw [install, asked] at run
  dsimp only at run
  rw [uninstall] at run
  obtain ⟨made, some, held, undisturbed, preserves, belongs⟩ :=
    (Run.leavesAlone clear_bell.wellFormed run).2 bellContents keeps_bell.loaded
  have store := (run.follows clear_bell.wellFormed).store_eq
  have left := Except.ok.inj (held.symm.trans (store ▸ second.keeps.loaded))
  exact ⟨clear_bell.wellFormed, keeps_bell.loaded, r₁, files₁, report₁, r₂, files₂, report₂, made,
    install, uninstall, some, held, left.trans (by decide), by decide,
    undisturbed "mail" (by decide), preserves, belongs⟩

/-! ## What packages borrow -/

/-- **Consistency at work.** A registry without violations is opened and put to work. Whatever its
requests come to, the violations are at all times the actions that stand as a package has declared
them, for a tool of another package. The files hold what they held with some of the changes made
that were asked for, and whatever changes are made, they keep consistency exactly as long as none of
them installs such an action. -/
theorem Run.violations_iff {store : Store} {packagesDir : String} (wellFormed : files.WellFormed)
    (opened : openStore store packagesDir files = .ok r) (consistent : r.snapshot.violations = [])
    (run : r.Run files asked r' files') :
    (∀ v, v ∈ r'.snapshot.violations ↔ ∃ node name other,
        v = .unrecordedOwner node name other ∧ r'.snapshot.Borrows asked node name other) ∧
      ∀ c, r.store.loadContents files = .ok c →
        (∃ made, made.Sublist asked ∧ r.store.loadContents files' = .ok (c.history made) ∧
          r'.snapshot = (c.history made).snapshot) ∧
          ∀ changes, c.StaysConsistent changes ↔ c.NeverForeign changes := by
  have before := mirrors_iff.mpr opened
  have after := run.mirrors wellFormed before
  have follows := run.follows wellFormed
  obtain rfl := before.store_eq
  have readable : ∀ c, r.store.loadContents files = .ok c → ∃ made, made.Sublist asked ∧
      r.store.loadContents files' = .ok (c.history made) ∧
      r'.snapshot = (c.history made).snapshot ∧ c.snapshot.violations = [] := by
    intro c loaded
    obtain ⟨made, some, held⟩ := follows.readable c loaded
    exact ⟨made, some, held, after.snapshot_eq held, before.snapshot_eq loaded ▸ consistent⟩
  refine ⟨fun v => ⟨fun reported => ?_, ?_⟩, fun c loaded => ?_⟩
  · cases loaded : r.store.loadContents files with
    | error e =>
      -- nothing has been written, and readers see what they saw
      have same := (follows.unreadable e loaded).loadSnapshot
      rw [before.loaded, after.loaded] at same
      rw [Except.ok.inj same, consistent] at reported
      cases reported
    | ok c =>
      obtain ⟨made, some, -, seen, none⟩ := readable c loaded
      rw [seen] at reported ⊢
      obtain ⟨node, name, other, same, borrows⟩ :=
        (Contents.mem_violations_history_iff none made v).mp reported
      exact ⟨node, name, other, same, borrows.mono some.subset⟩
  · rintro ⟨node, name, other, rfl, borrows⟩
    exact borrows.mem_violations
  · obtain ⟨made, some, held, seen, none⟩ := readable c loaded
    exact ⟨⟨made, some, held, seen⟩, fun changes =>
      (Contents.violations_history_iff none changes).1⟩

/-- The registry with a clock that no package owns. -/
def clockRegistry : Registry :=
  ⟨⟨"registry"⟩, "packages", false, Contents.builtInClock.snapshot⟩

/-- The files of the registry with the clock, and of a package whose alarm the mail is to ring. -/
def clockFiles : FileTree where
  start := []
  entries := (["registry"], .directory) :: (["packages"], .directory) ::
    (["packages", "clock"], .directory) ::
    (["packages", "clock", "ibl_actions.json"], .file (Symbol.ofText <|
      "\x7b\"node\":\"system\",\"actions\":\x7b\"alarm\":\x7b\"handler\":" ++
        "\x7b\"kind\":\"package\",\"package_id\":\"mail\",\"tool\":\"ring\"\x7d\x7d\x7d\x7d")) ::
    (Store.contentsOf Contents.builtInClock).map fun d =>
      (["registry", d.1], .file (Symbol.ofText d.2.pretty))

theorem clear_clock : clockRegistry.store.Clear clockFiles ["registry"] :=
  Store.clear_of_free (by decide) ⟨by decide, by decide⟩ Store.arePaths_registry (by decide)

theorem keeps_clock : clockRegistry.Keeps clockFiles Contents.builtInClock where
  loaded := clear_clock.loadContents_eq (by decide) (Store.forall_mem_contentsOf.mpr ⟨rfl, rfl, rfl⟩)
  published := rfl

theorem readManifest_clock :
    clockRegistry.readManifest clockFiles "clock" = .ok Contents.borrowedTool := by
  decide +kernel

/-- The clock is registered with its alarm, and it alone is reported. -/
theorem Run.violations_iff_clock : clockFiles.WellFormed ∧
    openStore ⟨"registry"⟩ "packages" clockFiles = .ok clockRegistry ∧
    clockRegistry.snapshot.violations = [] ∧
    ∃ r₁ files₁ report₁ made,
      clockRegistry.register "clock" clockFiles = (r₁, files₁, .ok report₁) ∧
        r₁.snapshot.violations = [.unrecordedOwner "system" "alarm" "mail"] ∧
        (∀ v, v ∈ r₁.snapshot.violations ↔ ∃ node name other,
          v = .unrecordedOwner node name other ∧
            r₁.snapshot.Borrows [.register "clock" Contents.borrowedTool] node name other) ∧
        made.Sublist [.register "clock" Contents.borrowedTool] ∧
        clockRegistry.store.loadContents files₁ = .ok (Contents.builtInClock.history made) ∧
        ¬Contents.builtInClock.StaysConsistent made ∧
        ¬Contents.builtInClock.NeverForeign made := by
  obtain ⟨r₁, files₁, report₁, install, -⟩ := keeps_clock.exists_register clear_clock "clock"
  have first := keeps_clock.leaves_register clear_clock.wellFormed readManifest_clock install
  have idle : clockRegistry.Run clockFiles [] clockRegistry clockFiles := .start
  have asked : clockRegistry.registration clockFiles "clock" =
      [.register "clock" Contents.borrowedTool] := by
    rw [registration, readManifest_clock]
  have run := idle.register "clock"
  rw [install, asked] at run
  have opened : openStore ⟨"registry"⟩ "packages" clockFiles = .ok clockRegistry :=
    mirrors_iff.mp ⟨rfl, rfl, rfl, Store.loadSnapshot_of_loadContents keeps_clock.loaded⟩
  obtain ⟨reported, changed⟩ :=
    Run.violations_iff clear_clock.wellFormed opened (by decide) run
  obtain ⟨⟨made, some, held, seen⟩, consistent⟩ := changed _ keeps_clock.loaded
  have alarm : r₁.snapshot.violations = [.unrecordedOwner "system" "alarm" "mail"] := by
    rw [first.keeps.published]
    decide
  have lost : ¬Contents.builtInClock.StaysConsistent made := fun stays => by
    have none := stays made (List.prefix_refl made)
    rw [← seen, alarm] at none
    cases none
  exact ⟨clear_clock.wellFormed, opened, by decide, r₁, files₁, report₁, made, install, alarm,
    reported, some, held, lost, (consistent made).not.mp lost⟩

end CapabilityPipeline.Registry
