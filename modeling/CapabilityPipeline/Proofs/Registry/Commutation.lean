import CapabilityPipeline.Proofs.Registry.Standing

/-!
# Packages come and go in any order

Two packages that have no action in common may be registered and unregistered in any order: actions
and their owners are looked at by one of them only, and a guide that both contribute is joined and
left in any order. What differs is at most the order in which guides are listed.

Results:

* `Contents.perform`, `Contents.Matches`: what a request does, and registries that are the same up
  to the order of guides.
* `Contents.perform_comm`: changes of packages without a common action commute.
* `Registry.requests_commute`: the same for a registry with files.
-/

namespace CapabilityPipeline

open Text (Symbol)

namespace Contents

variable {c c' : Contents} {a b : Change}

/-! ## What requests do -/

/-- The contents after a change is asked for. A package without actions is not unregistered. -/
def perform (c : Contents) : Change → Contents
  | .register packageId manifest => (c.register packageId manifest).contents
  | .unregister packageId =>
    if (c.provenance.ownedBy packageId).isEmpty then c else (c.unregister packageId).1

/-- What is performed keeps what no change destroys. -/
theorem perform_cases (c : Contents) (change : Change) :
    c.perform change = c ∨ c.perform change = c.apply change := by
  cases change with
  | register packageId manifest => exact .inr rfl
  | unregister packageId =>
    unfold perform
    dsimp only
    split
    · exact .inl rfl
    · exact .inr rfl

theorem identity?_perform (c : Contents) (change : Change) (id : String) :
    identity? (c.perform change).nodes id = identity? c.nodes id := by
  rcases c.perform_cases change with same | applied
  · rw [same]
  · rw [applied]
    exact (preserves_apply c change).identity id

theorem contains_perform (c : Contents) (change : Change) (node : String) :
    (c.perform change).nodes.contains node = c.nodes.contains node := by
  have same := congrArg Option.isSome (c.identity?_perform change node)
  unfold identity? at same
  rwa [Option.isSome_map, Option.isSome_map] at same

theorem filled_perform (h : c.provenance.Filled) (change : Change) :
    (c.perform change).provenance.Filled := by
  rcases c.perform_cases change with same | applied
  · rw [same]
    exact h
  · rw [applied]
    cases change with
    | register packageId manifest => exact filled_register h packageId manifest
    | unregister packageId => exact filled_unregister h packageId

theorem filledGuides_perform (h : c.guides.Filled) (change : Change) :
    (c.perform change).guides.Filled := by
  rcases c.perform_cases change with same | applied
  · rw [same]
    exact h
  · rw [applied]
    cases change with
    | register packageId manifest => exact filledGuides_register h packageId manifest
    | unregister packageId => exact GuideOwners.filled_drop _ packageId

/-! ## Actions -/

/-- A change has to do with an action: its manifest names the action or its package owns it. -/
def Concerns (c : Contents) (change : Change) (node name : String) : Prop :=
  change.Declares node name ∨ c.provenance.owner? node name = some change.packageId

/-- Every action is seen afterwards as its node and its view before determine. -/
theorem view_perform (c : Contents) (change : Change) (node name : String) :
    (c.perform change).view node name = match change with
      | .register packageId manifest => match c.installed? packageId manifest node name with
        | some entry => entry.viewed packageId name
        | none => c.view node name
      | .unregister packageId =>
        if c.provenance.owner? node name = some packageId then (none, none)
        else c.view node name := by
  cases change with
  | register packageId manifest => exact c.view_register packageId manifest node name
  | unregister packageId =>
    unfold perform
    dsimp only
    split
    · next nothing =>
      rw [if_neg (Registry.ownedBy_isEmpty_iff.mp nothing node name)]
    · exact c.view_unregister packageId node name

/-- An action that is seen alike before is seen alike afterwards. -/
theorem view_perform_congr {node name : String}
    (nodes : c.nodes.contains node = c'.nodes.contains node)
    (view : c.view node name = c'.view node name) (change : Change) :
    (c.perform change).view node name = (c'.perform change).view node name := by
  have owner : c.provenance.owner? node name = c'.provenance.owner? node name :=
    congrArg Prod.snd view
  rw [view_perform, view_perform]
  unfold installed? isOpen
  rw [owner, nodes, view]

/-- What a change has nothing to do with is seen as before. -/
theorem view_perform_of_not_concerns {node name : String} (apart : ¬ c.Concerns a node name) :
    (c.perform a).view node name = c.view node name := by
  rw [view_perform]
  cases a with
  | register packageId manifest =>
    have none : c.installed? packageId manifest node name = none := by
      rw [Option.eq_none_iff_forall_ne_some]
      intro entry installed
      unfold installed? at installed
      split at installed
      · exact apart (.inl ⟨packageId, manifest, entry, rfl, installed⟩)
      · cases installed
    dsimp only
    rw [none]
  | unregister packageId => exact if_neg fun owned => apart (.inr owned)

/-- A change makes no action a concern of another package. -/
theorem concerns_of_perform (different : a.packageId ≠ b.packageId) {node name : String}
    (h : (c.perform b).Concerns a node name) : c.Concerns a node name := by
  rcases h with declares | owned
  · exact .inl declares
  · refine .inr ?_
    have view := congrArg Prod.snd (c.view_perform b node name)
    rw [show ((c.perform b).view node name).2 = some a.packageId from owned] at view
    cases b with
    | register packageId manifest =>
      dsimp only at view
      split at view
      · exact absurd (Option.some.inj view) different
      · exact view.symm
    | unregister packageId =>
      dsimp only at view
      split at view
      · cases view
      · exact view.symm

/-- **Actions end up alike in any order.** Each is a concern of one change at most, and the other
passes it by, before or after. -/
theorem view_perform_comm (different : a.packageId ≠ b.packageId) {node name : String}
    (apart : c.Concerns a node name → ¬ c.Concerns b node name) :
    ((c.perform a).perform b).view node name = ((c.perform b).perform a).view node name := by
  by_cases concerns : c.Concerns a node name
  · have before := view_perform_of_not_concerns (apart concerns)
    rw [view_perform_of_not_concerns fun h =>
      apart concerns (concerns_of_perform different.symm h)]
    exact view_perform_congr (c.contains_perform b node).symm before.symm a
  · have before := view_perform_of_not_concerns concerns
    rw [view_perform_of_not_concerns (c := c.perform b) fun h =>
      concerns (concerns_of_perform different h)]
    exact view_perform_congr (c.contains_perform a node) before b

/-! ## Guides -/

/-- What a change does to how a guide stands. -/
def effect (c : Contents) (change : Change) (node guide : String) (s : Standing) : Standing :=
  match change with
  | .register packageId manifest =>
    if c.brings packageId manifest node guide then s.join packageId else s
  | .unregister packageId =>
    if (c.provenance.ownedBy packageId).isEmpty then s else s.leave packageId

theorem standing_perform (filled : c.guides.Filled) (change : Change) (node guide : String) :
    (c.perform change).standing node guide =
      c.effect change node guide (c.standing node guide) := by
  cases change with
  | register packageId manifest => exact standing_register filled packageId manifest node guide
  | unregister packageId =>
    unfold perform effect
    dsimp only
    split
    · rfl
    · exact c.standing_unregister packageId node guide

/-- Guides are affected as before by the changes of a package when another package, without a
common action, has made its change. -/
theorem effect_perform (different : a.packageId ≠ b.packageId)
    (apart : ∀ node name, c.Concerns a node name → ¬ c.Concerns b node name) :
    (c.perform b).effect a = c.effect a := by
  have owners (node name : String) (concerns : c.Concerns a node name) :
      (c.perform b).provenance.owner? node name = c.provenance.owner? node name :=
    congrArg Prod.snd (view_perform_of_not_concerns (apart node name concerns))
  funext node guide s
  cases a with
  | register packageId manifest =>
    have brings : (c.perform b).brings packageId manifest node guide =
        c.brings packageId manifest node guide := by
      unfold brings
      rw [contains_perform]
      cases found : manifest.contributions.lookup node with
      | none => rfl
      | some contribution =>
        rw [Option.any_some, Option.any_some]
        congr 1
        rw [Bool.eq_iff_iff, List.any_eq_true, List.any_eq_true]
        refine exists_congr fun e => and_congr_right fun mem => ?_
        have declared : manifest.entry? node e.1 = some e.2 := by
          rw [Manifest.entry?, found]
          exact NameMap.mem_entries.mp mem
        unfold isOpen
        rw [owners node e.1 (.inl ⟨packageId, manifest, e.2, rfl, declared⟩)]
    unfold effect
    dsimp only
    rw [brings]
  | unregister packageId =>
    have none : ((c.perform b).provenance.ownedBy packageId).isEmpty =
        (c.provenance.ownedBy packageId).isEmpty := by
      refine Bool.eq_iff_iff.mpr ?_
      rw [Registry.ownedBy_isEmpty_iff, Registry.ownedBy_isEmpty_iff]
      refine ⟨fun none node name owned => ?_, fun none node name owned => ?_⟩
      · exact none node name ((owners node name (.inr owned)).trans owned)
      · rcases concerns_of_perform different (.inr owned) with declares | owned
        · obtain ⟨_, _, _, registers, -⟩ := declares
          cases registers
        · exact none node name owned
    unfold effect
    dsimp only
    rw [none]

/-- Two changes affect a guide in any order, if it is listed once when it is held. -/
theorem effect_comm (different : a.packageId ≠ b.packageId) {s : Standing} (sound : s.Sound)
    (node guide : String) :
    c.effect b node guide (c.effect a node guide s) =
      c.effect a node guide (c.effect b node guide s) := by
  cases a with
  | register p =>
    cases b with
    | register q =>
      unfold effect
      dsimp only
      split <;> split <;> first | rfl | exact s.join_comm
    | unregister q =>
      unfold effect
      dsimp only
      split <;> split <;> first | rfl | exact (Standing.leave_join sound different).symm
  | unregister p =>
    cases b with
    | register q =>
      unfold effect
      dsimp only
      split <;> split <;> first | rfl | exact Standing.leave_join sound different.symm
    | unregister q =>
      unfold effect
      dsimp only
      split <;> split <;> first | rfl | exact s.leave_comm

/-! ## Registries up to the order of guides -/

/-- A registry in order: there are no empty parts in its tables, and every guide that a package
holds is once on the list of its node. -/
structure Orderly (c : Contents) : Prop where
  owners : c.provenance.Filled
  holders : c.guides.Filled
  once : ∀ packageId node guide, c.Holds packageId node guide →
    (c.guideList node).count guide = 1

/-- Contents that are the same up to the order in which guides are listed. -/
structure Matches (c c' : Contents) : Prop where
  identity : ∀ id, identity? c'.nodes id = identity? c.nodes id
  actions : ∀ node name, c'.action? node name = c.action? node name
  provenance : c'.provenance = c.provenance
  holders : c'.guides = c.guides
  listed : ∀ node, (c'.guideList node).Perm (c.guideList node)

theorem Matches.refl (c : Contents) : c.Matches c :=
  ⟨fun _ => rfl, fun _ _ => rfl, rfl, rfl, fun _ => .refl _⟩

theorem Orderly.sound (h : c.Orderly) (node guide : String) : (c.standing node guide).Sound := by
  intro held
  obtain ⟨packageId, holds⟩ : ∃ packageId, c.Holds packageId node guide := by
    refine h.holders.exists_holder ?_
    rw [h.holders.isOwned_eq, Bool.not_eq_true']
    exact held
  exact h.once packageId node guide holds

/-- **Changes of packages without a common action commute**, whatever guides they share. -/
theorem perform_comm (orderly : c.Orderly) (different : a.packageId ≠ b.packageId)
    (apart : ∀ node name, c.Concerns a node name → ¬ c.Concerns b node name) :
    ((c.perform a).perform b).Matches ((c.perform b).perform a) := by
  have views (node name : String) :=
    view_perform_comm different (apart node name)
  have standings (node guide : String) : ((c.perform b).perform a).standing node guide =
      ((c.perform a).perform b).standing node guide := by
    rw [standing_perform (filledGuides_perform orderly.holders b),
      standing_perform (filledGuides_perform orderly.holders a),
      standing_perform orderly.holders, standing_perform orderly.holders,
      effect_perform different apart,
      effect_perform different.symm fun node name second first => apart node name first second]
    exact (effect_comm different (orderly.sound node guide) node guide).symm
  refine ⟨fun id => ?_, fun node name => (congrArg Prod.fst (views node name)).symm, ?_, ?_,
    fun node => ?_⟩
  · rw [identity?_perform, identity?_perform, identity?_perform, identity?_perform]
  · exact (filled_perform (filled_perform orderly.owners b) a).ext
      (filled_perform (filled_perform orderly.owners a) b)
      fun node name => (congrArg Prod.snd (views node name)).symm
  · refine (filledGuides_perform (filledGuides_perform orderly.holders b) a).ext
      (filledGuides_perform (filledGuides_perform orderly.holders a) b) fun node guide other => ?_
    rw [show ((c.perform b).perform a).guides.holders node guide =
      ((c.perform a).perform b).guides.holders node guide from
        congrArg Standing.holders (standings node guide)]
  · exact List.perm_iff_count.mpr fun guide => congrArg Standing.listed (standings node guide)

end Contents

/-! ## Registries with files -/

namespace Registry

variable {r r' : Registry} {files files' : FileTree} {c : Contents} {packageId : String}

/-- What a registry is asked to do with a package. -/
inductive Request where
  | register
  | unregister

/-- A request is granted, and leaves a registry and its files. -/
def Grants (r : Registry) (request : Request) (packageId : String) (files : FileTree)
    (r' : Registry) (files' : FileTree) : Prop :=
  match request with
  | .register => ∃ report, r.register packageId files = (r', files', .ok report)
  | .unregister => ∃ report, r.unregister packageId files = (r', files', .ok report)

/-- The change that a request asks for. There is none without a manifest that declares an action,
and none for what is no package. -/
def asked (r : Registry) (request : Request) (packageId : String) (files : FileTree) :
    List Change :=
  match request with
  | .register => r.registration files packageId
  | .unregister => if isPackageId packageId then [.unregister packageId] else []

/-- A request that is granted changes nothing, or commits the change that it asks for. -/
theorem Keeps.granted_cases (h : r.Keeps files c) {request : Request}
    (granted : r.Grants request packageId files r' files') :
    (r' = r ∧ files' = files ∧ (r.asked request packageId files).foldl Contents.perform c = c) ∨
      ∃ change, r.asked request packageId files = [change] ∧ c.perform change = c.apply change ∧
        (c.nodes ≠ .empty ∨ c.provenance ≠ .empty) ∧
        r.commit (c.apply change) files = (r', files', none) := by
  cases request with
  | register =>
    obtain ⟨report, done⟩ := granted
    unfold asked registration
    dsimp only
    rcases register_done done with ⟨reason, skipped, rfl, rfl, -⟩ |
      ⟨m, c', manifest, loaded, report', result⟩
    · rw [skipped]
      exact .inl ⟨rfl, rfl, rfl⟩
    · cases h.loaded.symm.trans loaded
      rw [manifest]
      rcases result with ⟨nothing, rfl, rfl⟩ | ⟨registered, committed⟩
      · rcases c.accounts_register packageId m with ⟨-, same⟩ | ⟨more, -⟩
        · exact .inl ⟨rfl, rfl, same⟩
        · exact absurd (report' ▸ nothing) more
      · exact .inr ⟨_, rfl, rfl,
          .inl (Contents.nodes_ne_empty_of_registered (report' ▸ registered)), committed⟩
  | unregister =>
    obtain ⟨report, done⟩ := granted
    unfold asked
    dsimp only
    rcases unregister_done done with ⟨other, -, rfl, rfl⟩ | ⟨c', isId, loaded, result⟩
    · rw [if_neg (Bool.eq_false_iff.mp other)]
      exact .inl ⟨rfl, rfl, rfl⟩
    · cases h.loaded.symm.trans loaded
      rw [if_pos isId]
      rcases result with ⟨nothing, -, rfl, rfl⟩ | ⟨owned, -, committed⟩
      · exact .inl ⟨rfl, rfl, if_pos nothing⟩
      · exact .inr ⟨_, rfl, if_neg (Bool.eq_false_iff.mp owned),
          .inr (Contents.provenance_ne_empty_of_owned owned), committed⟩

/-- **A request that is granted leaves what its change makes of the contents.** -/
theorem Keeps.leaves_granted (h : r.Keeps files c) (wellFormed : files.WellFormed)
    {request : Request} (granted : r.Grants request packageId files r' files') :
    Leaves r files r' files' ((r.asked request packageId files).foldl Contents.perform c) := by
  rcases h.granted_cases granted with ⟨rfl, rfl, same⟩ | ⟨change, only, performs, some, committed⟩
  · rw [same]
    exact h.leaves wellFormed
  · rw [only]
    show Leaves r files r' files' (c.perform change)
    rw [performs]
    exact leaves_commit wellFormed h.loaded some change committed

theorem registration_congr (h : ∀ m, r'.readManifest files' packageId = .ok m ↔
    r.readManifest files packageId = .ok m) :
    r'.registration files' packageId = r.registration files packageId := by
  unfold registration
  cases before : r.readManifest files packageId with
  | ok m => rw [(h m).mpr before]
  | error reason =>
    cases after : r'.readManifest files' packageId with
    | ok m =>
      rw [(h m).mp after] at before
      cases before
    | error reason' => rfl

/-- A request that is granted makes no difference to what other requests ask for. -/
theorem Keeps.asked_eq (h : r.Keeps files c) (wellFormed : files.WellFormed)
    {request : Request} (granted : r.Grants request packageId files r' files') (other : Request)
    (otherId : String) : r'.asked other otherId files' = r.asked other otherId files := by
  rcases h.granted_cases granted with ⟨rfl, rfl, -⟩ | ⟨change, -, -, some, committed⟩
  · rfl
  · obtain ⟨base, located⟩ := Store.located_of_loadContents wellFormed h.loaded some
    obtain ⟨saved, rfl⟩ := commit_eq committed
    cases other with
    | register =>
      exact registration_congr fun m => readManifest_changes (located.save_changes _ saved) rfl
    | unregister => rfl

/-- A package has to do with an action: its manifest names the action, or it owns the action. -/
def Claims (r : Registry) (files : FileTree) (c : Contents) (packageId node name : String) : Prop :=
  (∃ m entry, r.readManifest files packageId = .ok m ∧ m.entry? node name = some entry) ∨
    c.provenance.owner? node name = some packageId

/-- What is asked for a package is at most one change of the package, and concerns no action that
the package has nothing to do with. -/
theorem asked_cases (r : Registry) (request : Request) (packageId : String) (files : FileTree)
    (c : Contents) : r.asked request packageId files = [] ∨
      ∃ change, r.asked request packageId files = [change] ∧ change.packageId = packageId ∧
        ∀ node name, c.Concerns change node name → r.Claims files c packageId node name := by
  cases request with
  | register =>
    unfold asked registration
    dsimp only
    cases manifest : r.readManifest files packageId with
    | error reason => exact .inl rfl
    | ok m =>
      refine .inr ⟨_, rfl, rfl, fun node name concerns => ?_⟩
      rcases concerns with ⟨_, _, entry, registers, declared⟩ | owned
      · cases registers
        exact .inl ⟨m, entry, manifest, declared⟩
      · exact .inr owned
  | unregister =>
    unfold asked
    dsimp only
    split
    · refine .inr ⟨_, rfl, rfl, fun node name concerns => ?_⟩
      rcases concerns with ⟨_, _, _, registers, -⟩ | owned
      · cases registers
      · exact .inr owned
    · exact .inl rfl

/-- **Requests of packages without a common action commute.** One package is registered or
unregistered and then the other, or the other way round, and all requests are granted. Actions,
their owners and the holders of guides are the same in the end, and the same guides are listed,
whether or not the packages share guides. -/
theorem requests_commute (wellFormed : files.WellFormed) (keeps : r.Keeps files c)
    (orderly : c.Orderly) {p q : String} (different : p ≠ q)
    (apart : ∀ node name, r.Claims files c p node name → ¬ r.Claims files c q node name)
    {first second : Request} {r₁ r₂ r₃ r₄ : Registry} {files₁ files₂ files₃ files₄ : FileTree}
    (one : r.Grants first p files r₁ files₁) (then_two : r₁.Grants second q files₁ r₂ files₂)
    (two : r.Grants second q files r₃ files₃) (then_one : r₃.Grants first p files₃ r₄ files₄) :
    ∃ c₂ c₄, r₂.Keeps files₂ c₂ ∧ r₄.Keeps files₄ c₄ ∧ c₂.Matches c₄ := by
  have left₁ := keeps.leaves_granted wellFormed one
  have left₂ := left₁.keeps.leaves_granted left₁.wellFormed then_two
  have left₃ := keeps.leaves_granted wellFormed two
  have left₄ := left₃.keeps.leaves_granted left₃.wellFormed then_one
  rw [keeps.asked_eq wellFormed one] at left₂
  rw [keeps.asked_eq wellFormed two] at left₄
  refine ⟨_, _, left₂.keeps, left₄.keeps, ?_⟩
  rcases r.asked_cases first p files c with none | ⟨a, asks, ofP, concernsP⟩
  · rw [none]
    exact .refl _
  · rcases r.asked_cases second q files c with none | ⟨b, asks', ofQ, concernsQ⟩
    · rw [none]
      exact .refl _
    · rw [asks, asks']
      refine Contents.perform_comm orderly (by rwa [ofP, ofQ]) fun node name first second => ?_
      exact apart node name (concernsP node name first) (concernsQ node name second)

/-! ## A horn beside the mail -/

/-- A package that rings, and shares a guide with the mail. -/
def hornManifest : Manifest :=
  .single "desk" ⟨NameMap.empty.insert "ring" ⟨"", none, none, none⟩, ["Speak up", "Be brief"]⟩ none

/-- The files of the registry with the desk and the bell, and of the package. -/
def hornFiles : FileTree where
  start := []
  entries := (["packages", "horn"], .directory) ::
    (["packages", "horn", "ibl_actions.json"], .file (Symbol.ofText
      "\x7b\"node\":\"desk\",\"actions\":\x7b\"ring\":\x7b\x7d\x7d,\"guides\":[\"Speak up\",\"Be brief\"]\x7d")) ::
    bellFiles.entries

theorem clear_horn : bellRegistry.store.Clear hornFiles ["registry"] :=
  Store.clear_of_free (by decide) ⟨by decide, by decide⟩ Store.arePaths_registry (by decide)

theorem keeps_horn : bellRegistry.Keeps hornFiles bellContents where
  loaded := clear_horn.loadContents_eq (by decide) (Store.forall_mem_contentsOf.mpr ⟨rfl, rfl, rfl⟩)
  published := rfl

theorem readManifest_horn : bellRegistry.readManifest hornFiles "horn" = .ok hornManifest := by
  decide +kernel

theorem orderly_bell : bellContents.Orderly where
  owners := settled_bell.owners
  holders := settled_bell.holders
  once packageId node guide held := by
    obtain ⟨-, rfl, rfl⟩ := holds_bell.mp held
    decide

/-- The mail has to do with its letters only, and the horn with nothing of the kind. -/
theorem claims_horn (node name : String) (mail : bellRegistry.Claims hornFiles bellContents "mail"
    node name) : ¬ bellRegistry.Claims hornFiles bellContents "horn" node name := by
  have missing : bellRegistry.readManifest hornFiles "mail" = .error .manifestMissing := by
    decide +kernel
  have owns : bellContents.provenance.ownedBy "mail" = [("desk", "send")] := by decide
  rcases mail with ⟨m, _, read, -⟩ | owned
  · cases missing.symm.trans read
  · have letters := Provenance.mem_ownedBy.mpr owned
    rw [owns] at letters
    cases List.mem_singleton.mp letters
    rintro (⟨m, entry, read, declared⟩ | owned')
    · cases readManifest_horn.symm.trans read
      have other : hornManifest.entry? "desk" "send" = none := by decide
      cases other.symm.trans declared
    · exact absurd (owned.symm.trans owned') (by decide)

/-- The guide that the horn shares with the mail stays when the mail goes, or goes and comes again:
only its place on the list is not the same. -/
theorem requests_commute_horn : hornFiles.WellFormed ∧
    bellRegistry.Keeps hornFiles bellContents ∧ bellContents.Orderly ∧
    ∃ r₁ files₁ r₂ files₂ r₃ files₃ r₄ files₄ c₂ c₄,
      bellRegistry.Grants .unregister "mail" hornFiles r₁ files₁ ∧
        r₁.Grants .register "horn" files₁ r₂ files₂ ∧
        bellRegistry.Grants .register "horn" hornFiles r₃ files₃ ∧
        r₃.Grants .unregister "mail" files₃ r₄ files₄ ∧
        r₂.Keeps files₂ c₂ ∧ r₄.Keeps files₄ c₄ ∧ c₂.Matches c₄ ∧
        c₂.guideList "desk" = ["Speak up", "Be brief"] ∧
        c₄.guideList "desk" = ["Be brief", "Speak up"] := by
  obtain ⟨r₁, files₁, report₁, one, clear₁⟩ := keeps_horn.exists_unregister clear_horn "mail"
  have one : bellRegistry.Grants .unregister "mail" hornFiles r₁ files₁ := ⟨report₁, one⟩
  have left₁ := keeps_horn.leaves_granted clear_horn.wellFormed one
  obtain ⟨r₂, files₂, report₂, next, -⟩ := left₁.keeps.exists_register clear₁ "horn"
  have next : r₁.Grants .register "horn" files₁ r₂ files₂ := ⟨report₂, next⟩
  have left₂ := left₁.keeps.leaves_granted left₁.wellFormed next
  obtain ⟨r₃, files₃, report₃, two, clear₃⟩ := keeps_horn.exists_register clear_horn "horn"
  have two : bellRegistry.Grants .register "horn" hornFiles r₃ files₃ := ⟨report₃, two⟩
  have left₃ := keeps_horn.leaves_granted clear_horn.wellFormed two
  obtain ⟨r₄, files₄, report₄, last, -⟩ := left₃.keeps.exists_unregister clear₃ "mail"
  have last : r₃.Grants .unregister "mail" files₃ r₄ files₄ := ⟨report₄, last⟩
  have left₄ := left₃.keeps.leaves_granted left₃.wellFormed last
  obtain ⟨c₂, c₄, keeps₂, keeps₄, matched⟩ := requests_commute clear_horn.wellFormed keeps_horn
    orderly_bell (by decide) claims_horn one next two last
  have same₂ := Except.ok.inj (keeps₂.loaded.symm.trans left₂.keeps.loaded)
  have same₄ := Except.ok.inj (keeps₄.loaded.symm.trans left₄.keeps.loaded)
  have asked : bellRegistry.asked .register "horn" hornFiles = [.register "horn" hornManifest] := by
    unfold asked registration
    rw [readManifest_horn]
  rw [keeps_horn.asked_eq clear_horn.wellFormed one, asked] at same₂
  rw [keeps_horn.asked_eq clear_horn.wellFormed two, asked] at same₄
  refine ⟨clear_horn.wellFormed, keeps_horn, orderly_bell, r₁, files₁, r₂, files₂, r₃, files₃, r₄,
    files₄, c₂, c₄, one, next, two, last, keeps₂, keeps₄, matched, ?_, ?_⟩
  · rw [same₂]
    decide +kernel
  · rw [same₄]
    decide +kernel

end Registry

end CapabilityPipeline
