import CapabilityPipeline.Proofs.Registry.Change
import Mathlib.Data.List.Induction
import Mathlib.Tactic.ByContra
import Mathlib.Tactic.Push

/-!
# Consistency of nodes and owners

A registry is consistent when every owned action is defined and every action that a package
serves is owned by that package. Packages come and go in any order, and the question is which
registrations break consistency.

Results:

* `Contents.violations_eq_nil_iff`: consistency, one action at a time.
* `Snapshot.Borrows`: an action stands as its package declared it, for a tool of another package.
* `Contents.mem_violations_history_iff`: the violations after a history are these actions.
* `Contents.violations_history_iff`: a history stays consistent exactly as long as no
  registration installs an action that names a tool of another package, and even then every
  owned action is defined and every action that a package serves has an owner.
-/

namespace CapabilityPipeline

/-! ## Violations, one action at a time -/

/-- The part of the registry that readers see. -/
def Contents.snapshot (c : Contents) : Snapshot :=
  ⟨c.nodes, c.provenance⟩

/-- A definition and an owner agree: an owned action is defined, and an action that a package
serves is owned by it. -/
def Agrees (view : Option Action × Option String) : Prop :=
  (∀ owner, view.2 = some owner → ∃ action, view.1 = some action) ∧
    ∀ action packageId, view.1 = some action → action.handler.packageId? = some packageId →
      view.2 = some packageId

namespace Contents

theorem route_eq_ok_iff (c : Contents) (node name : String) (action : Action) :
    c.snapshot.route node name = .ok action ↔ c.action? node name = some action := by
  unfold snapshot Snapshot.route action?
  dsimp only
  cases c.nodes.get? node with
  | none => simp
  | some n =>
    rw [Option.bind_some]
    dsimp only
    cases n.actions.get? name <;> simp

theorem undefinedAction_mem_violations (c : Contents) (node name owner : String) :
    .undefinedAction node name owner ∈ c.snapshot.violations ↔
      c.provenance.owner? node name = some owner ∧ c.action? node name = none := by
  have route := c.route_eq_ok_iff node name
  unfold Snapshot.violations
  simp only [List.mem_append, List.mem_filterMap, List.mem_flatMap]
  constructor
  · rintro (⟨⟨n, a, p⟩, hmem, h⟩ | ⟨⟨id, n⟩, -, ⟨a, act⟩, -, h⟩)
    · dsimp only at h
      split at h
      · cases h
      · next e notFound =>
        cases h
        refine ⟨Provenance.mem_entries.mp hmem, ?_⟩
        rw [Option.eq_none_iff_forall_ne_some]
        intro action found
        cases notFound.symm.trans ((route action).mpr found)
    · dsimp only at h
      split at h
      · cases h
      · split at h <;> cases h
  · rintro ⟨owned, undefined⟩
    refine .inl ⟨(node, name, owner), Provenance.mem_entries.mpr owned, ?_⟩
    dsimp only
    split
    · next action found => cases undefined.symm.trans ((route action).mp found)
    · rfl

theorem unrecordedOwner_mem_violations (c : Contents) (node name packageId : String) :
    .unrecordedOwner node name packageId ∈ c.snapshot.violations ↔
      ∃ action, c.action? node name = some action ∧
        action.handler.packageId? = some packageId ∧
        c.provenance.owner? node name ≠ some packageId := by
  unfold Snapshot.violations
  simp only [List.mem_append, List.mem_filterMap, List.mem_flatMap]
  constructor
  · rintro (⟨⟨n, a, p⟩, -, h⟩ | ⟨⟨id, n⟩, hn, ⟨a, act⟩, ha, h⟩)
    · dsimp only at h
      split at h <;> cases h
    · dsimp only at h
      split at h
      · cases h
      · next q handled =>
        split at h
        · cases h
        · next unrecorded =>
          cases h
          refine ⟨act, ?_, handled, unrecorded⟩
          unfold action?
          rw [show c.nodes.get? node = some n from NameMap.mem_entries.mp hn, Option.bind_some]
          exact NameMap.mem_entries.mp ha
  · rintro ⟨action, defined, handled, unrecorded⟩
    obtain ⟨n, hn, ha⟩ := Option.bind_eq_some_iff.mp defined
    refine .inr ⟨(node, n), NameMap.mem_entries.mpr hn, (name, action),
      NameMap.mem_entries.mpr ha, ?_⟩
    dsimp only
    rw [handled]
    dsimp only
    rw [if_neg]
    exact unrecorded

/-- Consistency, one action at a time. -/
theorem violations_eq_nil_iff (c : Contents) :
    c.snapshot.violations = [] ↔ ∀ node name, Agrees (c.view node name) := by
  constructor
  · intro none_ node name
    constructor
    · intro owner owned
      by_contra undefined
      have : Violation.undefinedAction node name owner ∈ c.snapshot.violations :=
        (c.undefinedAction_mem_violations node name owner).mpr
          ⟨owned, Option.eq_none_iff_forall_ne_some.mpr fun a h => undefined ⟨a, h⟩⟩
      rw [none_] at this
      cases this
    · intro action packageId defined handled
      by_contra unrecorded
      have : Violation.unrecordedOwner node name packageId ∈ c.snapshot.violations :=
        (c.unrecordedOwner_mem_violations node name packageId).mpr
          ⟨action, defined, handled, unrecorded⟩
      rw [none_] at this
      cases this
  · intro agrees
    rw [List.eq_nil_iff_forall_not_mem]
    intro v hv
    cases v with
    | undefinedAction node name owner =>
      obtain ⟨owned, undefined⟩ := (c.undefinedAction_mem_violations node name owner).mp hv
      obtain ⟨action, defined⟩ := (agrees node name).1 owner owned
      rw [show c.action? node name = some action from defined] at undefined
      cases undefined
    | unrecordedOwner node name packageId =>
      obtain ⟨action, defined, handled, unrecorded⟩ :=
        (c.unrecordedOwner_mem_violations node name packageId).mp hv
      exact unrecorded ((agrees node name).2 action packageId defined handled)

/-! ## Single changes -/

end Contents

theorem agrees_none : Agrees (none, none) :=
  ⟨fun _ h => (by cases h), fun _ _ h => (by cases h)⟩

/-- A change that a package makes to the registry. -/
inductive Change where
  | register (packageId : String) (manifest : Manifest)
  | unregister (packageId : String)

namespace Contents

/-- The contents after a change. -/
def apply (c : Contents) : Change → Contents
  | .register packageId manifest => (c.register packageId manifest).contents
  | .unregister packageId => (c.unregister packageId).1

/-- A change installs an action that a tool of another package is to serve. -/
def InstallsForeign (c : Contents) : Change → Prop
  | .register packageId manifest => ∃ node name entry other tool,
      c.installed? packageId manifest node name = some entry ∧
        entry.handler = some (.package other tool) ∧ other ≠ packageId
  | .unregister _ => False

/-- A contributed action agrees with its owner unless it names a tool of another package. -/
theorem agrees_viewed_iff {entry : ManifestAction} {packageId name : String} :
    Agrees (entry.viewed packageId name) ↔
      ∀ other tool, entry.handler = some (.package other tool) → other = packageId := by
  unfold Agrees ManifestAction.viewed ManifestAction.toAction
  constructor
  · rintro ⟨-, served⟩ other tool handler
    have h := served _ other rfl
    rw [handler] at h
    exact (Option.some.inj (h rfl)).symm
  · intro own
    refine ⟨fun _ _ => ⟨_, rfl⟩, fun action other defined handled => ?_⟩
    cases defined
    cases handler : entry.handler with
    | none =>
      rw [handler] at handled
      exact handled
    | some h =>
      rw [handler] at handled
      cases h with
      | code => cases handled
      | package p tool =>
        cases handled
        rw [own other tool handler]

/-- One change keeps consistency unless it installs an action for a tool of another package. -/
theorem agrees_apply_iff {c : Contents} (agrees : ∀ node name, Agrees (c.view node name))
    (change : Change) :
    (∀ node name, Agrees ((c.apply change).view node name)) ↔ ¬c.InstallsForeign change := by
  cases change with
  | unregister packageId =>
    refine ⟨fun _ => id, fun _ node name => ?_⟩
    unfold apply
    rw [view_unregister]
    split
    · exact agrees_none
    · exact agrees node name
  | register packageId manifest =>
    unfold apply InstallsForeign
    dsimp only
    constructor
    · rintro after ⟨node, name, entry, other, tool, installed, handler, foreign⟩
      have h := after node name
      rw [view_register, installed] at h
      exact foreign (agrees_viewed_iff.mp h other tool handler)
    · intro own node name
      rw [view_register]
      cases installed : c.installed? packageId manifest node name with
      | none => exact agrees node name
      | some entry =>
        refine agrees_viewed_iff.mpr fun other tool handler => ?_
        by_contra foreign
        exact own ⟨node, name, entry, other, tool, installed, handler, foreign⟩

/-! ## Histories -/

/-- The contents after a sequence of changes. -/
def history (c : Contents) (changes : List Change) : Contents :=
  changes.foldl apply c

theorem history_concat (c : Contents) (changes : List Change) (change : Change) :
    c.history (changes ++ [change]) = (c.history changes).apply change := by
  unfold history
  rw [List.foldl_append, List.foldl_cons, List.foldl_nil]

/-- Where the definition and the owner of an action come from. -/
theorem view_history (c : Contents) (changes : List Change) (node name : String) :
    (c.history changes).view node name = c.view node name ∨
      (c.history changes).view node name = (none, none) ∨
      ∃ packageId manifest entry, .register packageId manifest ∈ changes ∧
        manifest.entry? node name = some entry ∧
        (c.history changes).view node name = entry.viewed packageId name := by
  induction changes using List.reverseRecOn with
  | nil => exact .inl rfl
  | append_singleton changes change ih =>
    rw [history_concat]
    have unchanged : ((c.history changes).apply change).view node name =
        (c.history changes).view node name →
        ((c.history changes).apply change).view node name = c.view node name ∨
        ((c.history changes).apply change).view node name = (none, none) ∨
        ∃ packageId manifest entry, .register packageId manifest ∈ changes ++ [change] ∧
          manifest.entry? node name = some entry ∧
          ((c.history changes).apply change).view node name = entry.viewed packageId name := by
      intro same
      rw [same]
      rcases ih with h | h | ⟨p, m, entry, hmem, h⟩
      · exact .inl h
      · exact .inr (.inl h)
      · exact .inr (.inr ⟨p, m, entry, List.mem_append_left _ hmem, h⟩)
    cases change with
    | unregister packageId =>
      have view := view_unregister (c.history changes) packageId node name
      split at view
      · exact .inr (.inl view)
      · exact unchanged view
    | register packageId manifest =>
      have view := view_register (c.history changes) packageId manifest node name
      cases installed : (c.history changes).installed? packageId manifest node name with
      | none =>
        rw [installed] at view
        exact unchanged view
      | some entry =>
        rw [installed] at view
        unfold installed? at installed
        split at installed
        · exact .inr (.inr ⟨packageId, manifest, entry,
            List.mem_append_right _ (List.mem_singleton_self _), installed, view⟩)
        · cases installed

/-- The registry is consistent at every point of a history. -/
def StaysConsistent (c : Contents) (changes : List Change) : Prop :=
  ∀ done, done <+: changes → (c.history done).snapshot.violations = []

/-- No change of a history installs an action that a tool of another package is to serve. -/
def NeverForeign (c : Contents) (changes : List Change) : Prop :=
  ∀ done change, done ++ [change] <+: changes → ¬(c.history done).InstallsForeign change

theorem agrees_history_iff {c : Contents} (agrees : ∀ node name, Agrees (c.view node name))
    (changes : List Change) :
    (∀ done, done <+: changes → ∀ node name, Agrees ((c.history done).view node name)) ↔
      c.NeverForeign changes := by
  constructor
  · intro always done change before
    rw [← agrees_apply_iff (always done ((List.prefix_append _ _).trans before)),
      ← history_concat]
    exact always _ before
  · intro own done
    induction done using List.reverseRecOn with
    | nil => intro _; exact agrees
    | append_singleton done change ih =>
      intro before
      rw [history_concat, agrees_apply_iff (ih ((List.prefix_append _ _).trans before))]
      exact own done change before

end Contents

/-- An action stands as a registration among changes has declared it: it is recorded as the
package's own, and it is for a tool of another package to serve. -/
def Snapshot.Borrows (s : Snapshot) (changes : List Change) (node name other : String) : Prop :=
  ∃ owner manifest entry tool,
    .register owner manifest ∈ changes ∧ manifest.entry? node name = some entry ∧
      entry.handler = some (.package other tool) ∧ other ≠ owner ∧
      s.route node name = .ok (entry.toAction owner name) ∧
      s.provenance.owner? node name = some owner

namespace Snapshot

variable {s : Snapshot} {changes more : List Change} {node name other : String}

theorem Borrows.mono (borrows : s.Borrows changes node name other) (some : changes ⊆ more) :
    s.Borrows more node name other := by
  obtain ⟨owner, manifest, entry, tool, mem, rest⟩ := borrows
  exact ⟨owner, manifest, entry, tool, some mem, rest⟩

/-- Such an action is reported, whatever else there is. -/
theorem Borrows.mem_violations (borrows : s.Borrows changes node name other) :
    .unrecordedOwner node name other ∈ s.violations := by
  obtain ⟨owner, manifest, entry, tool, -, -, handler, foreign, defined, owned⟩ := borrows
  let c : Contents := ⟨s.nodes, s.provenance, .empty⟩
  refine (c.unrecordedOwner_mem_violations node name other).mpr
    ⟨_, (c.route_eq_ok_iff node name _).mp defined, ?_, fun same => ?_⟩
  · rw [ManifestAction.toAction, handler]
    rfl
  · exact foreign (Option.some.inj (same.symm.trans owned))

end Snapshot

namespace Contents

/-- A definition and an owner that have come to disagree stand as a registration has declared them,
for a tool of another package. -/
theorem exists_entry_of_not_agrees {c : Contents} (agrees : ∀ node name, Agrees (c.view node name))
    {changes : List Change} {node name : String}
    (bad : ¬Agrees ((c.history changes).view node name)) :
    ∃ packageId manifest entry other tool, .register packageId manifest ∈ changes ∧
      manifest.entry? node name = some entry ∧ entry.handler = some (.package other tool) ∧
      other ≠ packageId ∧
      (c.history changes).action? node name = some (entry.toAction packageId name) ∧
      (c.history changes).provenance.owner? node name = some packageId := by
  rcases view_history c changes node name with same | gone | ⟨p, m, entry, mem, declared, stands⟩
  · exact absurd (same ▸ agrees node name) bad
  · exact absurd (gone ▸ agrees_none) bad
  · rw [stands, agrees_viewed_iff] at bad
    push Not at bad
    obtain ⟨other, tool, handler, foreign⟩ := bad
    exact ⟨p, m, entry, other, tool, mem, declared, handler, foreign, congrArg Prod.fst stands,
      congrArg Prod.snd stands⟩

/-- The violations after a history are the actions that stand as they have been declared on the way
and that a tool of another package is to serve. -/
theorem mem_violations_history_iff {c : Contents} (consistent : c.snapshot.violations = [])
    (changes : List Change) (v : Violation) :
    v ∈ (c.history changes).snapshot.violations ↔
      ∃ node name other, v = .unrecordedOwner node name other ∧
        (c.history changes).snapshot.Borrows changes node name other := by
  have agrees := c.violations_eq_nil_iff.mp consistent
  constructor
  · intro reported
    cases v with
    | undefinedAction node name owner =>
      obtain ⟨owned, undefined⟩ := (undefinedAction_mem_violations _ node name owner).mp reported
      have bad : ¬Agrees ((c.history changes).view node name) := fun agree => by
        obtain ⟨action, defined⟩ := agree.1 owner owned
        cases undefined.symm.trans defined
      obtain ⟨_, _, _, _, _, -, -, -, -, stands, -⟩ := exists_entry_of_not_agrees agrees bad
      cases undefined.symm.trans stands
    | unrecordedOwner node name other =>
      obtain ⟨action, defined, handled, unrecorded⟩ :=
        (unrecordedOwner_mem_violations _ node name other).mp reported
      have bad : ¬Agrees ((c.history changes).view node name) :=
        fun agree => unrecorded (agree.2 action other defined handled)
      obtain ⟨p, m, entry, other', tool, mem, declared, handler, foreign, stands, owned⟩ :=
        exists_entry_of_not_agrees agrees bad
      cases defined.symm.trans stands
      rw [ManifestAction.toAction, handler] at handled
      cases handled
      exact ⟨node, name, other, rfl, p, m, entry, tool, mem, declared, handler, foreign,
        (route_eq_ok_iff _ node name _).mpr stands, owned⟩
  · rintro ⟨node, name, other, rfl, borrows⟩
    exact borrows.mem_violations

/-- **Consistency of histories.** Packages come and go in a consistent registry. It stays
consistent exactly as long as no registration installs an action that a tool of another package
is to serve. Whatever is installed, the violations are the actions whose recorded owner declared
them in a manifest as tools of another package: owned actions are always defined, and actions that
a package serves always have an owner. -/
theorem violations_history_iff {c : Contents} (consistent : c.snapshot.violations = [])
    (changes : List Change) :
    (c.StaysConsistent changes ↔ c.NeverForeign changes) ∧
      ∀ v, v ∈ (c.history changes).snapshot.violations ↔
        ∃ node name other, v = .unrecordedOwner node name other ∧
          (c.history changes).snapshot.Borrows changes node name other := by
  refine ⟨?_, mem_violations_history_iff consistent changes⟩
  rw [← agrees_history_iff (c.violations_eq_nil_iff.mp consistent)]
  exact forall₂_congr fun done _ => (c.history done).violations_eq_nil_iff

/-- A registry with one action, which no package owns. -/
def builtInClock : Contents :=
  ⟨NameMap.empty.insert "system" ((Node.ofId "system").withAction "time" (.code "Current time")),
    .empty, .empty⟩

/-- A manifest with an action that a tool of the package `mail` is to serve. -/
def borrowedTool : Manifest :=
  .single "system"
    ⟨NameMap.empty.insert "alarm" ⟨"", none, none, some (.package "mail" "ring")⟩, []⟩ none

/-- Consistency is not kept by every registration. -/
theorem consistency_lost_borrowedTool :
    ¬∀ (c : Contents) (changes : List Change), c.snapshot.violations = [] →
      (c.history changes).snapshot.violations = [] :=
  fun kept => absurd (kept builtInClock [.register "clock" borrowedTool] (by decide)) (by decide)

end Contents

end CapabilityPipeline
