import CapabilityPipeline.Proofs.Registry.Reinstallation

/-!
# Where guides stand

A guide of a node is on the list of the node a number of times, and some packages hold it. Of what
registering and unregistering do to a guide nothing matters but this standing: a package that
contributes the guide joins it, and a package that goes leaves it. Packages join and leave in any
order with the same outcome.

Results:

* `Standing.join_comm`, `Standing.leave_comm`, `Standing.leave_join`: packages join and leave in
  any order.
* `Contents.standing_register`: a package that installs an action of a node joins the guides that
  it contributes to the node.
* `Contents.standing_unregister`: a package that is unregistered leaves every guide.
-/

namespace CapabilityPipeline

/-! ## Sets of names -/

namespace NameSet

variable (s : NameSet) (name other : String)

theorem isEmpty_add : (s.add name).isEmpty = false := by
  refine Bool.eq_false_iff.mpr fun empty => ?_
  have none := NameMap.isEmpty_iff.mp empty name
  rw [add, NameMap.get?_insert, if_pos rfl] at none
  cases none

theorem add_comm : (s.add name).add other = (s.add other).add name := by
  refine NameMap.ext_get? fun key => ?_
  simp only [add, NameMap.get?_insert]
  split <;> split <;> rfl

theorem add_self : (s.add name).add name = s.add name := by
  refine NameMap.ext_get? fun key => ?_
  simp only [add, NameMap.get?_insert]
  split <;> rfl

theorem erase_comm : (s.erase name).erase other = (s.erase other).erase name := by
  refine NameMap.ext_get? fun key => ?_
  simp only [NameMap.get?_erase]
  split <;> split <;> rfl

variable {name other}

theorem add_erase (different : name ≠ other) :
    NameMap.erase (s.add name) other = add (s.erase other) name := by
  refine NameMap.ext_get? fun key => ?_
  simp only [add, NameMap.get?_erase, NameMap.get?_insert]
  split
  · next same =>
    subst same
    rw [if_neg different.symm]
  · rfl

theorem erase_eq_self (absent : s.contains name = false) : s.erase name = s := by
  refine NameMap.ext_get? fun key => ?_
  rw [NameMap.get?_erase]
  split
  · next same =>
    subst same
    exact (Option.not_isSome_iff_eq_none.mp (Bool.eq_false_iff.mp absent)).symm
  · rfl

end NameSet

/-! ## Joining and leaving -/

/-- How often a guide is on the list of its node, and which packages hold it. -/
structure Standing where
  listed : Nat
  holders : NameSet

namespace Standing

/-- A package contributes the guide. One that is listed is held only if packages hold it. -/
def join (s : Standing) (packageId : String) : Standing :=
  if s.listed = 0 then ⟨1, s.holders.add packageId⟩
  else if s.holders.isEmpty then s else { s with holders := s.holders.add packageId }

/-- A package holds the guide, and no other does. -/
def heldAlone (s : Standing) (packageId : String) : Bool :=
  s.holders.contains packageId && (s.holders.erase packageId).isEmpty

/-- A package goes, and the guide with it if no other package holds it. -/
def leave (s : Standing) (packageId : String) : Standing :=
  ⟨if s.heldAlone packageId then 0 else s.listed, s.holders.erase packageId⟩

/-- A guide that is held is listed once. -/
def Sound (s : Standing) : Prop :=
  s.holders.isEmpty = false → s.listed = 1

variable (s : Standing) {p q : String}

theorem join_listed (h : s.listed ≠ 0) (held : s.holders.isEmpty = false) :
    s.join p = ⟨s.listed, s.holders.add p⟩ := by
  rw [join, if_neg h, held]
  rfl

theorem join_unlisted (h : s.listed = 0) : s.join p = ⟨1, s.holders.add p⟩ := by
  rw [join, if_pos h]

/-- A guide of the node itself is joined by nobody. -/
theorem join_own (h : s.listed ≠ 0) (own : s.holders.isEmpty = true) : s.join p = s := by
  rw [join, if_neg h, if_pos own]

theorem join_self : (s.join p).join p = s.join p := by
  have joined (n : Nat) : join ⟨n + 1, s.holders.add p⟩ p = ⟨n + 1, s.holders.add p⟩ := by
    rw [join_listed _ (Nat.succ_ne_zero n) (NameSet.isEmpty_add _ _), NameSet.add_self]
  by_cases h : s.listed = 0
  · rw [join_unlisted s h, joined]
  · cases held : s.holders.isEmpty with
    | true => rw [join_own s h held, join_own s h held]
    | false =>
      obtain ⟨n, listed⟩ := Nat.exists_eq_succ_of_ne_zero h
      rw [join_listed s h held, listed, joined]

/-- **Packages join in any order.** -/
theorem join_comm : (s.join p).join q = (s.join q).join p := by
  have joined (n : Nat) (p q : String) :
      join ⟨n + 1, s.holders.add p⟩ q = ⟨n + 1, (s.holders.add p).add q⟩ :=
    join_listed _ (Nat.succ_ne_zero n) (NameSet.isEmpty_add _ _)
  by_cases h : s.listed = 0
  · rw [join_unlisted s h, join_unlisted s h, joined, joined, NameSet.add_comm]
  · cases held : s.holders.isEmpty with
    | true => rw [join_own s h held, join_own s h held, join_own s h held]
    | false =>
      obtain ⟨n, listed⟩ := Nat.exists_eq_succ_of_ne_zero h
      rw [join_listed s h held, join_listed s h held, listed, joined, joined, NameSet.add_comm]

theorem heldAlone_iff :
    s.heldAlone p = true ↔ ∀ other, s.holders.contains other = true ↔ other = p := by
  rw [heldAlone, Bool.and_eq_true]
  constructor
  · rintro ⟨held, others⟩ other
    refine ⟨fun holds => ?_, fun same => same ▸ held⟩
    by_contra different
    have left := (NameSet.contains_erase s.holders p other).mpr ⟨different, holds⟩
    rw [NameMap.contains, NameMap.isEmpty_iff.mp others other] at left
    cases left
  · intro alone
    refine ⟨(alone p).mpr rfl, NameMap.isEmpty_iff.mpr fun other => ?_⟩
    refine Option.not_isSome_iff_eq_none.mp fun left => ?_
    obtain ⟨different, holds⟩ := (NameSet.contains_erase s.holders p other).mp left
    exact different ((alone other).mp holds)

theorem heldAlone_of_isEmpty (h : s.holders.isEmpty = true) : s.heldAlone p = false := by
  rw [heldAlone, NameMap.contains, NameMap.isEmpty_iff.mp h p]
  rfl

/-- After two packages a guide is gone that some package held, and no third one. -/
theorem leave_leave : (s.leave p).leave q =
    ⟨if s.holders.isEmpty = false ∧ NameMap.isEmpty ((s.holders.erase p).erase q) = true then 0
      else s.listed, (s.holders.erase p).erase q⟩ := by
  have gone : (s.heldAlone p = true ∨ (s.leave p).heldAlone q = true) ↔
      s.holders.isEmpty = false ∧ NameMap.isEmpty ((s.holders.erase p).erase q) = true := by
    show (s.heldAlone p = true ∨ heldAlone ⟨_, s.holders.erase p⟩ q = true) ↔ _
    constructor
    · rintro (alone | alone)
      · obtain ⟨held, others⟩ := Bool.and_eq_true_iff.mp alone
        refine ⟨Bool.eq_false_iff.mpr fun none => ?_, NameMap.isEmpty_iff.mpr fun other => ?_⟩
        · rw [NameMap.contains, NameMap.isEmpty_iff.mp none p] at held
          cases held
        · rw [NameMap.get?_erase, NameMap.isEmpty_iff.mp others other, ite_self]
      · obtain ⟨held, others⟩ := Bool.and_eq_true_iff.mp alone
        refine ⟨Bool.eq_false_iff.mpr fun none => ?_, others⟩
        have holds := ((NameSet.contains_erase s.holders p q).mp held).2
        rw [NameMap.contains, NameMap.isEmpty_iff.mp none q] at holds
        cases holds
    · rintro ⟨some, none⟩
      cases left : NameMap.isEmpty (s.holders.erase p) with
      | true =>
        refine .inl (Bool.and_eq_true_iff.mpr ⟨?_, left⟩)
        by_contra absent
        rw [NameSet.erase_eq_self _ (Bool.eq_false_iff.mpr absent), some] at left
        cases left
      | false =>
        refine .inr (Bool.and_eq_true_iff.mpr ⟨?_, none⟩)
        by_contra absent
        rw [NameSet.erase_eq_self _ (Bool.eq_false_iff.mpr absent), left] at none
        cases none
  have listed : ((s.leave p).leave q).listed =
      if s.heldAlone p = true ∨ (s.leave p).heldAlone q = true then 0 else s.listed := by
    show (if (s.leave p).heldAlone q then 0 else if s.heldAlone p then 0 else s.listed) = _
    cases s.heldAlone p <;> cases (s.leave p).heldAlone q <;> rfl
  have both : (s.leave p).leave q = ⟨((s.leave p).leave q).listed, (s.holders.erase p).erase q⟩ :=
    rfl
  rw [both, listed]
  simp only [gone]

/-- **Packages leave in any order.** -/
theorem leave_comm : (s.leave p).leave q = (s.leave q).leave p := by
  rw [leave_leave, leave_leave, NameSet.erase_comm]

variable {s}

/-- **It makes no difference whether a package leaves before or after another joins.** If it held
the guide alone, the guide goes and comes again. -/
theorem leave_join (sound : s.Sound) (different : q ≠ p) :
    (s.leave p).join q = (s.join q).leave p := by
  -- who has joined is there when the other leaves
  have stays (n : Nat) : leave ⟨n, s.holders.add q⟩ p = ⟨n, NameSet.add (s.holders.erase p) q⟩ := by
    have left := NameSet.add_erase s.holders different
    rw [leave, heldAlone]
    dsimp only
    rw [left, NameSet.isEmpty_add, Bool.and_false]
    rfl
  cases held : s.holders.isEmpty with
  | true =>
    have none : s.holders.erase p = s.holders :=
      NameSet.erase_eq_self _ (by rw [NameMap.contains, NameMap.isEmpty_iff.mp held p]; rfl)
    have left : s.leave p = s := by
      rw [leave, heldAlone_of_isEmpty s held, none]
      rfl
    by_cases h : s.listed = 0
    · rw [left, join_unlisted s h, stays, none]
    · rw [left, join_own s h held, left]
  | false =>
    have once := sound held
    rw [join_listed s (by rw [once]; decide) held, stays]
    rw [leave]
    cases alone : s.heldAlone p with
    | true =>
      rw [if_pos rfl, join_unlisted _ rfl, once]
    | false =>
      have others : NameMap.isEmpty (s.holders.erase p) = false := by
        refine Bool.eq_false_iff.mpr fun others => ?_
        rw [heldAlone, others, Bool.and_true] at alone
        rw [NameSet.erase_eq_self _ alone, held] at others
        cases others
      rw [if_neg Bool.false_ne_true, join_listed _ (by dsimp only; rw [once]; decide) others]

end Standing

/-! ## Guides of a registry -/

namespace Contents

/-- The list of guides of a node, empty if there is no such node. -/
def guideList (c : Contents) (node : String) : List String :=
  (guides? c.nodes node).getD []

/-- How a guide of a node stands. -/
def standing (c : Contents) (node guide : String) : Standing :=
  ⟨(c.guideList node).count guide, c.guides.holders node guide⟩

/-- A manifest contributes a guide to a node that is there, and the package installs an action of
the node. -/
def brings (c : Contents) (packageId : String) (m : Manifest) (node guide : String) : Bool :=
  (m.contributions.lookup node).any fun contribution =>
    c.nodes.contains node && contribution.guides.contains guide &&
      contribution.actions.entries.any fun e => c.isOpen packageId node e.1

theorem standing_congr {c c' : Contents} (guides : ∀ id, guides? c'.nodes id = guides? c.nodes id)
    (same : c'.guides = c.guides) (node guide : String) :
    c'.standing node guide = c.standing node guide := by
  unfold standing guideList
  rw [guides, same]

/-- A guide that gets another holder is held by one more package. -/
theorem standing_record (c : Contents) (packageId node guide other name : String) :
    ({ c with guides := c.guides.record node guide packageId } : Contents).standing other name =
      if other = node ∧ name = guide then
        ⟨(c.standing other name).listed, (c.standing other name).holders.add packageId⟩
      else c.standing other name := by
  unfold standing guideList
  rw [GuideOwners.holders_record]
  split
  · next here => rw [here.1, here.2]
  · rfl

/-- A guide that comes to the list of its node is listed once. -/
theorem standing_modify_addGuide {c : Contents} {node : String} {n : Node}
    (found : c.nodes.get? node = some n) {guide : String} (new : guide ∉ n.guides)
    (other name : String) :
    ({ c with nodes := c.nodes.modify node fun n => n.addGuide guide } : Contents).standing other
        name =
      if other = node ∧ name = guide then ⟨1, (c.standing other name).holders⟩
      else c.standing other name := by
  have last : (n.addGuide guide).guides = n.guides ++ [guide] := by
    rw [Node.addGuide, if_neg fun on => new (List.contains_iff_mem.mp on)]
  unfold standing guideList
  dsimp only
  rw [guides?_modify]
  by_cases here : other = node
  · subst here
    rw [if_pos rfl, guides?, found, Option.map_some, Option.map_some, last, Option.getD_some,
      Option.getD_some, List.count_append, List.count_singleton]
    by_cases same : name = guide
    · subst same
      simp [List.count_eq_zero.mpr new]
    · simp [same, Ne.symm same]
  · rw [if_neg here, if_neg fun h => here h.1]

theorem listed_eq_zero_iff {c : Contents} {node : String} {n : Node}
    (found : c.nodes.get? node = some n) (guide : String) :
    (c.standing node guide).listed = 0 ↔ guide ∉ n.guides := by
  unfold standing guideList guides?
  rw [found]
  exact List.count_eq_zero

end Contents

/-- A guide has an entry when some package holds it. -/
theorem GuideOwners.Filled.isOwned_eq {g : GuideOwners} (h : g.Filled) (node guide : String) :
    g.isOwned node guide = !(g.holders node guide).isEmpty := by
  refine Bool.eq_iff_iff.mpr ⟨fun owned => ?_, fun some => ?_⟩
  · obtain ⟨packageId, holds⟩ := h.exists_holder owned
    rw [Bool.not_eq_true', Bool.eq_false_iff]
    intro none
    rw [NameMap.contains, NameMap.isEmpty_iff.mp none packageId] at holds
    cases holds
  · by_contra unowned
    have none : NameMap.isEmpty (g.holders node guide) = true :=
      NameMap.isEmpty_iff.mpr fun packageId => Option.not_isSome_iff_eq_none.mp fun holds =>
        unowned (GuideOwners.isOwned_of_contains_holders holds)
    rw [none] at some
    cases some

/-! ## Registering -/

namespace Merge

open Contents

variable {m : Merge} {node : String}

theorem standing_addAction (m : Merge) (packageId node name : String) (entry : ManifestAction)
    (other guide : String) : (m.addAction packageId node name entry).contents.standing other guide =
      m.contents.standing other guide := by
  rw [contents_addAction]
  split
  · have same : (m.install packageId node name entry).contents.guides = m.contents.guides := rfl
    refine standing_congr (fun id => ?_) same other guide
    unfold install
    rw [guides?_modify]
    split
    · rfl
    · rfl
  · rfl

theorem guides_addAction (m : Merge) (packageId node name : String) (entry : ManifestAction) :
    (m.addAction packageId node name entry).contents.guides = m.contents.guides := by
  rw [contents_addAction]
  split
  · rfl
  · rfl

theorem filledGuides_addGuide (filled : m.contents.guides.Filled) (packageId guide : String) :
    (m.addGuide packageId node guide).contents.guides.Filled := by
  unfold addGuide
  dsimp only
  split
  · split
    · exact filled.record node guide packageId
    · exact filled
  · exact filled.record node guide packageId

/-- An action is registered if no other package owns it. -/
theorem registered_addAction (m : Merge) (packageId node name : String) (entry : ManifestAction) :
    (m.addAction packageId node name entry).report.registered =
      m.report.registered + if m.contents.isOpen packageId node name then 1 else 0 := by
  unfold addAction Contents.isOpen
  cases m.contents.provenance.owner? node name with
  | none =>
    dsimp only
    split <;> rfl
  | some owner =>
    by_cases h : owner = packageId
    · simp [h, install]
    · simp [h, warn]

theorem registered_foldl_addAction (packageId : String) (entries : List (String × ManifestAction))
    (present : m.contents.nodes.contains node = true) :
    (entries.foldl (fun m e => m.addAction packageId node e.1 e.2) m).report.registered =
      m.report.registered + entries.countP fun e => m.contents.isOpen packageId node e.1 := by
  induction entries generalizing m with
  | nil => rfl
  | cons e rest ih =>
    have still := (contains_addAction m packageId node e.1 node e.2).trans present
    rw [List.foldl_cons, ih still, registered_addAction, List.countP_cons]
    simp only [isOpen_addAction present]
    omega

/-- A guide that a package contributes is joined by the package, others stand as they did. -/
theorem standing_addGuide (filled : m.contents.guides.Filled)
    (present : m.contents.nodes.contains node = true) (packageId guide other name : String) :
    (m.addGuide packageId node guide).contents.standing other name =
      if other = node ∧ name = guide then (m.contents.standing other name).join packageId
      else m.contents.standing other name := by
  obtain ⟨n, found⟩ := NameMap.contains_iff.mp present
  have unlisted := m.contents.listed_eq_zero_iff found guide
  have recorded := m.contents.standing_record packageId node guide other name
  unfold addGuide
  dsimp only
  rw [found, Option.any_some]
  cases on : n.guides.contains guide with
  | true =>
    have listed : (m.contents.standing node guide).listed ≠ 0 := fun none =>
      unlisted.mp none (List.contains_iff_mem.mp on)
    rw [if_pos rfl, filled.isOwned_eq]
    cases empty : (m.contents.guides.holders node guide).isEmpty with
    | true =>
      rw [Bool.not_true, if_neg Bool.false_ne_true]
      split
      · next here =>
        rw [here.1, here.2]
        exact (Standing.join_own _ listed empty).symm
      · rfl
    | false =>
      rw [Bool.not_false, if_pos rfl]
      refine recorded.trans ?_
      split
      · next here =>
        rw [here.1, here.2]
        exact (Standing.join_listed _ listed empty).symm
      · rfl
  | false =>
    have new : guide ∉ n.guides := fun mem => by
      rw [List.contains_iff_mem.mpr mem] at on
      cases on
    rw [if_neg Bool.false_ne_true]
    refine (standing_modify_addGuide (c := { m.contents with
      guides := m.contents.guides.record node guide packageId }) found new other name).trans ?_
    rw [recorded]
    split
    · next here =>
      rw [here.1, here.2]
      exact (Standing.join_unlisted _ (unlisted.mpr new)).symm
    · rfl

theorem standing_foldl_addGuide (filled : m.contents.guides.Filled)
    (present : m.contents.nodes.contains node = true) (packageId : String) (guides : List String)
    (other name : String) :
    (guides.foldl (fun m guide => m.addGuide packageId node guide) m).contents.standing other name =
      if other = node ∧ name ∈ guides then (m.contents.standing other name).join packageId
      else m.contents.standing other name := by
  induction guides generalizing m with
  | nil => simp
  | cons guide rest ih =>
    have still := (contains_addGuide m packageId node guide node).trans present
    rw [List.foldl_cons, ih (filledGuides_addGuide filled packageId guide) still,
      standing_addGuide filled present]
    by_cases here : other = node
    · by_cases first : name = guide
      · by_cases later : name ∈ rest
        · simp only [here, first, List.mem_cons, true_or, and_self, if_true, Standing.join_self,
            first ▸ later]
        · simp only [here, first, List.mem_cons, true_or, and_self, if_true,
            first ▸ later, and_false, if_false]
      · simp only [here, first, List.mem_cons, false_or, and_false, if_false]
    · simp only [here, false_and, if_false]

/-- A package that contributes to a node joins the guides, if it contributes some action. -/
theorem standing_addContribution (filled : m.contents.guides.Filled) (packageId node : String)
    (contribution : Contribution) (other name : String) :
    (m.addContribution packageId node contribution).contents.standing other name =
      if other = node ∧ m.contents.nodes.contains node = true ∧ name ∈ contribution.guides ∧
          contribution.actions.entries.any (fun e => m.contents.isOpen packageId node e.1) = true then
        (m.contents.standing other name).join packageId
      else m.contents.standing other name := by
  unfold addContribution
  by_cases present : m.contents.nodes.contains node = true
  · let after := contribution.actions.entries.foldl (fun m e => m.addAction packageId node e.1 e.2) m
    have stands : after.contents.standing other name = m.contents.standing other name :=
      foldl_invariant (P := fun c => c.standing other name = m.contents.standing other name) _
        (fun m e same => (standing_addAction m packageId node e.1 e.2 other name).trans same) _ rfl
    have holders : after.contents.guides = m.contents.guides :=
      foldl_invariant (P := fun c => c.guides = m.contents.guides) _
        (fun m e same => (guides_addAction m packageId node e.1 e.2).trans same) _ rfl
    have still : after.contents.nodes.contains node = true :=
      (contains_foldl _ (fun m e other => contains_addAction m packageId node e.1 other e.2) _ _
        _).trans present
    have more : m.report.registered < after.report.registered ↔
        contribution.actions.entries.any (fun e => m.contents.isOpen packageId node e.1) = true := by
      rw [registered_foldl_addAction packageId _ present, Nat.lt_add_right_iff_pos,
        List.countP_pos_iff, List.any_eq_true]
    rw [if_pos present]
    dsimp only
    split
    · next some =>
      rw [standing_foldl_addGuide (holders ▸ filled) still, stands]
      simp only [present, more.mp some, true_and, and_true]
    · next none =>
      rw [if_neg fun h => none (more.mpr h.2.2.2)]
      exact stands
  · rw [if_neg present, if_neg fun h => present h.2.1]
    exact foldl_invariant (P := fun c => c.standing other name = m.contents.standing other name)
      (fun m act => m.warn (.unknownNode node act)) (fun _ _ same => same) _ rfl

end Merge

namespace Contents

variable {c : Contents}

theorem filledGuides_addContribution {m : Merge} (filled : m.contents.guides.Filled)
    (packageId node : String) (contribution : Contribution) :
    (m.addContribution packageId node contribution).contents.guides.Filled :=
  addContribution_invariant (P := fun c => c.guides.Filled)
    (fun m node name entry h => (m.guides_addAction packageId node name entry).symm ▸ h)
    (fun _ _ guide h => Merge.filledGuides_addGuide h packageId guide) node contribution filled

theorem filledGuides_register (filled : c.guides.Filled) (packageId : String) (m : Manifest) :
    (c.register packageId m).contents.guides.Filled :=
  Merge.foldl_invariant (P := fun c => c.guides.Filled) _
    (fun _ e h => filledGuides_addContribution h packageId e.1 e.2) m.contributions filled

/-- A contribution to one node opens no actions of another, and closes none. -/
theorem isOpen_addContribution {m : Merge} {node other : String} (different : node ≠ other)
    (packageId act : String) (contribution : Contribution) :
    (m.addContribution packageId other contribution).contents.isOpen packageId node act =
      m.contents.isOpen packageId node act := by
  have view := m.view_addContribution packageId other node act contribution
  rw [if_neg fun h => different h.1] at view
  exact congrArg (fun view => view.2.all (· = packageId)) view

theorem standing_foldl_addContribution (packageId node guide : String)
    (contributions : List (String × Contribution)) {m : Merge} (filled : m.contents.guides.Filled)
    (distinct : (contributions.map Prod.fst).Nodup) :
    (contributions.foldl (fun m e => m.addContribution packageId e.1 e.2) m).contents.standing
        node guide =
      if (contributions.lookup node).any (fun contribution =>
          m.contents.nodes.contains node && contribution.guides.contains guide &&
            contribution.actions.entries.any fun e => m.contents.isOpen packageId node e.1) then
        (m.contents.standing node guide).join packageId
      else m.contents.standing node guide := by
  induction contributions generalizing m with
  | nil => rfl
  | cons e rest ih =>
    obtain ⟨other, contribution⟩ := e
    obtain ⟨once, distinct⟩ := List.nodup_cons.mp distinct
    have first := Merge.standing_addContribution filled packageId other contribution node
      guide
    have later := ih (filledGuides_addContribution filled packageId other contribution) distinct
    rw [List.foldl_cons, later, first, Merge.contains_addContribution]
    by_cases here : node = other
    · subst here
      have absent : rest.lookup node = none := List.lookup_eq_none_iff.mpr fun p hp => by
        have : p.1 ≠ node := fun same => once (same ▸ List.mem_map.mpr ⟨p, hp, rfl⟩)
        simpa using Ne.symm this
      rw [absent, NameMap.lookup_cons_self, Option.any_none, Option.any_some,
        if_neg Bool.false_ne_true]
      simp only [Bool.and_eq_true, List.contains_iff_mem, true_and, and_assoc]
    · rw [NameMap.lookup_cons_ne here]
      simp only [here, false_and, if_false, isOpen_addContribution here]

/-- **A package joins the guides that it brings.** -/
theorem standing_register (filled : c.guides.Filled) (packageId : String) (m : Manifest)
    (node guide : String) :
    (c.register packageId m).contents.standing node guide =
      if c.brings packageId m node guide then (c.standing node guide).join packageId
      else c.standing node guide :=
  standing_foldl_addContribution packageId node guide m.contributions filled m.contributions_nodup

/-! ## Unregistering -/

/-- **A package that is unregistered leaves every guide.** -/
theorem standing_unregister (c : Contents) (packageId node guide : String) :
    (c.unregister packageId).1.standing node guide = (c.standing node guide).leave packageId := by
  have alone : (c.standing node guide).heldAlone packageId =
      decide ((node, guide) ∈ c.guides.heldAlone packageId) := by
    refine Bool.eq_iff_iff.mpr ?_
    rw [Standing.heldAlone_iff, decide_eq_true_iff, GuideOwners.mem_heldAlone]
    rfl
  have holders : (c.unregister packageId).1.guides.holders node guide =
      (c.guides.holders node guide).erase packageId := c.guides.holders_drop packageId node guide
  rw [Standing.leave, alone]
  unfold standing guideList
  rw [holders, guides?_unregister]
  cases guides? c.nodes node with
  | none => simp
  | some guides =>
    rw [Option.map_some, Option.getD_some, Option.getD_some]
    congr 1
    by_cases gone : (node, guide) ∈ c.guides.heldAlone packageId
    · rw [decide_eq_true gone, if_pos rfl, List.count_eq_zero]
      intro mem
      exact absurd gone (of_decide_eq_true (List.mem_filter.mp mem).2)
    · rw [decide_eq_false gone, if_neg Bool.false_ne_true]
      exact List.count_filter (decide_eq_true gone)

end Contents

end CapabilityPipeline
