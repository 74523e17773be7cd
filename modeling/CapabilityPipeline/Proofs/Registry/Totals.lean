import CapabilityPipeline.Proofs.Registry.Standing
import Mathlib.Algebra.BigOperators.Group.List.Basic

/-!
# How many guides a registry lists

A registration adds guides at the ends of the lists of nodes, and an unregistration takes some out
of them. Both count what they do, and the counts are by how much all lists together grow or shrink.

Results:

* `Contents.guideTotal`: how many guides all nodes list.
* `Contents.guideTotal_register`, `Contents.guideTotal_unregister`: the counts of the reports.
* `Contents.guideList_prefix_register`, `Contents.guideList_sublist_unregister`: no list loses a
  guide by a registration, or gets one by an unregistration.
-/

namespace CapabilityPipeline

namespace NameMap

variable {α : Type}

theorem sum_map_modify_of_not_mem (weight : α → Nat) {name : String} (f : α → α)
    {l : List (String × α)} (absent : name ∉ l.map Prod.fst) :
    (l.map fun e => weight (if e.1 = name then f e.2 else e.2)).sum =
      (l.map fun e => weight e.2).sum := by
  refine congrArg List.sum (List.map_congr_left fun e mem => ?_)
  have other : e.1 ≠ name := fun same => absent (same ▸ List.mem_map_of_mem mem)
  rw [if_neg other]

/-- Changing the value of a name changes a sum over the values by the new value for the old. -/
theorem sum_modify (weight : α → Nat) {m : NameMap α} {name : String} {value : α}
    (found : m.get? name = some value) (f : α → α) :
    ((m.modify name f).values.map weight).sum + weight value =
      (m.values.map weight).sum + weight (f value) := by
  have sums (l : List (String × α)) (distinct : (l.map Prod.fst).Nodup)
      (mem : (name, value) ∈ l) :
      (l.map fun e => weight (if e.1 = name then f e.2 else e.2)).sum + weight value =
        (l.map fun e => weight e.2).sum + weight (f value) := by
    induction l with
    | nil => cases mem
    | cons e rest ih =>
      obtain ⟨once, distinct⟩ := List.nodup_cons.mp distinct
      rw [List.map_cons, List.map_cons, List.sum_cons, List.sum_cons]
      -- the name is found once, and the entries before and behind it stay
      rcases List.mem_cons.mp mem with rfl | later
      · rw [if_pos rfl, sum_map_modify_of_not_mem weight f once]
        dsimp only
        omega
      · have other : e.1 ≠ name := fun same => once (same ▸ List.mem_map_of_mem later)
        have := ih distinct later
        rw [if_neg other]
        omega
  have total := sums m.entries m.keys_nodup (mem_entries.mpr found)
  unfold modify mapValues values
  rw [List.map_map, List.map_map, List.map_map]
  exact total

end NameMap

namespace Contents

/-- How many guides all nodes list. -/
def guideTotal (c : Contents) : Nat :=
  (c.nodes.values.map fun n => n.guides.length).sum

/-- A node that changes its list changes the total as well. -/
theorem guideTotal_modify {c : Contents} {node : String} {n : Node}
    (found : c.nodes.get? node = some n) (f : Node → Node) (provenance : Provenance)
    (guides : GuideOwners) :
    guideTotal ⟨c.nodes.modify node f, provenance, guides⟩ + n.guides.length =
      c.guideTotal + (f n).guides.length :=
  NameMap.sum_modify _ found f

theorem guideTotal_modify_of_none {c : Contents} {node : String} (none : c.nodes.get? node = none)
    (f : Node → Node) (provenance : Provenance) (guides : GuideOwners) :
    guideTotal ⟨c.nodes.modify node f, provenance, guides⟩ = c.guideTotal := by
  have untouched : c.nodes.modify node f = c.nodes :=
    NameMap.modify_eq_self fun n found => by
      rw [none] at found
      cases found
  unfold guideTotal
  rw [untouched]

/-- What does not touch guides keeps the total. -/
theorem guideTotal_modify_of_same {c : Contents} (node : String) {f : Node → Node}
    (same : ∀ n, (f n).guides = n.guides) (provenance : Provenance) (guides : GuideOwners) :
    guideTotal ⟨c.nodes.modify node f, provenance, guides⟩ = c.guideTotal := by
  cases found : c.nodes.get? node with
  | none => exact guideTotal_modify_of_none found f provenance guides
  | some n =>
    have changed := guideTotal_modify found f provenance guides
    rw [same] at changed
    exact Nat.add_right_cancel changed

end Contents

/-! ## Registering -/

namespace Merge

open Contents

variable {m : Merge} {packageId node : String}

/-- The guides that are listed are those that were there and those that were added. -/
def Lists (m : Merge) (total : Nat) : Prop :=
  m.contents.guideTotal = total + m.report.guidesAdded

variable {total : Nat}

theorem Lists.warn (h : m.Lists total) (warning : Warning) : (m.warn warning).Lists total := h

theorem Lists.install (h : m.Lists total) (packageId node name : String) (entry : ManifestAction) :
    (m.install packageId node name entry).Lists total :=
  (guideTotal_modify_of_same node (f := fun n => n.withAction name (entry.toAction packageId name))
    (fun _ => rfl) _ _).trans h

theorem Lists.addAction (h : m.Lists total) (packageId node name : String)
    (entry : ManifestAction) : (m.addAction packageId node name entry).Lists total := by
  unfold Merge.addAction
  split
  · split
    · exact h.install packageId node name entry
    · exact h.warn _
  · dsimp only
    split
    · exact (h.warn _).install packageId node name entry
    · exact h.install packageId node name entry

/-- A guide is added at the end of the list, and counted. -/
theorem Lists.addGuide (h : m.Lists total) (present : m.contents.nodes.contains node = true)
    (packageId guide : String) : (m.addGuide packageId node guide).Lists total := by
  obtain ⟨n, found⟩ := NameMap.contains_iff.mp present
  unfold Merge.addGuide
  dsimp only
  rw [found, Option.any_some]
  split
  · split
    · exact h
    · exact h
  · next new =>
    have changed := guideTotal_modify found (fun n => n.addGuide guide) m.contents.provenance
      (m.contents.guides.record node guide packageId)
    have longer : (n.addGuide guide).guides.length = n.guides.length + 1 := by
      rw [Node.addGuide, if_neg new]
      exact List.length_append
    unfold Lists at h ⊢
    dsimp only at changed ⊢
    omega

theorem Lists.addContribution (h : m.Lists total) (packageId node : String)
    (contribution : Contribution) :
    (m.addContribution packageId node contribution).Lists total := by
  unfold Merge.addContribution
  dsimp only
  split
  · next present =>
    have actions : (contribution.actions.entries.foldl
        (fun m e => m.addAction packageId node e.1 e.2) m).Lists total :=
      List.foldlRecOn (motive := fun m : Merge => m.Lists total) _ _ h fun _ h e _ =>
        h.addAction packageId node e.1 e.2
    have still := (contains_foldl _ (fun m (e : String × ManifestAction) other =>
      m.contains_addAction packageId node e.1 other e.2) contribution.actions.entries m
        node).trans present
    split
    · have guides := List.foldlRecOn (motive := fun m : Merge =>
          m.Lists total ∧ m.contents.nodes.contains node = true) contribution.guides
        (fun m guide => m.addGuide packageId node guide) ⟨actions, still⟩ fun m h guide _ =>
          ⟨h.1.addGuide h.2 packageId guide,
            (m.contains_addGuide packageId node guide node).trans h.2⟩
      exact guides.1
    · exact actions
  · exact List.foldlRecOn (motive := fun m : Merge => m.Lists total) _ _ h
      fun _ h _ _ => h.warn _

end Merge

namespace Contents

variable {c : Contents}

/-- **Guides added** are those by which the lists of guides grow. -/
theorem guideTotal_register (c : Contents) (packageId : String) (m : Manifest) :
    (c.register packageId m).contents.guideTotal =
      c.guideTotal + (c.register packageId m).report.guidesAdded :=
  List.foldlRecOn (motive := fun m : Merge => m.Lists c.guideTotal) _ _ rfl fun _ h e _ =>
    h.addContribution packageId e.1 e.2

theorem guideList_modify (c : Contents) (node : String) (f : Node → Node) (provenance : Provenance)
    (guides : GuideOwners) (other : String) :
    guideList ⟨c.nodes.modify node f, provenance, guides⟩ other =
      if other = node then ((c.nodes.get? other).map fun n => (f n).guides).getD []
      else c.guideList other := by
  unfold guideList
  rw [guides?_modify]
  split <;> rfl

/-- A list to whose end every change adds. -/
theorem guideList_prefix_modify (c : Contents) (node : String) {f : Node → Node}
    (longer : ∀ n, n.guides <+: (f n).guides) (provenance : Provenance) (guides : GuideOwners)
    (other : String) :
    c.guideList other <+: guideList ⟨c.nodes.modify node f, provenance, guides⟩ other := by
  rw [guideList_modify]
  split
  · unfold guideList guides?
    cases c.nodes.get? other with
    | none => exact List.prefix_rfl
    | some n => exact longer n
  · exact List.prefix_rfl

/-- **Lists of guides grow at their ends** by a registration. -/
theorem guideList_prefix_register (c : Contents) (packageId : String) (m : Manifest)
    (node : String) :
    c.guideList node <+: (c.register packageId m).contents.guideList node := by
  refine register_invariant (P := fun after => c.guideList node <+: after.guideList node)
    (fun m other name entry h => h.trans ?_) (fun m other guide h => h.trans ?_) m List.prefix_rfl
  · rw [Merge.contents_addAction]
    split
    · exact m.contents.guideList_prefix_modify other
        (f := fun n => n.withAction name (entry.toAction packageId name))
        (fun _ => List.prefix_rfl) _ _ node
    · exact List.prefix_rfl
  · have longer (n : Node) : n.guides <+: (n.addGuide guide).guides := by
      unfold Node.addGuide
      split
      · exact List.prefix_rfl
      · exact List.prefix_append _ _
    unfold Merge.addGuide
    dsimp only
    split
    · split <;> exact List.prefix_rfl
    · exact m.contents.guideList_prefix_modify other longer _ _ node

/-! ## Unregistering -/

theorem guideTotal_foldl_removeAction (owned : List (String × String)) (c : Contents) :
    (owned.foldl (fun c e => c.removeAction e.1 e.2) c).guideTotal = c.guideTotal := by
  induction owned generalizing c with
  | nil => rfl
  | cons e rest ih =>
    refine (ih (c.removeAction e.1 e.2)).trans ?_
    exact guideTotal_modify_of_same e.1 (f := fun n => n.removeAction e.2) (fun _ => rfl) _ _

/-- A guide that is removed is counted as often as it was listed. -/
theorem guideTotal_removeGuide (c : Contents) (node guide : String) :
    (c.removeGuide node guide).1.guideTotal + (c.removeGuide node guide).2 = c.guideTotal := by
  unfold removeGuide
  cases found : c.nodes.get? node with
  | none => exact guideTotal_modify_of_none found _ _ _
  | some n =>
    have changed := guideTotal_modify found (fun n => n.removeGuide guide) c.provenance c.guides
    have parts : (n.removeGuide guide).guides.length + n.guides.count guide = n.guides.length := by
      have parts := n.guides.length_eq_countP_add_countP (· == guide)
      simp only [beq_iff_eq] at parts
      rw [Node.removeGuide, ← List.countP_eq_length_filter, Nat.add_comm]
      exact parts.symm
    dsimp only at changed ⊢
    omega

theorem guideTotal_foldl_removeGuide (orphaned : List (String × String)) (c : Contents)
    (count : Nat) :
    let after := orphaned.foldl (fun (c, n) e => let (c, m) := c.removeGuide e.1 e.2; (c, n + m))
      (c, count)
    after.1.guideTotal + after.2 = c.guideTotal + count := by
  induction orphaned generalizing c count with
  | nil => rfl
  | cons e rest ih =>
    have first := c.guideTotal_removeGuide e.1 e.2
    have later := ih (c.removeGuide e.1 e.2).1 (count + (c.removeGuide e.1 e.2).2)
    refine later.trans ?_
    omega

/-- **Guides removed** are those by which the lists of guides shrink. -/
theorem guideTotal_unregister (c : Contents) (packageId : String) :
    (c.unregister packageId).1.guideTotal + (c.unregister packageId).2.guidesRemoved =
      c.guideTotal := by
  have removed := guideTotal_foldl_removeGuide (c.guides.heldAlone packageId)
    ((c.provenance.ownedBy packageId).foldl (fun c e => c.removeAction e.1 e.2) c) 0
  rw [guideTotal_foldl_removeAction] at removed
  exact removed

/-- **Lists of guides only lose guides** by an unregistration. -/
theorem guideList_sublist_unregister (c : Contents) (packageId node : String) :
    ((c.unregister packageId).1.guideList node).Sublist (c.guideList node) := by
  unfold guideList
  rw [guides?_unregister]
  cases guides? c.nodes node with
  | none => exact List.Sublist.refl _
  | some guides => exact List.filter_sublist

end Contents

end CapabilityPipeline
