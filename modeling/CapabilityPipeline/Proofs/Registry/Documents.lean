import CapabilityPipeline.Proofs.Json.Records
import CapabilityPipeline.Proofs.Registry.Saving

/-!
# What is saved is loaded

The three documents of a registry are faithfully written, apart from the ids of nodes: the id
that a node is listed under counts, whatever its own record says. A registry in which these agree
is loaded as it was saved.

Results:

* `Node.faithful`, `Provenance.faithful`, `GuideOwners.faithful`: the records of the documents.
* `NodesNamed`: every node is listed under its own id. What is loaded always is.
* `Store.Located.loadContents_save`: the contents that were saved are loaded.
-/

namespace CapabilityPipeline

open Json (Faithful Tree Value)
open Text (Symbol)

/-! ## Records -/

theorem NodeKind.faithful : Faithful (fun kind => .string kind.word) NodeKind.ofTree? 0 where
  reads kind := by cases kind <;> rfl
  plain _ := Value.plain_string _

theorem Handler.faithful : Faithful Handler.toValue Handler.ofTree? 1 where
  reads handler := by cases handler <;> rfl
  plain handler := by cases handler <;> exact ⟨rfl, Nat.le_refl 1⟩

theorem Action.faithful : Faithful Action.toValue Action.ofTree? 2 where
  reads a := by
    obtain ⟨handler, description, usage⟩ := a
    have fields : Action.ofTree? (.ofValue (Action.toValue ⟨handler, description, usage⟩)) =
        (do
          let handler ← Handler.ofTree? (.ofValue handler.toValue)
          return ⟨handler, description, usage⟩) := by
      cases usage <;> rfl
    rw [fields, Handler.faithful.reads]
    rfl
  plain a := by
    refine Value.plain_record fun part mem => ?_
    simp only [List.mem_cons, List.not_mem_nil, or_false] at mem
    rcases mem with rfl | rfl | rfl
    · exact Value.plain_always (Handler.faithful.plain a.handler)
    · exact Value.plain_always (Value.plain_string a.description)
    · exact Value.plain_whenSome Value.plain_string a.usage

theorem Node.faithful : Faithful Node.toValue Node.ofTree? 4 where
  reads n := by
    obtain ⟨id, kind, description, actions, guides⟩ := n
    have fields : Node.ofTree? (.ofValue (Node.toValue ⟨id, kind, description, actions, guides⟩)) =
        (do
          let kind ← NodeKind.ofTree? (.ofValue (.string kind.word))
          let actions ← Tree.map? Action.ofTree? (.ofValue (.ofMap Action.toValue actions))
          let guides ← Tree.list? Tree.string? (.ofValue (.ofList .string guides))
          return ⟨id, kind, description, actions, guides⟩) := by
      cases description <;> rfl
    rw [fields, NodeKind.faithful.reads, Action.faithful.map.reads, Faithful.string.list.reads]
    rfl
  plain n := by
    refine Value.plain_record fun part mem => ?_
    simp only [List.mem_cons, List.not_mem_nil, or_false] at mem
    rcases mem with rfl | rfl | rfl | rfl | rfl
    · exact Value.plain_always (Value.plain_string n.id)
    · exact Value.plain_always (Value.plain_string n.kind.word)
    · exact Value.plain_whenSome Value.plain_string n.description
    · exact Value.plain_always (Action.faithful.map.plain n.actions)
    · exact Value.plain_always ((Faithful.string.list.plain n.guides).mono (by decide))

theorem Provenance.faithful : Faithful Provenance.toValue Provenance.ofTree? 2 :=
  Faithful.string.map.map.wrapped fun _ => rfl

theorem GuideOwners.faithful : Faithful GuideOwners.toValue GuideOwners.ofTree? 3 :=
  Faithful.nameSet.map.map.wrapped fun _ => rfl

/-! ## Nodes under their own ids -/

/-- Every node is listed under its own id. -/
def NodesNamed (nodes : NameMap Node) : Prop :=
  ∀ id node, nodes.get? id = some node → node.id = id

theorem nodesNamed_iff {nodes : NameMap Node} :
    NodesNamed nodes ↔ ∀ e ∈ nodes.entries, e.2.id = e.1 :=
  ⟨fun named e mem => named e.1 e.2 (NameMap.mem_entries.mp mem),
    fun named id node found => named (id, node) (NameMap.mem_entries.mpr found)⟩

instance (nodes : NameMap Node) : Decidable (NodesNamed nodes) :=
  decidable_of_iff _ nodesNamed_iff.symm

theorem nodesNamed_empty : NodesNamed .empty :=
  fun _ _ none => by cases none

namespace Store

/-- Putting the ids that nodes are listed under into their records. -/
theorem mapValues_id {nodes : NameMap Node} (named : NodesNamed nodes) :
    (nodes.mapValues fun id node => { node with id }) = nodes := by
  refine NameMap.ext_get? fun id => ?_
  rw [NameMap.get?_mapValues]
  cases found : nodes.get? id with
  | none => rfl
  | some node => rw [Option.map_some, ← named id node found]

theorem nodesNamed_of_loadNodes {s : Store} {t : FileTree} {nodes : NameMap Node}
    (h : s.loadNodes t = .ok nodes) : NodesNamed nodes := by
  rcases load_eq_ok.mp h with ⟨-, rfl⟩ | ⟨content, -, data⟩
  · exact nodesNamed_empty
  · unfold Json.read? at data
    split at data
    · next tree _ =>
      obtain ⟨record, -, data⟩ := Option.bind_eq_some_iff.mp data
      obtain ⟨written, -, data⟩ := Option.bind_eq_some_iff.mp data
      cases data
      intro id node found
      rw [NameMap.get?_mapValues] at found
      obtain ⟨_, -, rfl⟩ := Option.map_eq_some_iff.mp found
      rfl
    · cases data

/-- Nodes are read as they were written, with the ids that they are listed under. -/
theorem read_nodesValue (nodes : NameMap Node) :
    Json.read? nodesOfTree? (Symbol.ofText (nodesValue nodes).pretty) =
      some (nodes.mapValues fun id node => { node with id }) := by
  have each := Node.faithful.map
  have plain : (nodesValue nodes).Plain 6 :=
    Value.plain_object (List.forall_mem_singleton.mpr (each.plain nodes))
  have member : nodesOfTree? (.ofValue (nodesValue nodes)) = (do
      let nodes ← Tree.map? Node.ofTree? (.ofValue (.ofMap Node.toValue nodes))
      return nodes.mapValues fun id node => { node with id }) := rfl
  unfold Json.read?
  rw [Tree.readLenient_pretty plain.integral (Nat.le_trans plain.depth (by decide))]
  dsimp only
  rw [member, each.reads]
  rfl

/-! ## Saving and loading -/

variable {s : Store} {t t' : FileTree} {base : Place}

/-- What a document that is in its place holds. -/
theorem Located.load_eq_ok {α : Type} (h : s.Located t base) {name : String}
    (mem : name ∈ fileNames) {content : List Symbol}
    (there : t.entry? (base ++ [name]) = some (.file content)) {absent a : α}
    {shape : Json.Shape} {read : Tree → Option α} (data : Json.read? read content = some a) :
    load t (s.path name) absent shape read = .ok a := by
  refine Store.load_eq_ok.mpr (.inr ⟨content, ?_, data⟩)
  rw [FileTree.read_of_locate (h.locate name mem), there]

theorem forall_mem_contentsOf {c : Contents} {P : String × Value → Prop} :
    (∀ d ∈ contentsOf c, P d) ↔ P ("nodes.json", nodesValue c.nodes) ∧
      P ("provenance.json", c.provenance.toValue) ∧ P ("guides.json", c.guides.toValue) := by
  simp [contentsOf]

/-- What three documents that are in their places hold. -/
theorem Located.load_documents (h : s.Located t base) {c : Contents}
    (placed : ∀ d ∈ contentsOf c,
      t.entry? (base ++ [d.1]) = some (.file (Symbol.ofText d.2.pretty))) :
    s.loadNodes t = .ok (c.nodes.mapValues fun id node => { node with id }) ∧
      s.loadProvenance t = .ok c.provenance ∧ s.loadGuides t = .ok c.guides := by
  obtain ⟨nodes, provenance, guides⟩ := forall_mem_contentsOf.mp placed
  refine ⟨?_, ?_, ?_⟩
  · exact h.load_eq_ok (.head _) nodes (read_nodesValue c.nodes)
  · exact h.load_eq_ok (.tail _ (.head _)) provenance
      (Provenance.faithful.read_pretty (by decide) c.provenance)
  · exact h.load_eq_ok (.tail _ (.tail _ (.head _))) guides
      (GuideOwners.faithful.read_pretty (by decide) c.guides)

theorem Located.loadContents_eq (h : s.Located t base) {c : Contents} (named : NodesNamed c.nodes)
    (placed : ∀ d ∈ contentsOf c,
      t.entry? (base ++ [d.1]) = some (.file (Symbol.ofText d.2.pretty))) :
    s.loadContents t = .ok c := by
  have documents := h.load_documents placed
  rw [mapValues_id named] at documents
  exact loadContents_eq_ok.mpr documents

/-- **What was saved is loaded.** -/
theorem Located.loadContents_save (h : s.Located t base) {c : Contents} (named : NodesNamed c.nodes)
    (saved : s.save c t = (t', none)) : s.loadContents t' = .ok c := by
  obtain ⟨changes, placed⟩ := (h.save c saved).2 rfl
  exact (h.changes changes).loadContents_eq named placed

end Store

end CapabilityPipeline
