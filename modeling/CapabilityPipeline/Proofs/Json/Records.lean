import CapabilityPipeline.Json.Decode
import CapabilityPipeline.Json.Encode
import CapabilityPipeline.Proofs.Json.Pretty
import CapabilityPipeline.Proofs.Names.Lookup

/-!
# What is written is read back

Data is faithfully written when reading finds in its value what was written. Strings are, and
lists, maps and sets of what is. A bound on how deep the values nest goes along, since a reader
gives up on texts that nest too deep.

Results:

* `Value.Plain`: values without doubles that do not nest too deep.
* `Faithful`: a way of writing and reading that loses nothing.
* `Faithful.list`, `Faithful.map`, `Faithful.nameSet`: the containers.
* `Faithful.read_pretty`: the data is read back from the pretty text.
-/

namespace CapabilityPipeline.Json

open Text (Symbol)

variable {α β : Type} {write : α → Value} {read : Tree → Option α} {height : Nat}

/-! ## Parts of containers -/

theorem Tree.ofItems_eq_map (items : List Value) : ofItems items = items.map ofValue := by
  induction items with
  | nil => rfl
  | cons item rest ih => rw [ofItems, ih, List.map_cons]

theorem Tree.ofMembers_eq_map (members : List (String × Value)) :
    ofMembers members = members.map fun m => (m.1, ofValue m.2) := by
  induction members with
  | nil => rfl
  | cons m rest ih => rw [ofMembers, ih, List.map_cons]

/-- A list is read back when each of its elements is. -/
theorem mapM_map_eq_some {read : β → Option α} {write : α → β} (h : ∀ a, read (write a) = some a)
    (l : List α) : (l.map write).mapM read = some l := by
  induction l with
  | nil => rfl
  | cons a rest ih =>
    rw [List.map_cons, List.mapM_cons, h, ih]
    rfl

/-! ## Plain values -/

namespace Value

variable {height more : Nat}

/-- A value whose numbers are integers and which nests no deeper than a given height. -/
structure Plain (height : Nat) (v : Value) : Prop where
  integral : v.isIntegral = true
  depth : v.depth ≤ height

theorem Plain.mono {v : Value} (h : v.Plain height) (le : height ≤ more) : v.Plain more :=
  ⟨h.integral, Nat.le_trans h.depth le⟩

theorem plain_string (text : String) : (string text).Plain height :=
  ⟨rfl, Nat.zero_le height⟩

theorem plain_array {items : List Value} (h : ∀ item ∈ items, item.Plain height) :
    (array items).Plain (height + 1) := by
  have each : itemsIntegral items = true ∧ itemsDepth items ≤ height := by
    induction items with
    | nil => exact ⟨rfl, Nat.zero_le height⟩
    | cons item rest ih =>
      obtain ⟨first, others⟩ := List.forall_mem_cons.mp h
      obtain ⟨integral, depth⟩ := ih others
      exact ⟨Bool.and_eq_true_iff.mpr ⟨first.integral, integral⟩,
        Nat.max_le.mpr ⟨first.depth, depth⟩⟩
  exact ⟨each.1, Nat.succ_le_succ each.2⟩

theorem plain_object {members : List (String × Value)} (h : ∀ m ∈ members, m.2.Plain height) :
    (object members).Plain (height + 1) := by
  have each : membersIntegral members = true ∧ membersDepth members ≤ height := by
    induction members with
    | nil => exact ⟨rfl, Nat.zero_le height⟩
    | cons m rest ih =>
      obtain ⟨first, others⟩ := List.forall_mem_cons.mp h
      obtain ⟨integral, depth⟩ := ih others
      exact ⟨Bool.and_eq_true_iff.mpr ⟨first.integral, integral⟩,
        Nat.max_le.mpr ⟨first.depth, depth⟩⟩
  exact ⟨each.1, Nat.succ_le_succ each.2⟩

/-- A record is plain when those of its members are that are written. -/
theorem plain_record {parts : List (Option (String × Value))}
    (h : ∀ part ∈ parts, ∀ m ∈ part, m.2.Plain height) : (record parts).Plain (height + 1) :=
  plain_object fun m mem => by
    obtain ⟨part, written, same⟩ := List.mem_filterMap.mp mem
    exact h part written m same

theorem plain_always {name : String} {v : Value} (h : v.Plain height) :
    ∀ m ∈ always name v, m.2.Plain height := by
  rintro m ⟨⟩
  exact h

theorem plain_whenSome {name : String} {write : α → Value} (h : ∀ a, (write a).Plain height)
    (part : Option α) : ∀ m ∈ whenSome name write part, m.2.Plain height := by
  intro m mem
  obtain ⟨a, -, rfl⟩ := Option.map_eq_some_iff.mp mem
  exact h a

end Value

/-! ## Faithful writing -/

/-- What is written as a value is read back from it. The value has no numbers but integers and
nests no deeper than a given height. -/
structure Faithful (write : α → Value) (read : Tree → Option α) (height : Nat) : Prop where
  reads : ∀ a, read (.ofValue (write a)) = some a
  plain : ∀ a, (write a).Plain height

namespace Faithful

theorem string : Faithful .string Tree.string? 0 :=
  ⟨fun _ => rfl, Value.plain_string⟩

theorem list (h : Faithful write read height) :
    Faithful (Value.ofList write) (Tree.list? read) (height + 1) where
  reads items := by
    unfold Value.ofList
    rw [Tree.ofValue, Tree.ofItems_eq_map, List.map_map, Tree.list?]
    exact mapM_map_eq_some h.reads items
  plain items := Value.plain_array fun item mem => by
    obtain ⟨a, -, rfl⟩ := List.mem_map.mp mem
    exact h.plain a

theorem map (h : Faithful write read height) :
    Faithful (Value.ofMap write) (Tree.map? read) (height + 1) where
  reads m := by
    have entries : (m.entries.map fun e => (e.1, Tree.ofValue (write e.2))).mapM
        (fun member => (read member.2).map fun part => (member.1, part)) = some m.entries :=
      mapM_map_eq_some (fun e => by rw [h.reads]; rfl) m.entries
    unfold Value.ofMap
    rw [Tree.ofValue, Tree.ofMembers_eq_map, List.map_map, Tree.map?]
    exact (congrArg (Option.map NameMap.ofList) entries).trans
      (congrArg some (NameMap.ofList_entries m))
  plain m := Value.plain_object fun member mem => by
    obtain ⟨e, -, rfl⟩ := List.mem_map.mp mem
    exact h.plain e.2

theorem nameSet : Faithful Value.ofNameSet Tree.nameSet? 1 where
  reads names := by
    unfold Value.ofNameSet Value.ofStrings Tree.nameSet?
    rw [string.list.reads, Option.map_some, NameSet.ofNames_keys]
  plain names := string.list.plain names.keys

/-- Data in a wrapper, which reading puts on again. -/
theorem wrapped {wrap : α → β} {unwrap : β → α} (same : ∀ b, wrap (unwrap b) = b)
    (h : Faithful write read height) :
    Faithful (fun b => write (unwrap b)) (fun tree => (read tree).map wrap) height where
  reads b := by rw [h.reads, Option.map_some, same]
  plain b := h.plain (unwrap b)

/-- **What is faithfully written is read back from its pretty text.** -/
theorem read_pretty (h : Faithful write read height) (bounded : height ≤ maxDepth) (a : α) :
    read? read (Symbol.ofText (write a).pretty) = some a := by
  unfold read?
  rw [Tree.readLenient_pretty (h.plain a).integral (Nat.le_trans (h.plain a).depth bounded)]
  exact h.reads a

end Faithful

end CapabilityPipeline.Json
