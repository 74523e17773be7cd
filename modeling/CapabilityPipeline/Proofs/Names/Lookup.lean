import CapabilityPipeline.Names.Map

/-!
# Look-up in maps of names

Results:

* `NameMap.mem_entries`: the entries are what look-up finds.
* `NameMap.get?_modify`, `NameMap.get?_filter`: two more operations through look-ups.
* `NameMap.insert_eq_self`, `NameMap.modify_eq_self`: operations that change nothing.
* `NameMap.isEmpty_iff`: a map is empty when no name is found.
* `NameMap.ofList_entries`: a map is made again from its entries.
* `NameSet.contains_add`: a set has the names that were added to it.
* `NameSet.mem_keys_ofNames`: a set of names has just these.
-/

namespace CapabilityPipeline.NameMap

variable {α : Type}

/-! ## Entries -/

theorem mem_entries {m : NameMap α} {name : String} {value : α} :
    (name, value) ∈ m.entries ↔ m.get? name = some value :=
  ⟨fun h => lookup_eq_some_of_mem m.sorted h, mem_of_lookup_eq_some⟩

theorem contains_iff {m : NameMap α} {name : String} :
    m.contains name = true ↔ ∃ value, m.get? name = some value :=
  Option.isSome_iff_exists

theorem keys_pairwise (m : NameMap α) : m.keys.Pairwise (· < ·) :=
  List.pairwise_map.mpr m.sorted

theorem keys_nodup (m : NameMap α) : m.keys.Nodup := by
  rw [List.nodup_iff_pairwise_ne]
  refine m.keys_pairwise.imp ?_
  intro a b before same
  rw [same] at before
  exact String.lt_irrefl _ before

theorem isEmpty_iff {m : NameMap α} : m.isEmpty = true ↔ ∀ name, m.get? name = none := by
  unfold isEmpty
  rw [List.isEmpty_iff]
  constructor
  · intro h name
    unfold get?
    rw [h]
    rfl
  · intro h
    apply List.eq_nil_iff_forall_not_mem.mpr
    rintro ⟨k, v⟩ hmem
    rw [mem_entries, h] at hmem
    cases hmem

theorem eq_empty_of_isEmpty {m : NameMap α} (h : m.isEmpty = true) : m = .empty :=
  ext_get? fun name => (isEmpty_iff.mp h name).trans (get?_empty name).symm

/-! ## Operations -/

theorem get?_modify (m : NameMap α) (name other : String) (f : α → α) :
    (m.modify name f).get? other =
      if other = name then (m.get? other).map f else m.get? other := by
  unfold modify
  rw [get?_mapValues]
  by_cases h : other = name
  · simp [h]
  · simp [h]

theorem get?_modify_self (m : NameMap α) (name : String) (f : α → α) :
    (m.modify name f).get? name = (m.get? name).map f := by
  rw [get?_modify, if_pos rfl]

theorem get?_modify_of_ne (m : NameMap α) {name other : String} (h : other ≠ name) (f : α → α) :
    (m.modify name f).get? other = m.get? other := by
  rw [get?_modify, if_neg h]

theorem contains_modify (m : NameMap α) (name other : String) (f : α → α) :
    (m.modify name f).contains other = m.contains other := by
  unfold contains
  rw [get?_modify]
  split <;> simp

theorem contains_insert (m : NameMap α) (name other : String) (value : α) :
    (m.insert name value).contains other = true ↔ other = name ∨ m.contains other = true := by
  unfold contains
  rw [get?_insert]
  split
  · next same => simp [same]
  · next different => simp [different]

/-- Setting a name to the value that it has changes nothing. -/
theorem insert_eq_self {m : NameMap α} {name : String} {value : α}
    (found : m.get? name = some value) : m.insert name value = m := by
  refine ext_get? fun other => ?_
  rw [get?_insert]
  split
  · next same => rw [same, found]
  · rfl

theorem modify_eq_self {m : NameMap α} {name : String} {f : α → α}
    (same : ∀ value, m.get? name = some value → f value = value) : m.modify name f = m := by
  refine ext_get? fun other => ?_
  rw [get?_modify]
  split
  · next here =>
    subst here
    exact (Option.map_congr same).trans Option.map_id'
  · rfl

theorem get?_filter (m : NameMap α) (keep : String → α → Bool) (name : String) :
    (m.filter keep).get? name = (m.get? name).filter (keep name) := by
  ext value
  rw [← mem_entries, Option.filter_eq_some_iff, ← mem_entries]
  exact List.mem_filter

theorem get?_foldl_insert (l : List (String × α)) (distinct : (l.map Prod.fst).Nodup)
    (m : NameMap α) (name : String) :
    (l.foldl (fun m e => m.insert e.1 e.2) m).get? name = (l.lookup name).or (m.get? name) := by
  induction l generalizing m with
  | nil => simp
  | cons e rest ih =>
    obtain ⟨once, distinct⟩ := List.nodup_cons.mp distinct
    rw [List.foldl_cons, ih distinct, get?_insert]
    by_cases same : name = e.1
    · subst same
      have absent : rest.lookup e.1 = none := List.lookup_eq_none_iff.mpr fun p hp => by
        have : p.1 ≠ e.1 := fun same => once (same ▸ List.mem_map_of_mem hp)
        simpa using Ne.symm this
      rw [absent, if_pos rfl, lookup_cons_self]
      rfl
    · rw [if_neg same, lookup_cons_ne same]

/-- A map is made again from its entries. -/
theorem ofList_entries (m : NameMap α) : ofList m.entries = m := by
  refine ext_get? fun name => ?_
  unfold ofList
  rw [get?_foldl_insert _ m.keys_nodup, get?_empty, Option.or_none]
  rfl

end CapabilityPipeline.NameMap

namespace CapabilityPipeline.NameSet

/-- A set is made again from its names. -/
theorem ofNames_keys (s : NameSet) : ofNames s.keys = s := by
  have entries : s.keys.map (fun name => (name, ())) = s.entries := by
    unfold NameMap.keys
    rw [List.map_map]
    exact List.map_id s.entries
  unfold ofNames
  rw [entries, NameMap.ofList_entries]

theorem contains_add (s : NameSet) (name other : String) :
    (s.add name).contains other = true ↔ other = name ∨ s.contains other = true :=
  NameMap.contains_insert s name other ()

theorem contains_erase (s : NameSet) (name other : String) :
    NameMap.contains (s.erase name) other = true ↔ other ≠ name ∧ s.contains other = true := by
  unfold NameMap.contains
  rw [NameMap.get?_erase]
  split
  · next same => simp [same]
  · next different => simp [different]

theorem mem_keys {s : NameSet} {name : String} : name ∈ s.keys ↔ s.contains name = true := by
  rw [NameMap.contains_iff, NameMap.keys, List.mem_map]
  constructor
  · rintro ⟨⟨name, value⟩, mem, rfl⟩
    exact ⟨value, NameMap.mem_entries.mp mem⟩
  · rintro ⟨value, found⟩
    exact ⟨(name, value), NameMap.mem_entries.mpr found, rfl⟩

/-- The set of names has just these. -/
theorem mem_keys_ofNames {names : List String} {name : String} :
    name ∈ (ofNames names).keys ↔ name ∈ names := by
  have added (rest : List String) (s : NameSet) :
      ((rest.map fun name => (name, ())).foldl (fun m e => m.insert e.1 e.2) s).contains name =
        true ↔ name ∈ rest ∨ s.contains name = true := by
    induction rest generalizing s with
    | nil => simp
    | cons first rest ih =>
      rw [List.map_cons, List.foldl_cons, ih, NameMap.contains_insert, List.mem_cons]
      exact or_left_comm.trans or_assoc.symm
  rw [mem_keys]
  refine (added names .empty).trans (or_iff_left fun none => ?_)
  cases none

end CapabilityPipeline.NameSet
