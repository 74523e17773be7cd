/-!
# Maps and sets of names

A map from names to values is a list of entries in strictly ascending order of names, the
order being that of code points. Two maps are therefore equal exactly when they answer every
look-up alike.

Results:

* `get?_insert`, `get?_erase`, `get?_mapValues`: each operation through look-ups.
* `ext_get?`: equal look-ups make equal maps.
-/

namespace CapabilityPipeline

/-- Values by name, in ascending order of names. -/
structure NameMap (α : Type) where
  /-- Names with their values. -/
  entries : List (String × α)
  sorted : entries.Pairwise fun a b => a.1 < b.1

namespace NameMap

variable {α β : Type}

instance [DecidableEq α] : DecidableEq (NameMap α) := fun a b =>
  decidable_of_iff (a.entries = b.entries) (by cases a; cases b; simp)

instance [Repr α] : Repr (NameMap α) := ⟨fun m n => reprPrec m.entries n⟩

/-- The map without entries. -/
def empty : NameMap α := ⟨[], .nil⟩

instance : Inhabited (NameMap α) := ⟨empty⟩

/-! ## Look-up -/

/-- The value of a name. -/
def get? (m : NameMap α) (name : String) : Option α :=
  m.entries.lookup name

/-- The map has the name. -/
def contains (m : NameMap α) (name : String) : Bool :=
  (m.get? name).isSome

/-- The names in ascending order. -/
def keys (m : NameMap α) : List String :=
  m.entries.map Prod.fst

/-- The values in the order of their names. -/
def values (m : NameMap α) : List α :=
  m.entries.map Prod.snd

/-- Number of entries. -/
def size (m : NameMap α) : Nat :=
  m.entries.length

/-- The map has no entries. -/
def isEmpty (m : NameMap α) : Bool :=
  m.entries.isEmpty

/-! ## Insertion -/

/-- The entry put at its place in an ascending list, instead of one of the same name. -/
def insertEntry (name : String) (value : α) : List (String × α) → List (String × α)
  | [] => [(name, value)]
  | (k, v) :: rest =>
    if name < k then (name, value) :: (k, v) :: rest
    else if name = k then (name, value) :: rest
    else (k, v) :: insertEntry name value rest

theorem mem_insertEntry {name : String} {value : α} {e : String × α}
    {l : List (String × α)} (h : e ∈ insertEntry name value l) : e = (name, value) ∨ e ∈ l := by
  induction l with
  | nil => simpa [insertEntry] using h
  | cons head rest ih =>
    obtain ⟨k, v⟩ := head
    rw [insertEntry] at h
    split at h
    · simpa using h
    · split at h
      · rcases List.mem_cons.mp h with h | h
        · exact .inl h
        · exact .inr (.tail _ h)
      · rcases List.mem_cons.mp h with h | h
        · exact .inr (h ▸ .head _)
        · exact (ih h).imp_right (.tail _)

theorem sorted_insertEntry (name : String) (value : α) {l : List (String × α)}
    (h : l.Pairwise fun a b => a.1 < b.1) :
    (insertEntry name value l).Pairwise fun a b => a.1 < b.1 := by
  induction l with
  | nil => simp [insertEntry]
  | cons head rest ih =>
    obtain ⟨k, v⟩ := head
    obtain ⟨first, others⟩ := List.pairwise_cons.mp h
    rw [insertEntry]
    split
    · next before =>
      refine List.pairwise_cons.mpr ⟨fun e he => ?_, h⟩
      rcases List.mem_cons.mp he with rfl | he
      · exact before
      · exact String.lt_trans before (first e he)
    · split
      · next same => exact List.pairwise_cons.mpr ⟨fun e he => same ▸ first e he, others⟩
      · next notBefore different =>
        have after : k < name := by
          have := String.not_lt.mp notBefore
          exact Classical.byContradiction fun h =>
            different (String.le_antisymm (String.not_lt.mp h) this)
        refine List.pairwise_cons.mpr ⟨fun e he => ?_, ih others⟩
        rcases mem_insertEntry he with rfl | he
        · exact after
        · exact first e he

/-- The map with the name set to the value. -/
def insert (m : NameMap α) (name : String) (value : α) : NameMap α :=
  ⟨insertEntry name value m.entries, sorted_insertEntry name value m.sorted⟩

/-- The map of entries, where a later entry replaces an earlier one of the same name. -/
def ofList (entries : List (String × α)) : NameMap α :=
  entries.foldl (fun m e => m.insert e.1 e.2) empty

/-! ## Removal and transformation -/

/-- The map without the entries that fail a test. -/
def filter (m : NameMap α) (keep : String → α → Bool) : NameMap α :=
  ⟨m.entries.filter fun e => keep e.1 e.2, m.sorted.filter _⟩

/-- The map without the name. -/
def erase (m : NameMap α) (name : String) : NameMap α :=
  m.filter fun k _ => k != name

/-- The map with each value replaced by its image. -/
def mapValues (m : NameMap α) (f : String → α → β) : NameMap β :=
  ⟨m.entries.map fun e => (e.1, f e.1 e.2), by
    rw [List.pairwise_map]
    exact m.sorted⟩

/-- The map with the value of one name changed, if it has that name. -/
def modify (m : NameMap α) (name : String) (f : α → α) : NameMap α :=
  m.mapValues fun k v => if k = name then f v else v

/-! ## Laws of look-up -/

theorem lookup_cons_self (name : String) (value : α) (l : List (String × α)) :
    ((name, value) :: l).lookup name = some value := by
  simp

theorem lookup_cons_ne {name other : String} (h : other ≠ name) (value : α)
    (l : List (String × α)) : ((name, value) :: l).lookup other = l.lookup other := by
  have different : (other == name) = false := by simp [h]
  simp [List.lookup_cons, different]

theorem lookup_insertEntry (name other : String) (value : α) (l : List (String × α)) :
    (insertEntry name value l).lookup other =
      if other = name then some value else l.lookup other := by
  by_cases h : other = name
  · subst h
    rw [if_pos rfl]
    induction l with
    | nil => exact lookup_cons_self _ _ _
    | cons head rest ih =>
      obtain ⟨k, v⟩ := head
      rw [insertEntry]
      split
      · exact lookup_cons_self _ _ _
      · split
        · exact lookup_cons_self _ _ _
        · next different => rw [lookup_cons_ne different, ih]
  · rw [if_neg h]
    induction l with
    | nil => exact lookup_cons_ne h _ _
    | cons head rest ih =>
      obtain ⟨k, v⟩ := head
      rw [insertEntry]
      split
      · exact lookup_cons_ne h _ _
      · split
        · next same => rw [lookup_cons_ne h, lookup_cons_ne (same ▸ h)]
        · by_cases hk : other = k
          · subst hk; rw [lookup_cons_self, lookup_cons_self]
          · rw [lookup_cons_ne hk, lookup_cons_ne hk, ih]

@[simp] theorem get?_empty (name : String) : (empty : NameMap α).get? name = none := rfl

theorem get?_insert (m : NameMap α) (name other : String) (value : α) :
    (m.insert name value).get? other = if other = name then some value else m.get? other :=
  lookup_insertEntry name other value m.entries

theorem lookup_filter_key (keep : String → Bool) (name : String) (l : List (String × α)) :
    (l.filter fun e => keep e.1).lookup name = if keep name then l.lookup name else none := by
  induction l with
  | nil => simp
  | cons head rest ih =>
    obtain ⟨k, v⟩ := head
    by_cases h : name = k
    · subst h
      by_cases hk : keep name
      · simp only [List.filter_cons, hk, if_true, lookup_cons_self]
      · simp only [List.filter_cons, hk, if_false, ih, Bool.false_eq_true]
    · by_cases hk : keep k
      · simp only [List.filter_cons, hk, if_true, lookup_cons_ne h, ih]
      · simp only [List.filter_cons, hk, if_false, lookup_cons_ne h, ih, Bool.false_eq_true]

theorem get?_erase (m : NameMap α) (name other : String) :
    (m.erase name).get? other = if other = name then none else m.get? other := by
  have kept : (m.erase name).get? other = if other != name then m.get? other else none :=
    lookup_filter_key (· != name) other m.entries
  rw [kept]
  by_cases h : other = name <;> simp [h]

theorem get?_mapValues (m : NameMap α) (f : String → α → β) (name : String) :
    (m.mapValues f).get? name = (m.get? name).map (f name) := by
  simp only [get?, mapValues]
  induction m.entries with
  | nil => rfl
  | cons head rest ih =>
    obtain ⟨k, v⟩ := head
    by_cases h : name = k
    · subst h; simp
    · simp only [List.map_cons, lookup_cons_ne h, ih]

/-! ## Extensionality -/

theorem lookup_eq_some_of_mem {l : List (String × α)} (sorted : l.Pairwise fun a b => a.1 < b.1)
    {e : String × α} (h : e ∈ l) : l.lookup e.1 = some e.2 := by
  induction l with
  | nil => simp at h
  | cons head rest ih =>
    obtain ⟨first, others⟩ := List.pairwise_cons.mp sorted
    rcases List.mem_cons.mp h with rfl | later
    · exact lookup_cons_self _ _ _
    · have different : e.1 ≠ head.1 := fun same =>
        String.lt_irrefl _ (same ▸ first e later)
      rw [← ih others later]
      exact lookup_cons_ne different _ _

theorem mem_of_lookup_eq_some {l : List (String × α)} {name : String} {value : α}
    (h : l.lookup name = some value) : (name, value) ∈ l := by
  induction l with
  | nil => simp at h
  | cons head rest ih =>
    obtain ⟨k, v⟩ := head
    by_cases hk : name = k
    · subst hk
      rw [lookup_cons_self] at h
      exact Option.some.inj h ▸ .head _
    · rw [lookup_cons_ne hk] at h
      exact .tail _ (ih h)

theorem entries_eq_of_mem_iff {l l' : List (String × α)}
    (sorted : l.Pairwise fun a b => a.1 < b.1) (sorted' : l'.Pairwise fun a b => a.1 < b.1)
    (h : ∀ e, e ∈ l ↔ e ∈ l') : l = l' := by
  induction l generalizing l' with
  | nil =>
    cases l' with
    | nil => rfl
    | cons e rest => exact absurd ((h e).mpr (.head _)) (by simp)
  | cons a rest ih =>
    cases l' with
    | nil => exact absurd ((h a).mp (.head _)) (by simp)
    | cons b rest' =>
      obtain ⟨first, others⟩ := List.pairwise_cons.mp sorted
      obtain ⟨first', others'⟩ := List.pairwise_cons.mp sorted'
      have same : a = b := by
        rcases List.mem_cons.mp ((h a).mp (.head _)) with e | later
        · exact e
        · rcases List.mem_cons.mp ((h b).mpr (.head _)) with e | later'
          · exact e.symm
          · exact absurd (String.lt_trans (first b later') (first' a later)) (String.lt_irrefl _)
      subst same
      refine congrArg (a :: ·) (ih others others' fun e => ⟨fun he => ?_, fun he => ?_⟩)
      · rcases List.mem_cons.mp ((h e).mp (.tail _ he)) with rfl | he'
        · exact absurd (first e he) (String.lt_irrefl _)
        · exact he'
      · rcases List.mem_cons.mp ((h e).mpr (.tail _ he)) with rfl | he'
        · exact absurd (first' e he) (String.lt_irrefl _)
        · exact he'

theorem ext_get? {m m' : NameMap α} (h : ∀ name, m.get? name = m'.get? name) : m = m' := by
  have entries : m.entries = m'.entries := by
    refine entries_eq_of_mem_iff m.sorted m'.sorted fun e => ⟨fun he => ?_, fun he => ?_⟩
    · have := lookup_eq_some_of_mem m.sorted he
      exact mem_of_lookup_eq_some ((h e.1).symm.trans this)
    · have := lookup_eq_some_of_mem m'.sorted he
      exact mem_of_lookup_eq_some ((h e.1).trans this)
  cases m
  cases m'
  simp_all

end NameMap

/-- Names in ascending order, each once. -/
abbrev NameSet := NameMap Unit

namespace NameSet

/-- The set of the names of a list. -/
def ofNames (names : List String) : NameSet :=
  NameMap.ofList (names.map fun name => (name, ()))

/-- The set with one more name. -/
def add (s : NameSet) (name : String) : NameSet :=
  s.insert name ()

end NameSet

end CapabilityPipeline
