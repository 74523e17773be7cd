import CapabilityPipeline.Proofs.Json.Spelling

/-!
# Values and their texts

The texts that a strict reader accepts hold values of three properties: no object has two members
of one name, brackets nest at most 127 deep, and no number is infinite or undefined. A value with
the first two is read back from any of its texts, and with the third its compact text is read.

Results:

* `Tree.toValue_ofValue`: a value without repeated names is the value of its tree.
* `Value.read_spells`: a value is read back from its texts.
* `Value.read_chars`: the compact text of a value is read as the value, up to its doubles.
* `Value.distinct_of_read`, `Value.depth_of_read`, `Value.isFinite_of_read`: what is read has the
  three properties.
-/

namespace CapabilityPipeline.Json

open Text (Symbol)

/-! ## Objects -/

namespace Object

theorem contains_iff {o : Object} {name : String} :
    o.contains name = true ↔ name ∈ o.map Prod.fst := by
  unfold contains get?
  induction o with
  | nil => simp
  | cons m rest ih =>
    rw [List.lookup_cons, List.map_cons, List.mem_cons]
    by_cases same : name = m.1
    · simp [same]
    · rw [beq_false_of_ne same, ih, or_iff_right same]

theorem insert_of_not_mem {o : Object} {name : String} (h : name ∉ o.map Prod.fst)
    (value : Value) : insert o name value = o ++ [(name, value)] := by
  induction o with
  | nil => rfl
  | cons m rest ih =>
    obtain ⟨k, v⟩ := m
    rw [List.map_cons, List.mem_cons, not_or] at h
    rw [insert, if_neg (Ne.symm h.1), ih h.2, List.cons_append]

theorem keys_insert (o : Object) (name : String) (value : Value) :
    (insert o name value).map Prod.fst =
      if name ∈ o.map Prod.fst then o.map Prod.fst else o.map Prod.fst ++ [name] := by
  induction o with
  | nil => rfl
  | cons m rest ih =>
    obtain ⟨k, v⟩ := m
    rw [insert]
    by_cases same : k = name
    · simp [same]
    · rw [if_neg same, List.map_cons, ih]
      by_cases later : name ∈ rest.map Prod.fst
      · simp [later]
      · simp [later, Ne.symm same]

theorem keys_nodup_insert {o : Object} (h : (o.map Prod.fst).Nodup) (name : String)
    (value : Value) : ((insert o name value).map Prod.fst).Nodup := by
  rw [keys_insert]
  split
  · exact h
  · next absent =>
    refine List.nodup_append.mpr ⟨h, by simp, fun k hk l hl => ?_⟩
    rintro rfl
    exact absent (List.mem_singleton.mp hl ▸ hk)

theorem mem_insert {o : Object} {name : String} {value : Value} {m : String × Value}
    (h : m ∈ insert o name value) : m ∈ o ∨ m = (name, value) := by
  induction o with
  | nil => exact .inr (List.mem_singleton.mp h)
  | cons first rest ih =>
    obtain ⟨k, v⟩ := first
    rw [insert] at h
    split at h
    · rcases List.mem_cons.mp h with rfl | later
      · exact .inr rfl
      · exact .inl (List.mem_cons_of_mem _ later)
    · rcases List.mem_cons.mp h with rfl | later
      · exact .inl (List.mem_cons_self ..)
      · exact (ih later).imp (List.mem_cons_of_mem _) id

/-- Members in order, put into an object that already has some. -/
theorem foldl_insert_of_nodup (members : List (String × Value)) (o : Object)
    (h : ((o ++ members).map Prod.fst).Nodup) :
    members.foldl (fun o m => insert o m.1 m.2) o = o ++ members := by
  induction members generalizing o with
  | nil => rw [List.foldl_nil, List.append_nil]
  | cons m rest ih =>
    have absent : m.1 ∉ o.map Prod.fst := by
      rw [List.map_append, List.map_cons] at h
      intro present
      exact (List.nodup_append.mp h).2.2 _ present _ (List.mem_cons_self ..) rfl
    rw [List.foldl_cons, insert_of_not_mem absent, ih]
    · rw [List.append_assoc, List.singleton_append]
    · rwa [List.append_assoc, List.singleton_append]

/-- Members with different names are the object of these members. -/
theorem ofMembers_of_nodup {members : List (String × Value)}
    (h : (members.map Prod.fst).Nodup) : ofMembers members = members :=
  foldl_insert_of_nodup members [] h

/-- What holds of no members and stays when a member is set, holds of the object. -/
theorem ofMembers_induction {motive : Object → Prop} (members : List (String × Value))
    (none : motive []) (set : ∀ o, ∀ m ∈ members, motive o → motive (insert o m.1 m.2)) :
    motive (ofMembers members) := by
  unfold ofMembers
  suffices ∀ rest : List (String × Value), (∀ m ∈ rest, m ∈ members) → ∀ o, motive o →
      motive (rest.foldl (fun o m => insert o m.1 m.2) o) from
    this members (fun _ h => h) [] none
  intro rest
  induction rest with
  | nil => exact fun _ _ h => h
  | cons m rest ih =>
    intro sub o h
    exact ih (fun m' h' => sub m' (List.mem_cons_of_mem _ h')) _
      (set o m (sub m (List.mem_cons_self ..)) h)

theorem keys_nodup_ofMembers (members : List (String × Value)) :
    ((ofMembers members).map Prod.fst).Nodup :=
  ofMembers_induction (motive := fun o => (o.map Prod.fst).Nodup) members List.nodup_nil
    fun _ m _ h => keys_nodup_insert h m.1 m.2

theorem mem_of_mem_ofMembers {members : List (String × Value)} {m : String × Value}
    (h : m ∈ ofMembers members) : m ∈ members := by
  revert h
  refine ofMembers_induction (motive := fun o => m ∈ o → m ∈ members) members
    (fun h => by cases h) fun o m' hm' ih h => ?_
  rcases mem_insert h with old | rfl
  · exact ih old
  · exact hm'

end Object

/-! ## Values without repeated names -/

namespace Value

mutual

/-- No object of a value has two members of one name. -/
def Distinct : Value → Prop
  | .array items => ItemsDistinct items
  | .object members => (members.map Prod.fst).Nodup ∧ MembersDistinct members
  | _ => True

/-- No object of any item has two members of one name. -/
def ItemsDistinct : List Value → Prop
  | [] => True
  | item :: rest => Distinct item ∧ ItemsDistinct rest

/-- No object of the value of any member has two members of one name. -/
def MembersDistinct : List (String × Value) → Prop
  | [] => True
  | (_, value) :: rest => Distinct value ∧ MembersDistinct rest

end

theorem membersDistinct_iff (members : List (String × Value)) :
    MembersDistinct members ↔ ∀ m ∈ members, Distinct m.2 := by
  induction members with
  | nil => simp [MembersDistinct]
  | cons m rest ih => simp [MembersDistinct, ih]

theorem membersFinite_iff (members : List (String × Value)) :
    membersFinite members = true ↔ ∀ m ∈ members, isFinite m.2 = true := by
  induction members with
  | nil => simp [membersFinite]
  | cons m rest ih => simp [membersFinite, ih]

theorem membersDepth_le_iff (members : List (String × Value)) (n : Nat) :
    membersDepth members ≤ n ↔ ∀ m ∈ members, depth m.2 ≤ n := by
  induction members with
  | nil => simp [membersDepth]
  | cons m rest ih => simp [membersDepth, ih]

end Value

namespace Tree

mutual

/-- A value without repeated names is the value of its tree. -/
theorem toValue_ofValue : ∀ v : Value, v.Distinct → (ofValue v).toValue = v
  | .null, _ => rfl
  | .bool _, _ => rfl
  | .number _, _ => rfl
  | .string _, _ => rfl
  | .array items, h => by
    rw [Value.Distinct] at h
    rw [ofValue, toValue, itemValues_ofItems items h]
  | .object members, h => by
    rw [Value.Distinct] at h
    rw [ofValue, toValue, memberValues_ofMembers members h.2, Object.ofMembers_of_nodup h.1]

/-- Items without repeated names are the values of their trees. -/
theorem itemValues_ofItems : ∀ items : List Value, Value.ItemsDistinct items →
    itemValues (ofItems items) = items
  | [], _ => rfl
  | item :: rest, h => by
    rw [Value.ItemsDistinct] at h
    rw [ofItems, itemValues, toValue_ofValue item h.1, itemValues_ofItems rest h.2]

/-- Members whose values have no repeated names are the values of their trees. -/
theorem memberValues_ofMembers : ∀ members : List (String × Value),
    Value.MembersDistinct members → memberValues (ofMembers members) = members
  | [], _ => rfl
  | (name, value) :: rest, h => by
    rw [Value.MembersDistinct] at h
    rw [ofMembers, memberValues, toValue_ofValue value h.1, memberValues_ofMembers rest h.2]

end

mutual

/-- The value of a tree has no repeated names. -/
theorem distinct_toValue : ∀ tree : Tree, tree.toValue.Distinct
  | .null | .bool _ | .number _ | .string _ | .unusable => by
    simp [toValue, Value.Distinct]
  | .array items => by
    rw [toValue, Value.Distinct]
    exact itemsDistinct_itemValues items
  | .object members => by
    rw [toValue, Value.Distinct, Value.membersDistinct_iff]
    refine ⟨Object.keys_nodup_ofMembers _, fun m hm => ?_⟩
    exact (Value.membersDistinct_iff _).mp (membersDistinct_memberValues members) m
      (Object.mem_of_mem_ofMembers hm)

/-- The values of items have no repeated names. -/
theorem itemsDistinct_itemValues : ∀ items : List Tree, Value.ItemsDistinct (itemValues items)
  | [] => trivial
  | item :: rest => ⟨distinct_toValue item, itemsDistinct_itemValues rest⟩

/-- The values of members have no repeated names inside. -/
theorem membersDistinct_memberValues : ∀ members : List (String × Tree),
    Value.MembersDistinct (memberValues members)
  | [] => trivial
  | (_, tree) :: rest => ⟨distinct_toValue tree, membersDistinct_memberValues rest⟩

end

/-! ## Depth and numbers -/

mutual

/-- No number of a tree is infinite or undefined. -/
def isFinite : Tree → Bool
  | number n => n.isFinite
  | array items => itemsFinite items
  | object members => membersFinite members
  | _ => true

/-- No number of items is infinite or undefined. -/
def itemsFinite : List Tree → Bool
  | [] => true
  | item :: rest => isFinite item && itemsFinite rest

/-- No number of the trees of members is infinite or undefined. -/
def membersFinite : List (String × Tree) → Bool
  | [] => true
  | (_, tree) :: rest => isFinite tree && membersFinite rest

end

mutual

/-- The value of a tree has no other numbers than the tree. -/
theorem isFinite_toValue : ∀ tree : Tree, tree.isFinite = true → tree.toValue.isFinite = true
  | .null, _ | .bool _, _ | .string _, _ | .unusable, _ => rfl
  | .number _, h => h
  | .array items, h => by
    rw [isFinite] at h
    rw [toValue, Value.isFinite]
    exact itemsFinite_itemValues items h
  | .object members, h => by
    rw [isFinite] at h
    rw [toValue, Value.isFinite, Value.membersFinite_iff]
    intro m hm
    exact (Value.membersFinite_iff _).mp (membersFinite_memberValues members h) m
      (Object.mem_of_mem_ofMembers hm)

/-- The values of items have no other numbers than the items. -/
theorem itemsFinite_itemValues : ∀ items : List Tree, itemsFinite items = true →
    Value.itemsFinite (itemValues items) = true
  | [], _ => rfl
  | item :: rest, h => by
    rw [itemsFinite, Bool.and_eq_true] at h
    rw [itemValues, Value.itemsFinite, isFinite_toValue item h.1, itemsFinite_itemValues rest h.2]
    rfl

/-- The values of members have no other numbers than the members. -/
theorem membersFinite_memberValues : ∀ members : List (String × Tree),
    membersFinite members = true → Value.membersFinite (memberValues members) = true
  | [], _ => rfl
  | (_, tree) :: rest, h => by
    rw [membersFinite, Bool.and_eq_true] at h
    rw [memberValues, Value.membersFinite, isFinite_toValue tree h.1,
      membersFinite_memberValues rest h.2]
    rfl

end

mutual

/-- How deep brackets nest in a tree. -/
def depth : Tree → Nat
  | array items => itemsDepth items + 1
  | object members => membersDepth members + 1
  | _ => 0

/-- How deep brackets nest in items. -/
def itemsDepth : List Tree → Nat
  | [] => 0
  | item :: rest => max (depth item) (itemsDepth rest)

/-- How deep brackets nest in the trees of members. -/
def membersDepth : List (String × Tree) → Nat
  | [] => 0
  | (_, tree) :: rest => max (depth tree) (membersDepth rest)

end

mutual

/-- The value of a tree is not deeper than the tree. -/
theorem depth_toValue : ∀ tree : Tree, tree.toValue.depth ≤ tree.depth
  | .null | .bool _ | .number _ | .string _ | .unusable => by
    simp [toValue, Value.depth]
  | .array items => by
    rw [toValue, Value.depth, depth]
    exact Nat.succ_le_succ (itemsDepth_itemValues items)
  | .object members => by
    rw [toValue, Value.depth, depth]
    refine Nat.succ_le_succ ((Value.membersDepth_le_iff _ _).mpr fun m hm => ?_)
    exact (Value.membersDepth_le_iff _ _).mp (membersDepth_memberValues members) m
      (Object.mem_of_mem_ofMembers hm)

/-- The values of items are not deeper than the items. -/
theorem itemsDepth_itemValues : ∀ items : List Tree,
    Value.itemsDepth (itemValues items) ≤ itemsDepth items
  | [] => Nat.le_refl 0
  | item :: rest => by
    have := depth_toValue item
    have := itemsDepth_itemValues rest
    rw [itemValues, Value.itemsDepth, itemsDepth]
    omega

/-- The values of members are not deeper than the members. -/
theorem membersDepth_memberValues : ∀ members : List (String × Tree),
    Value.membersDepth (memberValues members) ≤ membersDepth members
  | [] => Nat.le_refl 0
  | (_, tree) :: rest => by
    have := depth_toValue tree
    have := membersDepth_memberValues rest
    rw [memberValues, Value.membersDepth, membersDepth]
    omega

end

/-- A tree with finite numbers that nests at most so many brackets. -/
structure Within (room : Nat) (tree : Tree) : Prop where
  depth : tree.depth ≤ room
  finite : tree.isFinite = true

end Tree

theorem Number.isFinite_of_readNumber {skipping : Bool} {text rest : List Symbol} {n : Number}
    (h : readNumber skipping text = .ok (some n, rest)) : n.isFinite = true := by
  unfold readNumber at h
  obtain ⟨⟨whole, _⟩, -, h⟩ := bind_eq_ok.mp h
  obtain ⟨⟨fraction, _⟩, -, h⟩ := bind_eq_ok.mp h
  obtain ⟨⟨exponent, _⟩, -, h⟩ := bind_eq_ok.mp h
  dsimp only at h
  split at h
  · next m number =>
    cases h
    cases n with
    | integer => rfl
    | double x => exact Literal.isFinite_of_number number
  · split at h <;> cases h

/-- With a bound on the work, a strict reader that opens at most `room` brackets reads nothing
deeper, and only finite numbers. -/
structure ReadsWithin (work : Nat) : Prop where
  tree : ∀ {room text tree rest}, readTree .strict work room text = .ok (tree, rest) →
    tree.Within room
  items : ∀ {room text tree rest}, readItems .strict work room text = .ok (tree, rest) →
    tree.Within (room + 1)
  members : ∀ {room text tree rest}, readMembers .strict work room text = .ok (tree, rest) →
    tree.Within (room + 1)

theorem ReadsWithin.readTree_succ {work room : Nat} (ih : ReadsWithin work)
    {text rest : List Symbol} {tree : Tree}
    (h : readTree .strict (work + 1) room text = .ok (tree, rest)) :
    tree.Within room := by
  rw [readTree] at h
  split at h
  · cases h
  · obtain ⟨_, -, h⟩ := bind_eq_ok.mp h
    cases h
    exact ⟨Nat.zero_le _, rfl⟩
  · obtain ⟨_, -, h⟩ := bind_eq_ok.mp h
    cases h
    exact ⟨Nat.zero_le _, rfl⟩
  · obtain ⟨_, -, h⟩ := bind_eq_ok.mp h
    cases h
    exact ⟨Nat.zero_le _, rfl⟩
  · obtain ⟨⟨chars, _⟩, -, h⟩ := bind_eq_ok.mp h
    cases h
    cases chars <;> exact ⟨Nat.zero_le _, rfl⟩
  · split at h
    · cases h
    · next shallow =>
      have room_pos : 0 < room := by
        simp only [and_true] at shallow
        omega
      split at h
      · cases h
      · rw [tooDeep_of_pos room_pos] at h
        cases h
        exact ⟨room_pos, rfl⟩
      · obtain ⟨⟨items, _⟩, read, h⟩ := bind_eq_ok.mp h
        dsimp only at h
        rw [tooDeep_of_pos room_pos] at h
        cases h
        have inside := ih.items read
        rwa [Nat.sub_add_cancel room_pos] at inside
  · split at h
    · cases h
    · next shallow =>
      have room_pos : 0 < room := by
        simp only [and_true] at shallow
        omega
      split at h
      · cases h
      · rw [tooDeep_of_pos room_pos] at h
        cases h
        exact ⟨room_pos, rfl⟩
      · obtain ⟨⟨members, _⟩, read, h⟩ := bind_eq_ok.mp h
        dsimp only at h
        rw [tooDeep_of_pos room_pos] at h
        cases h
        have inside := ih.members read
        rwa [Nat.sub_add_cancel room_pos] at inside
      · cases h
  · split at h
    · obtain ⟨⟨n, _⟩, read, h⟩ := bind_eq_ok.mp h
      cases h
      cases n with
      | none => exact ⟨Nat.zero_le _, rfl⟩
      | some n => exact ⟨Nat.zero_le _, Number.isFinite_of_readNumber read⟩
    · cases h

theorem within_consItem {tree others : Tree} {n : Nat} (first : tree.Within n)
    (later : others.Within (n + 1)) : (consItem tree others).Within (n + 1) := by
  cases others with
  | array items =>
    obtain ⟨depth, finite⟩ := later
    rw [Tree.depth] at depth
    rw [Tree.isFinite] at finite
    refine ⟨?_, ?_⟩
    · have := first.depth
      rw [consItem, Tree.depth, Tree.itemsDepth]
      omega
    · rw [consItem, Tree.isFinite, Tree.itemsFinite, first.finite, finite]
      rfl
  | _ => exact ⟨Nat.zero_le _, rfl⟩

theorem within_consMember (name : Option (List Char)) {tree others : Tree} {n : Nat}
    (first : tree.Within n) (later : others.Within (n + 1)) :
    (consMember name tree others).Within (n + 1) := by
  cases name with
  | none => exact ⟨Nat.zero_le _, rfl⟩
  | some name =>
    cases others with
    | object members =>
      obtain ⟨depth, finite⟩ := later
      rw [Tree.depth] at depth
      rw [Tree.isFinite] at finite
      refine ⟨?_, ?_⟩
      · have := first.depth
        rw [consMember, Tree.depth, Tree.membersDepth]
        omega
      · rw [consMember, Tree.isFinite, Tree.membersFinite, first.finite, finite]
        rfl
    | _ => exact ⟨Nat.zero_le _, rfl⟩

theorem ReadsWithin.readItems_succ {work room : Nat} (ih : ReadsWithin work)
    {text rest : List Symbol} {tree : Tree}
    (h : readItems .strict (work + 1) room text = .ok (tree, rest)) : tree.Within (room + 1) := by
  rw [readItems] at h
  obtain ⟨⟨item, after⟩, read, h⟩ := bind_eq_ok.mp h
  have first := ih.tree read
  dsimp only at h
  split at h
  · cases h
  · cases h
    have empty : (Tree.array []).Within (room + 1) := ⟨Nat.le_add_left _ _, rfl⟩
    exact within_consItem first empty
  · split at h
    · cases h
    · cases h
    · obtain ⟨⟨others, _⟩, read, h⟩ := bind_eq_ok.mp h
      cases h
      exact within_consItem first (ih.items read)
  · cases h

theorem ReadsWithin.readMembers_succ {work room : Nat} (ih : ReadsWithin work)
    {text rest : List Symbol} {tree : Tree}
    (h : readMembers .strict (work + 1) room text = .ok (tree, rest)) :
    tree.Within (room + 1) := by
  rw [readMembers] at h
  obtain ⟨⟨name, _⟩, -, h⟩ := bind_eq_ok.mp h
  obtain ⟨⟨value, after⟩, read, h⟩ := bind_eq_ok.mp h
  have first := ih.tree read
  dsimp only at h
  split at h
  · cases h
  · cases h
    have empty : (Tree.object []).Within (room + 1) := ⟨Nat.le_add_left _ _, rfl⟩
    exact within_consMember name first empty
  · split at h
    · cases h
    · obtain ⟨⟨others, _⟩, read, h⟩ := bind_eq_ok.mp h
      cases h
      exact within_consMember name first (ih.members read)
    · cases h
    · cases h
  · cases h

theorem readsWithin (work : Nat) : ReadsWithin work := by
  induction work with
  | zero =>
    refine ⟨fun h => ?_, fun h => ?_, fun h => ?_⟩
    · rw [readTree] at h
      cases h
    · rw [readItems] at h
      cases h
    · rw [readMembers] at h
      cases h
  | succ work ih => exact ⟨ih.readTree_succ, ih.readItems_succ, ih.readMembers_succ⟩

/-! ## Values read back -/

namespace Value

mutual

/-- Reading numbers back does not change the brackets of a value, nor its names and strings. -/
theorem depth_reread : ∀ v : Value, v.reread.depth = v.depth
  | .null | .bool _ | .number _ | .string _ => rfl
  | .array items => by rw [reread, depth, depth, itemsDepth_rereadItems items]
  | .object members => by rw [reread, depth, depth, membersDepth_rereadMembers members]

theorem itemsDepth_rereadItems : ∀ items : List Value,
    itemsDepth (rereadItems items) = itemsDepth items
  | [] => rfl
  | item :: rest => by
    rw [rereadItems, itemsDepth, itemsDepth, depth_reread item, itemsDepth_rereadItems rest]

theorem membersDepth_rereadMembers : ∀ members : List (String × Value),
    membersDepth (rereadMembers members) = membersDepth members
  | [] => rfl
  | (_, value) :: rest => by
    rw [rereadMembers, membersDepth, membersDepth, depth_reread value,
      membersDepth_rereadMembers rest]

end

theorem keys_rereadMembers (members : List (String × Value)) :
    (rereadMembers members).map Prod.fst = members.map Prod.fst := by
  induction members with
  | nil => rfl
  | cons m rest ih => rw [rereadMembers, List.map_cons, List.map_cons, ih]

mutual

theorem distinct_reread : ∀ v : Value, v.Distinct → v.reread.Distinct
  | .null, _ | .bool _, _ | .number _, _ | .string _, _ => trivial
  | .array items, h => by
    rw [Distinct] at h
    rw [reread, Distinct]
    exact itemsDistinct_rereadItems items h
  | .object members, h => by
    rw [Distinct] at h
    rw [reread, Distinct, keys_rereadMembers]
    exact ⟨h.1, membersDistinct_rereadMembers members h.2⟩

theorem itemsDistinct_rereadItems : ∀ items : List Value, ItemsDistinct items →
    ItemsDistinct (rereadItems items)
  | [], _ => trivial
  | item :: rest, h => ⟨distinct_reread item h.1, itemsDistinct_rereadItems rest h.2⟩

theorem membersDistinct_rereadMembers : ∀ members : List (String × Value),
    MembersDistinct members → MembersDistinct (rereadMembers members)
  | [], _ => trivial
  | (_, value) :: rest, h => ⟨distinct_reread value h.1, membersDistinct_rereadMembers rest h.2⟩

end

end Value

/-! ## Whole texts -/

namespace Value

/-- **A value is read back from its texts.** -/
theorem read_spells {v : Value} {cs : List Char} (spells : v.Spells cs) (distinct : v.Distinct)
    (depth : v.depth ≤ maxDepth) : Value.read (symbols cs) = .ok v := by
  have read := readTree_spells .strict v spells (2 * (symbols cs).length + 2) maxDepth []
    (by rw [List.length_map]; omega) depth (fun _ _ h => by cases h)
  rw [List.append_nil] at read
  unfold Value.read Tree.read Tree.readWith readWhole?
  rw [read]
  simp only [bind, Except.bind, Except.mapError, Except.map, skipSpace, List.dropWhile_nil]
  rw [Tree.toValue_ofValue v distinct]

/-- **The compact text of a value is read as the value**, each double as its text is read. -/
theorem read_chars {v : Value} (finite : v.isFinite = true) (distinct : v.Distinct)
    (depth : v.depth ≤ maxDepth) : Value.read (symbols v.chars) = .ok v.reread :=
  read_spells (spells_reread v finite) (distinct_reread v distinct)
    (Nat.le_trans (Nat.le_of_eq (depth_reread v)) depth)

theorem tree_of_read {text : List Symbol} {v : Value} (h : Value.read text = .ok v) :
    ∃ tree rest, readTree .strict (2 * text.length + 2) maxDepth text = .ok (tree, rest) ∧
      skipSpace rest = [] ∧ tree.toValue = v := by
  unfold Value.read Tree.read Tree.readWith readWhole? at h
  obtain ⟨tree, read, rfl⟩ := map_eq_ok.mp h
  obtain ⟨⟨tree', rest⟩, read, h⟩ := bind_eq_ok.mp (mapError_eq_ok.mp read)
  dsimp only at h
  split at h
  · next ended =>
    cases h
    exact ⟨tree, rest, read, ended, rfl⟩
  · cases h

/-- **What is read has no repeated names.** -/
theorem distinct_of_read {text : List Symbol} {v : Value} (h : Value.read text = .ok v) :
    v.Distinct := by
  obtain ⟨tree, -, -, -, rfl⟩ := tree_of_read h
  exact Tree.distinct_toValue tree

/-- **What is read is at most 127 deep.** -/
theorem depth_of_read {text : List Symbol} {v : Value} (h : Value.read text = .ok v) :
    v.depth ≤ maxDepth := by
  obtain ⟨tree, rest, read, -, rfl⟩ := tree_of_read h
  exact Nat.le_trans (Tree.depth_toValue tree) ((readsWithin _).tree read).depth

/-- **No number that is read is infinite or undefined.** -/
theorem isFinite_of_read {text : List Symbol} {v : Value} (h : Value.read text = .ok v) :
    v.isFinite = true := by
  obtain ⟨tree, rest, read, -, rfl⟩ := tree_of_read h
  exact Tree.isFinite_toValue tree ((readsWithin _).tree read).finite

end Value

end CapabilityPipeline.Json
