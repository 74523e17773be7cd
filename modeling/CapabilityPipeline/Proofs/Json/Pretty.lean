import CapabilityPipeline.Proofs.Json.RoundTrip

/-!
# Pretty texts are read back

The pretty text of a value breaks lines and indents, and both are spaces to a reader.

Results:

* `Value.spells_prettyChars`: the pretty text is one of the texts of a value.
* `Tree.readLenient_pretty`: a lenient reader finds the tree of the value in it.
-/

namespace CapabilityPipeline.Json

open Text (Symbol)

namespace Value

theorem gap_lineBreak (level : Nat) : Gap (lineBreak level) := by
  intro c hc
  rcases List.mem_cons.mp hc with rfl | indent
  · rfl
  · rw [List.eq_of_mem_replicate indent]
    rfl

mutual

/-- The pretty text of a value whose numbers are integers is one of its texts. -/
theorem spells_prettyChars : ∀ (v : Value) (level : Nat), v.isIntegral = true →
    v.Spells (prettyChars level v)
  | .null, _, h => by
    rw [prettyChars]
    exacts [spells_chars _ h, nofun, nofun, nofun, nofun]
  | .bool _, _, h => by
    rw [prettyChars]
    exacts [spells_chars _ h, nofun, nofun, nofun, nofun]
  | .number _, _, h => by
    rw [prettyChars]
    exacts [spells_chars _ h, nofun, nofun, nofun, nofun]
  | .string _, _, h => by
    rw [prettyChars]
    exacts [spells_chars _ h, nofun, nofun, nofun, nofun]
  | .array [], _, _ => by
    rw [prettyChars, Spells]
    exact ⟨[], by rw [ItemsSpell]; exact gap_nil, rfl⟩
  | .array (item :: more), level, h => by
    rw [isIntegral] at h
    rw [prettyChars, Spells]
    · refine ⟨_, itemsSpell_prettyItems (item :: more) (level + 1) (List.cons_ne_nil _ _) h
        (gap_lineBreak (level + 1)) (gap_lineBreak level), ?_⟩
      simp
    · exact nofun
  | .object [], _, _ => by
    rw [prettyChars, Spells]
    exact ⟨[], by rw [MembersSpell]; exact gap_nil, rfl⟩
  | .object (member :: more), level, h => by
    rw [isIntegral] at h
    rw [prettyChars, Spells]
    · refine ⟨_, membersSpell_prettyMembers (member :: more) (level + 1) (List.cons_ne_nil _ _) h
        (gap_lineBreak (level + 1)) (gap_lineBreak level), ?_⟩
      simp
    · exact nofun

/-- The pretty texts of items, with spaces around them, are one of their texts. -/
theorem itemsSpell_prettyItems : ∀ (items : List Value) (level : Nat), items ≠ [] →
    itemsIntegral items = true → ∀ {before after : List Char}, Gap before → Gap after →
      ItemsSpell items (before ++ (prettyItems level items ++ after))
  | [], _, nonempty, _, _, _, _, _ => absurd rfl nonempty
  | [item], level, _, h, before, after, hb, ha => by
    rw [itemsIntegral, Bool.and_eq_true] at h
    rw [ItemsSpell, prettyItems]
    exact ⟨before, _, after, hb, spells_prettyChars item level h.1, ha, rfl⟩
  | item :: next :: others, level, _, h, before, after, hb, ha => by
    rw [itemsIntegral, Bool.and_eq_true] at h
    have later := itemsSpell_prettyItems (next :: others) level (List.cons_ne_nil _ _) h.2
      (gap_lineBreak level) ha
    rw [ItemsSpell, prettyItems]
    · refine ⟨before, _, [], _, hb, spells_prettyChars item level h.1, gap_nil, later, ?_⟩
      simp
    · exact nofun
    · exact nofun

/-- The pretty texts of members, with spaces around them, are one of their texts. -/
theorem membersSpell_prettyMembers : ∀ (members : List (String × Value)) (level : Nat),
    members ≠ [] → membersIntegral members = true → ∀ {before after : List Char}, Gap before →
      Gap after → MembersSpell members (before ++ (prettyMembers level members ++ after))
  | [], _, nonempty, _, _, _, _, _ => absurd rfl nonempty
  | [(name, value)], level, _, h, before, after, hb, ha => by
    rw [membersIntegral, Bool.and_eq_true] at h
    rw [MembersSpell, prettyMembers]
    refine ⟨before, [], [' '], _, after, hb, gap_nil, ?_, spells_prettyChars value level h.1, ha,
      ?_⟩
    · intro c hc
      rw [List.mem_singleton.mp hc]
      rfl
    · simp
  | (name, value) :: next :: others, level, _, h, before, after, hb, ha => by
    rw [membersIntegral, Bool.and_eq_true] at h
    have later := membersSpell_prettyMembers (next :: others) level (List.cons_ne_nil _ _) h.2
      (gap_lineBreak level) ha
    rw [MembersSpell, prettyMembers]
    · refine ⟨before, [], [' '], _, [], _, hb, gap_nil, ?_, spells_prettyChars value level h.1,
        gap_nil, later, ?_⟩
      · intro c hc
        rw [List.mem_singleton.mp hc]
        rfl
      · simp
    · exact nofun
    · exact nofun

end

end Value

/-- **A lenient reader finds the tree of a value in its pretty text.** -/
theorem Tree.readLenient_pretty {v : Value} (integral : v.isIntegral = true)
    (depth : v.depth ≤ maxDepth) :
    Tree.readLenient (Symbol.ofText v.pretty) = .ok (.ofValue v) := by
  have text : Symbol.ofText v.pretty = symbols (v.prettyChars 0) := by
    unfold Symbol.ofText Value.pretty
    rw [String.toList_ofList]
  have read := readTree_spells .lenient v (v.spells_prettyChars 0 integral)
    (2 * (symbols (v.prettyChars 0)).length + 2) maxDepth [] (by rw [List.length_map]; omega)
    depth (fun _ _ h => by cases h)
  rw [List.append_nil] at read
  unfold Tree.readLenient Tree.readWith readWhole?
  rw [text, read]
  rfl

end CapabilityPipeline.Json
