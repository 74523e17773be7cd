import CapabilityPipeline.Proofs.Json.Doubles
import CapabilityPipeline.Proofs.Results

/-!
# The texts of a JSON value

A value may be written with any spaces between its parts. Every such text reads back as the value,
by a strict reader and by a lenient one, provided that brackets do not nest too deep. The text that
a value is printed as need not be one of its own: a double is read back as what its digits come to.

Results:

* `Value.Spells`: the texts of a value.
* `readTree_spells`: reading a value from the front of a text.
* `Value.reread`, `Value.spells_reread`: the compact text of a value with finite numbers is one of
  the texts of the value that differs from it by its doubles at most.
* `Value.spells_chars`: if all numbers are integers, it is one of the texts of the value itself.
-/

namespace CapabilityPipeline.Json

open Text (Symbol)

/-! ## Measures of values -/

/-- A number is not infinite or undefined. -/
def Number.isFinite : Number → Bool
  | .integer _ _ => true
  | .double x => x.isFinite

namespace Value

mutual

/-- How deep brackets nest in a value. -/
def depth : Value → Nat
  | .array items => itemsDepth items + 1
  | .object members => membersDepth members + 1
  | _ => 0

/-- How deep brackets nest in items. -/
def itemsDepth : List Value → Nat
  | [] => 0
  | item :: rest => max (depth item) (itemsDepth rest)

/-- How deep brackets nest in the values of members. -/
def membersDepth : List (String × Value) → Nat
  | [] => 0
  | (_, value) :: rest => max (depth value) (membersDepth rest)

end

mutual

/-- No number of a value is infinite or undefined. -/
def isFinite : Value → Bool
  | .number n => n.isFinite
  | .array items => itemsFinite items
  | .object members => membersFinite members
  | _ => true

/-- No number of items is infinite or undefined. -/
def itemsFinite : List Value → Bool
  | [] => true
  | item :: rest => isFinite item && itemsFinite rest

/-- No number of the values of members is infinite or undefined. -/
def membersFinite : List (String × Value) → Bool
  | [] => true
  | (_, value) :: rest => isFinite value && membersFinite rest

end

mutual

/-- All numbers of a value are integers. -/
def isIntegral : Value → Bool
  | .number (.double _) => false
  | .array items => itemsIntegral items
  | .object members => membersIntegral members
  | _ => true

/-- All numbers of items are integers. -/
def itemsIntegral : List Value → Bool
  | [] => true
  | item :: rest => isIntegral item && itemsIntegral rest

/-- All numbers of the values of members are integers. -/
def membersIntegral : List (String × Value) → Bool
  | [] => true
  | (_, value) :: rest => isIntegral value && membersIntegral rest

end

end Value

/-! ## Texts of values -/

/-- A text is read as a number, in front of whatever ends it. -/
structure Number.ReadFrom (n : Number) (cs : List Char) : Prop where
  head : ∃ c tail, cs = c :: tail ∧ (c = '-' ∨ c.isDigit = true)
  read : ∀ (skipping : Bool) (rest : List Symbol), EndsNumber rest →
    readNumber skipping (symbols cs ++ rest) = .ok (some n, rest)

/-- Spaces between the parts of a value. -/
def Gap (cs : List Char) : Prop := ∀ c ∈ cs, isSpace (.char c) = true

namespace Value

mutual

/-- A text is one way to write a value. -/
def Spells : Value → List Char → Prop
  | .null, cs => cs = ['n', 'u', 'l', 'l']
  | .bool true, cs => cs = ['t', 'r', 'u', 'e']
  | .bool false, cs => cs = ['f', 'a', 'l', 's', 'e']
  | .number n, cs => n.ReadFrom cs
  | .string s, cs => cs = stringText s
  | .array items, cs => ∃ body, ItemsSpell items body ∧ cs = '[' :: (body ++ [']'])
  | .object members, cs => ∃ body, MembersSpell members body ∧ cs = '\x7b' :: (body ++ ['\x7d'])

/-- A text is one way to write the items of an array. -/
def ItemsSpell : List Value → List Char → Prop
  | [], cs => Gap cs
  | [item], cs => ∃ before text after, Gap before ∧ Spells item text ∧ Gap after ∧
      cs = before ++ (text ++ after)
  | item :: rest, cs => ∃ before text after others, Gap before ∧ Spells item text ∧ Gap after ∧
      ItemsSpell rest others ∧ cs = before ++ (text ++ (after ++ ',' :: others))

/-- A text is one way to write the members of an object. -/
def MembersSpell : List (String × Value) → List Char → Prop
  | [], cs => Gap cs
  | [(name, value)], cs => ∃ before colon gap text after, Gap before ∧ Gap colon ∧ Gap gap ∧
      Spells value text ∧ Gap after ∧
      cs = before ++ (stringText name ++ (colon ++ ':' :: (gap ++ (text ++ after))))
  | (name, value) :: rest, cs => ∃ before colon gap text after others, Gap before ∧ Gap colon ∧
      Gap gap ∧ Spells value text ∧ Gap after ∧ MembersSpell rest others ∧
      cs = before ++
        (stringText name ++ (colon ++ ':' :: (gap ++ (text ++ (after ++ ',' :: others)))))

end

end Value

/-! ## Spaces and first characters -/

theorem gap_nil : Gap [] := fun _ h => by cases h

theorem skipSpace_gap {gap : List Char} (h : Gap gap) (text : List Symbol) :
    skipSpace (symbols gap ++ text) = skipSpace text := by
  unfold skipSpace
  refine List.dropWhile_append_of_pos fun s hs => ?_
  obtain ⟨c, hc, rfl⟩ := List.mem_map.mp hs
  exact h c hc

theorem skipSpace_cons {s : Symbol} (h : isSpace s = false) (text : List Symbol) :
    skipSpace (s :: text) = s :: text :=
  List.dropWhile_cons_of_neg (by rw [h]; decide)

/-- A character that can start a value. -/
def startsValue (c : Char) : Bool :=
  c = 'n' || c = 't' || c = 'f' || c = '"' || c = '[' || c = '\x7b' || c = '-' || c.isDigit

theorem isSpace_of_startsValue {c : Char} (h : startsValue c = true) :
    isSpace (.char c) = false := by
  rw [Bool.eq_false_iff]
  intro space
  simp only [isSpace, Bool.or_eq_true, decide_eq_true_eq] at space
  rcases space with ((rfl | rfl) | rfl) | rfl <;> revert h <;> decide

theorem Value.Spells.head {v : Value} {cs : List Char} (h : v.Spells cs) :
    ∃ c tail, cs = c :: tail ∧ startsValue c = true := by
  cases v with
  | null => rw [Spells] at h; exact ⟨_, _, h, rfl⟩
  | bool b => cases b <;> rw [Spells] at h <;> exact ⟨_, _, h, rfl⟩
  | number n =>
    rw [Spells] at h
    obtain ⟨c, tail, text, head⟩ := h.head
    refine ⟨c, tail, text, ?_⟩
    rcases head with rfl | digit
    · rfl
    · unfold startsValue
      rw [digit, Bool.or_true]
  | string s => rw [Spells] at h; exact ⟨_, _, h, rfl⟩
  | array items =>
    rw [Spells] at h
    obtain ⟨body, -, rfl⟩ := h
    exact ⟨_, _, rfl, rfl⟩
  | object members =>
    rw [Spells] at h
    obtain ⟨body, -, rfl⟩ := h
    exact ⟨_, _, rfl, rfl⟩

/-- What stands in front of a value, once spaces are passed over. -/
theorem Value.Spells.skipSpace_eq {v : Value} {cs gap : List Char} (h : v.Spells cs)
    (hg : Gap gap) (rest : List Symbol) :
    skipSpace (symbols gap ++ (symbols cs ++ rest)) = symbols cs ++ rest := by
  obtain ⟨c, tail, rfl, starts⟩ := h.head
  rw [skipSpace_gap hg]
  exact skipSpace_cons (isSpace_of_startsValue starts) _

theorem endsNumber_gap {gap : List Char} (h : Gap gap) {c : Char} {rest : List Symbol}
    (ends : EndsNumber (.char c :: rest)) : EndsNumber (symbols gap ++ .char c :: rest) := by
  cases gap with
  | nil => exact ends
  | cons d gap =>
    intro s tail same
    cases same
    have space := h d (List.mem_cons_self ..)
    simp only [isSpace, Bool.or_eq_true, decide_eq_true_eq] at space
    rcases space with ((rfl | rfl) | rfl) | rfl <;> decide

/-! ## Reading -/

theorem symbols_append (a b : List Char) : symbols (a ++ b) = symbols a ++ symbols b :=
  List.map_append

theorem symbols_cons (c : Char) (cs : List Char) : symbols (c :: cs) = .char c :: symbols cs :=
  rfl

theorem tooDeep_of_pos {room : Nat} (h : 0 < room) (tree : Tree) : tooDeep room tree = tree := by
  unfold tooDeep
  rw [if_neg (by omega)]

/-- Reading the name of a member from after its opening quote. -/
theorem readName_stringBody (care : Care) (name : String) {colon : List Char} (hc : Gap colon)
    (rest : List Symbol) :
    readName care (symbols (stringBody name.toList) ++
      .char '"' :: (symbols colon ++ .char ':' :: rest)) = .ok (some name.toList, rest) := by
  unfold readName
  rw [readChars_stringBody]
  simp only [bind, Except.bind]
  rw [skipSpace_gap hc, skipSpace_cons rfl]
  rfl

theorem readTree_string (care : Care) (work room : Nat) (s : String) (rest : List Symbol) :
    readTree care (work + 1) room (symbols (stringText s) ++ rest) = .ok (.string s, rest) := by
  rw [stringText_eq, symbols_cons, symbols_append, List.cons_append, List.append_assoc, readTree,
    skipSpace_cons rfl]
  dsimp only
  simp only [symbols_cons, List.map_nil, List.cons_append, List.nil_append]
  rw [readChars_stringBody]
  simp only [bind, Except.bind, stringTree, String.ofList_toList]

theorem readTree_number (care : Care) (work room : Nat) {n : Number} {cs : List Char}
    (h : n.ReadFrom cs) {rest : List Symbol} (ends : EndsNumber rest) :
    readTree care (work + 1) room (symbols cs ++ rest) = .ok (.number n, rest) := by
  have read := h.read care.skips rest ends
  obtain ⟨c, tail, text, head⟩ := h.head
  rw [text, symbols_cons, List.cons_append] at read ⊢
  have starts : startsNumber (.char c) = true := by
    rcases head with rfl | digit
    · rfl
    · unfold Char.isDigit at digit
      simp only [Bool.and_eq_true, decide_eq_true_eq] at digit
      simp only [startsNumber, Bool.or_eq_true, Bool.and_eq_true, decide_eq_true_eq]
      exact .inr digit
  have other (d : Char) (hd : startsNumber (.char d) = false) : c ≠ d := by
    rintro rfl
    rw [starts] at hd
    cases hd
  have space : isSpace (.char c) = false := by
    rw [Bool.eq_false_iff]
    intro space
    simp only [isSpace, Bool.or_eq_true, decide_eq_true_eq] at space
    rcases space with ((rfl | rfl) | rfl) | rfl <;> revert starts <;> decide
  rw [readTree, skipSpace_cons space]
  split
  · next h => cases h
  · next h => cases h; exact absurd rfl (other 'n' rfl)
  · next h => cases h; exact absurd rfl (other 't' rfl)
  · next h => cases h; exact absurd rfl (other 'f' rfl)
  · next h => cases h; exact absurd rfl (other '"' rfl)
  · next h => cases h; exact absurd rfl (other '[' rfl)
  · next h => cases h; exact absurd rfl (other '\x7b' rfl)
  · next h =>
    cases h
    rw [if_pos starts, read]
    rfl

theorem readTree_gap (care : Care) (work room : Nat) {gap : List Char} (h : Gap gap)
    (text : List Symbol) :
    readTree care work room (symbols gap ++ text) = readTree care work room text := by
  cases work with
  | zero => rw [readTree, readTree]
  | succ work => rw [readTree, readTree, skipSpace_gap h]

/-! Brackets are read with what comes first within them. -/

section Brackets

variable (care : Care) (work : Nat) {room : Nat} (h : 0 < room) {text rest : List Symbol}

include h

theorem readTree_emptyBrackets (inside : skipSpace text = .char ']' :: rest) :
    readTree care (work + 1) room (.char '[' :: text) = .ok (.array [], rest) := by
  rw [readTree, skipSpace_cons rfl]
  simp only [tooDeep_of_pos h, show ¬(room = 0 ∧ care = .strict) by omega, if_false, inside]

theorem readTree_bracket {c : Char} (inside : skipSpace text = .char c :: rest) (item : c ≠ ']') :
    readTree care (work + 1) room (.char '[' :: text) =
      readItems care work (room - 1) (.char c :: rest) := by
  rw [readTree, skipSpace_cons rfl]
  simp only [tooDeep_of_pos h, show ¬(room = 0 ∧ care = .strict) by omega, if_false, inside]
  split
  · next empty => cases empty
  · next closes => cases closes; exact absurd rfl item
  · simp only [Prod.eta, bind_ok]

theorem readTree_emptyBraces (inside : skipSpace text = .char '\x7d' :: rest) :
    readTree care (work + 1) room (.char '\x7b' :: text) = .ok (.object [], rest) := by
  rw [readTree, skipSpace_cons rfl]
  simp only [tooDeep_of_pos h, show ¬(room = 0 ∧ care = .strict) by omega, if_false, inside]

theorem readTree_brace (inside : skipSpace text = .char '"' :: rest) :
    readTree care (work + 1) room (.char '\x7b' :: text) =
      readMembers care work (room - 1) rest := by
  rw [readTree, skipSpace_cons rfl]
  simp only [tooDeep_of_pos h, show ¬(room = 0 ∧ care = .strict) by omega, if_false, inside,
    Prod.eta, bind_ok]

end Brackets

theorem endsNumber_cons {c : Char} {rest : List Symbol} (h : c = ',' ∨ c = ']' ∨ c = '\x7d') :
    EndsNumber (.char c :: rest) := by
  intro s tail same
  cases same
  rcases h with rfl | rfl | rfl <;> decide

/-- The items of an array begin with a value. -/
theorem Value.ItemsSpell.head {item : Value} {more : List Value} {body : List Char}
    (h : Value.ItemsSpell (item :: more) body) (rest : List Symbol) :
    ∃ c tail, skipSpace (symbols body ++ rest) = .char c :: tail ∧ startsValue c = true := by
  obtain ⟨before, text, tail, hb, spells, rfl⟩ : ∃ before text tail, Gap before ∧
      item.Spells text ∧ body = before ++ (text ++ tail) := by
    cases more with
    | nil =>
      rw [Value.ItemsSpell] at h
      obtain ⟨before, text, after, hb, spells, -, rfl⟩ := h
      exact ⟨before, text, after, hb, spells, rfl⟩
    | cons next others =>
      rw [Value.ItemsSpell] at h
      · obtain ⟨before, text, after, tail, hb, spells, -, -, rfl⟩ := h
        exact ⟨before, text, _, hb, spells, rfl⟩
      · simp
  obtain ⟨c, text', rfl, starts⟩ := spells.head
  refine ⟨c, symbols (text' ++ tail) ++ rest, ?_, starts⟩
  rw [symbols_append, List.append_assoc, skipSpace_gap hb]
  exact skipSpace_cons (isSpace_of_startsValue starts) _

/-- The members of an object begin with a name. -/
theorem Value.MembersSpell.head {name : String} {value : Value} {more : List (String × Value)}
    {body : List Char} (h : Value.MembersSpell ((name, value) :: more) body)
    (rest : List Symbol) :
    ∃ tail, skipSpace (symbols body ++ rest) = .char '"' :: tail := by
  obtain ⟨before, tail, hb, rfl⟩ : ∃ before tail, Gap before ∧
      body = before ++ (stringText name ++ tail) := by
    cases more with
    | nil =>
      rw [Value.MembersSpell] at h
      obtain ⟨before, colon, gap, text, after, hb, -, -, -, -, rfl⟩ := h
      exact ⟨before, _, hb, rfl⟩
    | cons next others =>
      rw [Value.MembersSpell] at h
      · obtain ⟨before, colon, gap, text, after, tail, hb, -, -, -, -, -, rfl⟩ := h
        exact ⟨before, _, hb, rfl⟩
      · simp
  rw [symbols_append, List.append_assoc, skipSpace_gap hb, stringText_eq]
  exact ⟨_, skipSpace_cons rfl _⟩

mutual

/-- Reading a value from the front of a text in which it is spelled. -/
theorem readTree_spells (care : Care) : ∀ (v : Value) {cs : List Char}, v.Spells cs →
    ∀ (work room : Nat) (rest : List Symbol), 2 * cs.length ≤ work → v.depth ≤ room →
      EndsNumber rest → readTree care work room (symbols cs ++ rest) = .ok (.ofValue v, rest)
  | .null, cs, h, work, room, rest, hw, _, _ => by
    rw [Value.Spells] at h
    subst h
    obtain ⟨work, rfl⟩ : ∃ w, work = w + 1 := ⟨work - 1, by simp at hw; omega⟩
    simp [symbols, readTree, skipSpace_cons, isSpace, readWord, bind, Except.bind, Tree.ofValue]
  | .bool b, cs, h, work, room, rest, hw, _, _ => by
    obtain ⟨work, rfl⟩ : ∃ w, work = w + 1 := by
      refine ⟨work - 1, ?_⟩
      cases b <;> rw [Value.Spells] at h <;> subst h <;> simp at hw <;> omega
    cases b <;> rw [Value.Spells] at h <;> subst h <;>
      simp [symbols, readTree, skipSpace_cons, isSpace, readWord, bind, Except.bind, Tree.ofValue]
  | .number n, cs, h, work, room, rest, hw, _, ends => by
    rw [Value.Spells] at h
    obtain ⟨c, tail, text, -⟩ := h.head
    obtain ⟨work, rfl⟩ : ∃ w, work = w + 1 := ⟨work - 1, by rw [text] at hw; simp at hw; omega⟩
    rw [readTree_number care work room h ends, Tree.ofValue]
  | .string s, cs, h, work, room, rest, hw, _, _ => by
    rw [Value.Spells] at h
    subst h
    obtain ⟨work, rfl⟩ : ∃ w, work = w + 1 := ⟨work - 1, by simp [stringText] at hw; omega⟩
    rw [readTree_string, Tree.ofValue]
  | .array items, cs, h, work, room, rest, hw, hd, _ => by
    rw [Value.Spells] at h
    obtain ⟨body, spells, rfl⟩ := h
    simp only [List.length_cons, List.length_append, List.length_nil] at hw
    rw [Value.depth] at hd
    obtain ⟨work, rfl⟩ : ∃ w, work = w + 1 := ⟨work - 1, by omega⟩
    rw [symbols_cons, symbols_append, List.cons_append, List.append_assoc, Tree.ofValue]
    simp only [symbols_cons, List.map_nil, List.cons_append, List.nil_append]
    cases items with
    | nil =>
      rw [Value.ItemsSpell] at spells
      rw [readTree_emptyBrackets care work (by omega)
        ((skipSpace_gap spells _).trans (skipSpace_cons rfl _)), Tree.ofItems]
    | cons item more =>
      obtain ⟨c, tail, start, starts⟩ := spells.head (.char ']' :: rest)
      have items := readItems_spells care (item :: more) spells (by simp) work (room - 1) rest
        (by omega) (by omega)
      have other : c ≠ ']' := by
        rintro rfl
        exact absurd starts (by decide)
      rw [readTree_bracket care work (by omega) start other, ← start, items]
  | .object members, cs, h, work, room, rest, hw, hd, _ => by
    rw [Value.Spells] at h
    obtain ⟨body, spells, rfl⟩ := h
    simp only [List.length_cons, List.length_append, List.length_nil] at hw
    rw [Value.depth] at hd
    obtain ⟨work, rfl⟩ : ∃ w, work = w + 1 := ⟨work - 1, by omega⟩
    rw [symbols_cons, symbols_append, List.cons_append, List.append_assoc, Tree.ofValue]
    simp only [symbols_cons, List.map_nil, List.cons_append, List.nil_append]
    match members with
    | [] =>
      rw [Value.MembersSpell] at spells
      rw [readTree_emptyBraces care work (by omega)
        ((skipSpace_gap spells _).trans (skipSpace_cons rfl _)), Tree.ofMembers]
    | (name, value) :: more =>
      obtain ⟨tail, start⟩ := spells.head (.char '\x7d' :: rest)
      rw [readTree_brace care work (by omega) start]
      exact readMembers_spells care ((name, value) :: more) spells (by simp) work (room - 1) tail
        rest (by omega) (by omega) start

/-- Reading the items of an array up to the closing bracket. -/
theorem readItems_spells (care : Care) : ∀ (items : List Value) {body : List Char},
    Value.ItemsSpell items body → items ≠ [] → ∀ (work room : Nat) (rest : List Symbol),
      2 * body.length + 1 ≤ work → Value.itemsDepth items ≤ room →
      readItems care work room (skipSpace (symbols body ++ .char ']' :: rest)) =
        .ok (.array (Tree.ofItems items), rest)
  | [], _, _, nonempty, _, _, _, _, _ => absurd rfl nonempty
  | [item], body, h, _, work, room, rest, hw, hd => by
    rw [Value.ItemsSpell] at h
    obtain ⟨before, text, after, hb, spells, ha, rfl⟩ := h
    simp only [List.length_append] at hw
    rw [Value.itemsDepth] at hd
    obtain ⟨work, rfl⟩ : ∃ w, work = w + 1 := ⟨work - 1, by omega⟩
    have value := readTree_spells care item spells work room
      (symbols after ++ .char ']' :: rest) (by omega) (by omega)
      (endsNumber_gap ha (endsNumber_cons (.inr (.inl rfl))))
    rw [symbols_append, symbols_append, List.append_assoc, List.append_assoc,
      spells.skipSpace_eq hb, readItems]
    simp only [value, bind, Except.bind]
    rw [skipSpace_gap ha, skipSpace_cons rfl]
    rfl
  | item :: next :: others, body, h, _, work, room, rest, hw, hd => by
    rw [Value.ItemsSpell] at h
    obtain ⟨before, text, after, tail, hb, spells, ha, later, rfl⟩ := h
    simp only [List.length_append, List.length_cons] at hw
    rw [Value.itemsDepth] at hd
    obtain ⟨work, rfl⟩ : ∃ w, work = w + 1 := ⟨work - 1, by omega⟩
    have value := readTree_spells care item spells work room
      (symbols after ++ .char ',' :: (symbols tail ++ .char ']' :: rest)) (by omega) (by omega)
      (endsNumber_gap ha (endsNumber_cons (.inl rfl)))
    have items := readItems_spells care (next :: others) later (by simp) work room rest
      (by omega) (by omega)
    obtain ⟨c, tail', start, starts⟩ := later.head (.char ']' :: rest)
    simp only [symbols_append, symbols_cons, List.append_assoc, List.cons_append]
    rw [spells.skipSpace_eq hb, readItems]
    simp only [value, bind, Except.bind]
    rw [skipSpace_gap ha, skipSpace_cons rfl]
    simp only []
    rw [start] at items ⊢
    split
    · next e => cases e
    · next e => cases e; exact absurd starts (by decide)
    · rw [items]
      rfl
    · simp

/-- Reading the members of an object, from after the quote of the first name up to the closing
brace. -/
theorem readMembers_spells (care : Care) : ∀ (members : List (String × Value))
    {body : List Char}, Value.MembersSpell members body → members ≠ [] →
    ∀ (work room : Nat) (tail rest : List Symbol),
      2 * body.length + 1 ≤ work → Value.membersDepth members ≤ room →
      skipSpace (symbols body ++ .char '\x7d' :: rest) = .char '"' :: tail →
      readMembers care work room tail = .ok (.object (Tree.ofMembers members), rest)
  | [], _, _, nonempty, _, _, _, _, _, _, _ => absurd rfl nonempty
  | [(name, value)], body, h, _, work, room, tail, rest, hw, hd, start => by
    rw [Value.MembersSpell] at h
    obtain ⟨before, colon, gap, text, after, hb, hc, hg, spells, ha, rfl⟩ := h
    simp only [List.length_append, List.length_cons] at hw
    rw [Value.membersDepth] at hd
    obtain ⟨work, rfl⟩ : ∃ w, work = w + 1 := ⟨work - 1, by omega⟩
    have read := readTree_spells care value spells work room
      (symbols after ++ .char '\x7d' :: rest) (by omega) (by omega)
      (endsNumber_gap ha (endsNumber_cons (.inr (.inr rfl))))
    rw [symbols_append, List.append_assoc, skipSpace_gap hb, stringText_eq, List.cons_append,
      symbols_cons, List.cons_append, skipSpace_cons rfl] at start
    simp only [symbols_append, symbols_cons, List.append_assoc, List.cons_append,
      List.nil_append] at start
    cases start
    rw [readMembers, readName_stringBody care name hc]
    simp only [bind, Except.bind]
    rw [readTree_gap care work room hg, read]
    simp only []
    rw [skipSpace_gap ha, skipSpace_cons rfl]
    simp only [consMember, String.ofList_toList]
    rfl
  | (name, value) :: (name', value') :: others, body, h, _, work, room, tail, rest, hw, hd,
    start => by
    rw [Value.MembersSpell] at h
    obtain ⟨before, colon, gap, text, after, later, hb, hc, hg, spells, ha, members, rfl⟩ := h
    simp only [List.length_append, List.length_cons] at hw
    rw [Value.membersDepth] at hd
    obtain ⟨work, rfl⟩ : ∃ w, work = w + 1 := ⟨work - 1, by omega⟩
    have read := readTree_spells care value spells work room
      (symbols after ++ .char ',' :: (symbols later ++ .char '\x7d' :: rest)) (by omega) (by omega)
      (endsNumber_gap ha (endsNumber_cons (.inl rfl)))
    obtain ⟨next, start'⟩ := members.head (.char '\x7d' :: rest)
    have read' := readMembers_spells care ((name', value') :: others) members (by simp)
      work room next rest (by omega) (by omega) start'
    rw [symbols_append, List.append_assoc, skipSpace_gap hb, stringText_eq, List.cons_append,
      symbols_cons, List.cons_append, skipSpace_cons rfl] at start
    simp only [symbols_append, symbols_cons, List.append_assoc, List.cons_append,
      List.nil_append] at start
    cases start
    rw [readMembers, readName_stringBody care name hc]
    simp only [bind, Except.bind]
    rw [readTree_gap care work room hg, read]
    simp only []
    rw [skipSpace_gap ha, skipSpace_cons rfl]
    simp only []
    rw [start']
    simp only [read', consMember, String.ofList_toList]
    rfl
    simp

end

/-! ## Numbers printed and read -/

namespace Number

/-- What the text of a number is read as: the number itself, unless it is a double. -/
def reread (n : Number) : Number :=
  match readNumber false (symbols n.text) with
  | .ok (some m, _) => m
  | _ => n

theorem text_integer_head (value : Int) :
    ∃ c tail, integerText value = c :: tail ∧ (c = '-' ∨ c.isDigit = true) := by
  unfold integerText
  split
  · exact ⟨_, _, rfl, .inl rfl⟩
  · cases h : Nat.toDigits 10 value.natAbs with
    | nil => exact absurd h Nat.toDigits_ne_nil
    | cons c tail =>
      refine ⟨c, tail, rfl, .inr ?_⟩
      exact Nat.isDigit_of_mem_toDigits (n := value.natAbs) (by decide) (by decide)
        (h ▸ List.mem_cons_self ..)

theorem readFrom_integer (value : Int) (inRange : InRange value) :
    ReadFrom (.integer value inRange) (integerText value) where
  head := text_integer_head value
  read skipping _ ends := readNumber_integerText skipping ends value inRange

theorem reread_of_readFrom {n m : Number} (h : m.ReadFrom n.text) : n.reread = m := by
  have read := h.read false [] fun _ _ none => by cases none
  rw [List.append_nil] at read
  rw [reread, read]

theorem reread_integer (value : Int) (inRange : InRange value) :
    reread (.integer value inRange) = .integer value inRange :=
  reread_of_readFrom (readFrom_integer value inRange)

/-- **The text of a finite number is read**, and always as the same number. -/
theorem readFrom_text {n : Number} (h : n.isFinite = true) : n.reread.ReadFrom n.text := by
  cases n with
  | integer value inRange =>
    rw [reread_integer]
    exact readFrom_integer value inRange
  | double x =>
    obtain ⟨m, read⟩ := readNumber_doubleText h
    have from_ : m.ReadFrom (text (.double x)) := ⟨doubleText_head x, read⟩
    rw [reread_of_readFrom from_]
    exact from_

end Number

/-! ## Compact texts -/

namespace Value

mutual

/-- The value with each number as its text is read. -/
def reread : Value → Value
  | .number n => .number n.reread
  | .array items => .array (rereadItems items)
  | .object members => .object (rereadMembers members)
  | v => v

/-- Items with each number as its text is read. -/
def rereadItems : List Value → List Value
  | [] => []
  | item :: rest => reread item :: rereadItems rest

/-- Members with each number as its text is read. -/
def rereadMembers : List (String × Value) → List (String × Value)
  | [] => []
  | (name, value) :: rest => (name, reread value) :: rereadMembers rest

end

mutual

/-- The compact text of a value with finite numbers is one of the texts of the value with each
number as its text is read. -/
theorem spells_reread : ∀ v : Value, v.isFinite = true → v.reread.Spells v.chars
  | .null, _ => by
    show Spells .null (chars .null)
    rw [Spells, chars]
  | .bool b, _ => by
    show Spells (.bool b) (chars (.bool b))
    cases b <;> rw [Spells, chars]
  | .number n, h => by
    rw [isFinite] at h
    rw [reread, Spells, chars]
    exact Number.readFrom_text h
  | .string s, _ => by
    show Spells (.string s) (chars (.string s))
    rw [Spells, chars]
  | .array items, h => by
    rw [isFinite] at h
    rw [reread, Spells, chars]
    exact ⟨itemChars items, itemsSpell_rereadItems items h, rfl⟩
  | .object members, h => by
    rw [isFinite] at h
    rw [reread, Spells, chars]
    exact ⟨memberChars members, membersSpell_rereadMembers members h, rfl⟩

/-- The same for the items of an array. -/
theorem itemsSpell_rereadItems : ∀ items : List Value, itemsFinite items = true →
    ItemsSpell (rereadItems items) (itemChars items)
  | [], _ => by
    rw [rereadItems, ItemsSpell, itemChars]
    exact gap_nil
  | [item], h => by
    rw [itemsFinite, Bool.and_eq_true] at h
    rw [rereadItems, rereadItems, ItemsSpell, itemChars]
    exact ⟨[], chars item, [], gap_nil, spells_reread item h.1, gap_nil, by simp⟩
  | item :: next :: others, h => by
    rw [itemsFinite, Bool.and_eq_true] at h
    have later := itemsSpell_rereadItems (next :: others) h.2
    rw [rereadItems, rereadItems, ItemsSpell, itemChars]
    · rw [rereadItems] at later
      exact ⟨[], chars item, [], itemChars (next :: others), gap_nil, spells_reread item h.1,
        gap_nil, later, rfl⟩
    all_goals simp

/-- The same for the members of an object. -/
theorem membersSpell_rereadMembers : ∀ members : List (String × Value),
    membersFinite members = true → MembersSpell (rereadMembers members) (memberChars members)
  | [], _ => by
    rw [rereadMembers, MembersSpell, memberChars]
    exact gap_nil
  | [(name, value)], h => by
    rw [membersFinite, Bool.and_eq_true] at h
    rw [rereadMembers, rereadMembers, MembersSpell, memberChars]
    exact ⟨[], [], [], chars value, [], gap_nil, gap_nil, gap_nil, spells_reread value h.1,
      gap_nil, by simp⟩
  | (name, value) :: (name', value') :: others, h => by
    rw [membersFinite, Bool.and_eq_true] at h
    have later := membersSpell_rereadMembers ((name', value') :: others) h.2
    rw [rereadMembers, rereadMembers, MembersSpell, memberChars]
    · rw [rereadMembers] at later
      exact ⟨[], [], [], chars value, [], memberChars ((name', value') :: others), gap_nil,
        gap_nil, gap_nil, spells_reread value h.1, gap_nil, later, by simp⟩
    all_goals simp

end

mutual

/-- A value whose numbers are integers has no others, and is read back as it is. -/
theorem reread_of_isIntegral : ∀ v : Value, v.isIntegral = true →
    v.isFinite = true ∧ v.reread = v
  | .null, _ | .bool _, _ | .string _, _ => ⟨rfl, rfl⟩
  | .number (.integer value inRange), _ =>
    ⟨rfl, by rw [reread, Number.reread_integer]⟩
  | .array items, h => by
    rw [isIntegral] at h
    obtain ⟨finite, same⟩ := rereadItems_of_isIntegral items h
    exact ⟨finite, by rw [reread, same]⟩
  | .object members, h => by
    rw [isIntegral] at h
    obtain ⟨finite, same⟩ := rereadMembers_of_isIntegral members h
    exact ⟨finite, by rw [reread, same]⟩

/-- The same for the items of an array. -/
theorem rereadItems_of_isIntegral : ∀ items : List Value, itemsIntegral items = true →
    itemsFinite items = true ∧ rereadItems items = items
  | [], _ => ⟨rfl, rfl⟩
  | item :: rest, h => by
    rw [itemsIntegral, Bool.and_eq_true] at h
    obtain ⟨finite, same⟩ := reread_of_isIntegral item h.1
    obtain ⟨others, rest⟩ := rereadItems_of_isIntegral rest h.2
    rw [itemsFinite, rereadItems, finite, others, same, rest]
    exact ⟨rfl, rfl⟩

/-- The same for the members of an object. -/
theorem rereadMembers_of_isIntegral : ∀ members : List (String × Value),
    membersIntegral members = true →
      membersFinite members = true ∧ rereadMembers members = members
  | [], _ => ⟨rfl, rfl⟩
  | (name, value) :: rest, h => by
    rw [membersIntegral, Bool.and_eq_true] at h
    obtain ⟨finite, same⟩ := reread_of_isIntegral value h.1
    obtain ⟨others, rest⟩ := rereadMembers_of_isIntegral rest h.2
    rw [membersFinite, rereadMembers, finite, others, same, rest]
    exact ⟨rfl, rfl⟩

end

/-- The compact text of a value whose numbers are integers is one of its texts. -/
theorem spells_chars (v : Value) (h : v.isIntegral = true) : v.Spells v.chars := by
  obtain ⟨finite, same⟩ := reread_of_isIntegral v h
  have spells := spells_reread v finite
  rwa [same] at spells

end Value

end CapabilityPipeline.Json
