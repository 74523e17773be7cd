import CapabilityPipeline.Program.Token
import Mathlib.Data.List.Infix

/-!
# Texts cut into tokens

A text is cut into tokens from left to right, each as long as it can be. The ways to go on are the
rules of a relation, and what holds of all cuts is proved by induction on it. Whoever looks for
variables alone, or for the placeholder alone, finds what the cut finds, for no token reaches into
another.

Results:

* `Cut`, `cut_tokens`, `Cut.tokens_eq`: the tokens of a text, and that there is one way to cut it.
* `Cut.append`: a text may be cut where a variable or a placeholder begins.
* `Cut.flatMap_written`: the tokens make up the text.
* `Step.mentions_eq_references`, `Step.mentionsPrevious_iff`: what the two searches find.
-/

namespace CapabilityPipeline

/-! ## Names -/

/-- No character that goes on with a name comes first. -/
def EndsName (cs : List Char) : Prop :=
  ∀ c ∈ cs.head?, continuesName c = false

instance : (cs : List Char) → Decidable (EndsName cs)
  | [] => isTrue fun _ none => by cases none
  | c :: _ => decidable_of_iff (continuesName c = false) (by simp [EndsName])

theorem EndsName.append {cs cs' : List Char} (h : EndsName cs) (h' : EndsName cs') :
    EndsName (cs ++ cs') := by
  cases cs with
  | nil => exact h'
  | cons c rest => exact h

/-- What does not go on with a name does not start one. -/
theorem startsName_of_continuesName {c : Char} (h : continuesName c = false) :
    startsName c = false :=
  (Bool.or_eq_false_iff.mp h).1

theorem not_mem_of_isVariableName {name : List Char} (valid : isVariableName name = true) {c : Char}
    (other : continuesName c = false) : c ∉ name := by
  intro mem
  cases name with
  | nil => cases mem
  | cons first rest =>
    rw [isVariableName, Bool.and_eq_true, List.all_eq_true] at valid
    rcases List.mem_cons.mp mem with rfl | mem
    · exact absurd valid.1 (Bool.eq_false_iff.mp (startsName_of_continuesName other))
    · exact absurd (valid.2 c mem) (Bool.eq_false_iff.mp other)

theorem nameAtFront_append {name rest : List Char} (valid : isVariableName name = true)
    (ends : EndsName rest) : nameAtFront (name ++ rest) = name := by
  cases name with
  | nil => cases valid
  | cons c name =>
    rw [isVariableName, Bool.and_eq_true, List.all_eq_true] at valid
    have stops : rest.takeWhile continuesName = [] := by
      cases rest with
      | nil => rfl
      | cons c rest => exact List.takeWhile_cons_of_neg (Bool.eq_false_iff.mp (ends c rfl))
    rw [List.cons_append, nameAtFront, if_pos valid.1,
      List.takeWhile_append_of_pos valid.2, stops, List.append_nil]

theorem nameAtFront_eq_nil {cs : List Char} :
    nameAtFront cs = [] ↔ ∀ c ∈ cs.head?, startsName c = false := by
  cases cs with
  | nil => simp [nameAtFront]
  | cons c rest => cases starts : startsName c <;> simp [nameAtFront, starts]

/-- There is no name in front, or a name and what ends it. -/
theorem nameAtFront_cases (cs : List Char) :
    nameAtFront cs = [] ∨
      ∃ name rest, cs = name ++ rest ∧ isVariableName name = true ∧ EndsName rest := by
  cases cs with
  | nil => exact .inl rfl
  | cons c rest =>
    rw [nameAtFront]
    split
    · next starts =>
      refine .inr ⟨c :: rest.takeWhile continuesName, rest.dropWhile continuesName, ?_, ?_, ?_⟩
      · rw [List.cons_append, List.takeWhile_append_dropWhile]
      · rw [isVariableName, starts, List.all_takeWhile, Bool.true_and]
      · intro c first
        have stops := List.head?_dropWhile_not continuesName rest
        rw [Option.mem_def.mp first] at stops
        exact stops
    · exact .inl rfl

/-! ## The token in front -/

/-- The characters of the placeholder. -/
abbrev placeholderChars : List Char := previousPlaceholder.toList

theorem dollar_not_mem_placeholder : '$' ∉ placeholderChars := by decide

/-- No end of the placeholder is a beginning of it. -/
theorem placeholder_borderless {front back : List Char} (split : placeholderChars = front ++ back)
    (hfront : front ≠ []) (hback : back ≠ []) : ¬ back <+: placeholderChars := by
  have borderless : ∀ k < placeholderChars.length, k ≠ 0 →
      ¬ placeholderChars.drop k <+: placeholderChars := by decide
  have ended : placeholderChars.drop front.length = back := by rw [split, List.drop_left]
  have length := congrArg List.length split
  rw [List.length_append] at length
  have some := List.length_pos_of_ne_nil hback
  rw [← ended]
  exact borderless front.length (by omega) (mt List.eq_nil_of_length_eq_zero hfront)

theorem tokenAtFront_placeholder (rest : List Char) :
    tokenAtFront (placeholderChars ++ rest) = some (.previous, placeholderChars.length) :=
  if_pos (List.isPrefixOf_iff_prefix.mpr (List.prefix_append _ _))

theorem placeholder_not_prefix_dollar (rest : List Char) :
    ¬ placeholderChars.isPrefixOf ('$' :: rest) = true := by
  intro front
  obtain ⟨_, same⟩ := List.isPrefixOf_iff_prefix.mp front
  cases same

theorem tokenAtFront_reference {name rest : List Char} (valid : isVariableName name = true)
    (ends : EndsName rest) :
    tokenAtFront ('$' :: (name ++ rest)) =
      some (.reference (String.ofList name), name.length + 1) := by
  rw [tokenAtFront, if_neg (placeholder_not_prefix_dollar _), nameAtFront_append valid ends]
  cases name with
  | nil => cases valid
  | cons c name => rfl

theorem tokenAtFront_dollar {rest : List Char} (unnamed : nameAtFront rest = []) :
    tokenAtFront ('$' :: rest) = none := by
  rw [tokenAtFront, if_neg (placeholder_not_prefix_dollar _), unnamed]

/-- There is no token in front when there is neither a placeholder nor a dollar sign and a name. -/
theorem tokenAtFront_eq_none {cs : List Char} :
    tokenAtFront cs = none ↔
      ¬ placeholderChars <+: cs ∧ ∀ rest, cs = '$' :: rest → nameAtFront rest = [] := by
  constructor
  · intro none
    constructor
    · rintro ⟨rest, rfl⟩
      rw [tokenAtFront_placeholder] at none
      cases none
    · rintro rest rfl
      rcases nameAtFront_cases rest with noName | ⟨name, rest, rfl, valid, ends⟩
      · exact noName
      · rw [tokenAtFront_reference valid ends] at none
        cases none
  · rintro ⟨noPlaceholder, noName⟩
    by_cases dollar : ∃ rest, cs = '$' :: rest
    · obtain ⟨rest, rfl⟩ := dollar
      exact tokenAtFront_dollar (noName rest rfl)
    · unfold tokenAtFront
      rw [if_neg (mt List.isPrefixOf_iff_prefix.mp noPlaceholder)]
      split
      · next rest => exact absurd ⟨rest, rfl⟩ dollar
      · rfl

/-- A text begins with the placeholder, with a variable, or with no token. -/
theorem front_cases (cs : List Char) :
    (∃ rest, cs = placeholderChars ++ rest) ∨
      (∃ name rest, cs = '$' :: (name ++ rest) ∧ isVariableName name = true ∧ EndsName rest) ∨
      tokenAtFront cs = none := by
  by_cases placeholder : placeholderChars <+: cs
  · obtain ⟨rest, rfl⟩ := placeholder
    exact .inl ⟨rest, rfl⟩
  · refine .inr (or_iff_not_imp_left.mpr fun noVariable => ?_)
    refine tokenAtFront_eq_none.mpr ⟨placeholder, fun rest same => ?_⟩
    rcases nameAtFront_cases rest with none | ⟨name, behind, rfl, valid, ends⟩
    · exact none
    · exact absurd ⟨name, behind, same, valid, ends⟩ noVariable

/-! ## The cut of a text -/

/-- A text cut into tokens, from left to right. -/
inductive Cut : List Char → List Token → Prop
  | done : Cut [] []
  | previous {rest : List Char} {ts : List Token} (h : Cut rest ts) :
      Cut (placeholderChars ++ rest) (.previous :: ts)
  | reference {name rest : List Char} {ts : List Token} (valid : isVariableName name = true)
      (ends : EndsName rest) (h : Cut rest ts) :
      Cut ('$' :: (name ++ rest)) (.reference (String.ofList name) :: ts)
  | char {c : Char} {rest : List Char} {ts : List Token}
      (plain : tokenAtFront (c :: rest) = none) (h : Cut rest ts) :
      Cut (c :: rest) (.char c :: ts)

variable {cs : List Char} {ts : List Token}

theorem tokensFrom_skip (skip : Nat) (cs : List Char) :
    tokensFrom skip cs = tokensFrom 0 (cs.drop skip) := by
  induction cs generalizing skip with
  | nil => rw [List.drop_nil, tokensFrom, tokensFrom]
  | cons c rest ih =>
    cases skip with
    | zero => rfl
    | succ skip => exact ih skip

/-- Behind a token the rest of the text is cut. -/
theorem tokensFrom_of_token {front rest : List Char} {token : Token} (some : front ≠ [])
    (found : tokenAtFront (front ++ rest) = .some (token, front.length)) :
    tokensFrom 0 (front ++ rest) = token :: tokensFrom 0 rest := by
  cases front with
  | nil => exact absurd rfl some
  | cons c front =>
    rw [List.cons_append] at found ⊢
    rw [tokensFrom, found]
    dsimp only
    rw [tokensFrom_skip, List.length_cons, Nat.add_sub_cancel, List.drop_left]

/-- There is one way to cut a text. -/
theorem Cut.tokensFrom_eq (h : Cut cs ts) : tokensFrom 0 cs = ts := by
  induction h with
  | done => rfl
  | previous _ ih =>
    rw [tokensFrom_of_token (by decide) (tokenAtFront_placeholder _), ih]
  | reference valid ends _ ih =>
    rw [← List.cons_append, tokensFrom_of_token (List.cons_ne_nil _ _)
      (tokenAtFront_reference valid ends), ih]
  | char plain _ ih => rw [tokensFrom, plain, ih]

/-- Every text can be cut. -/
theorem exists_cut (cs : List Char) : ∃ ts, Cut cs ts := by
  induction length : cs.length using Nat.strongRecOn generalizing cs with
  | ind n ih =>
  subst length
  rcases front_cases cs with ⟨rest, rfl⟩ | ⟨name, rest, rfl, valid, ends⟩ | none
  · have shorter : rest.length < (placeholderChars ++ rest).length := by
      rw [List.length_append]
      exact Nat.lt_add_of_pos_left (by decide)
    obtain ⟨ts, h⟩ := ih rest.length shorter rest rfl
    exact ⟨_, .previous h⟩
  · have shorter : rest.length < ('$' :: (name ++ rest)).length := by
      rw [List.length_cons, List.length_append]
      omega
    obtain ⟨ts, h⟩ := ih rest.length shorter rest rfl
    exact ⟨_, .reference valid ends h⟩
  · cases cs with
    | nil => exact ⟨[], .done⟩
    | cons c rest =>
      obtain ⟨ts, h⟩ := ih rest.length (Nat.lt_succ_self _) rest rfl
      exact ⟨_, .char none h⟩

theorem Cut.tokens_eq {text : String} (h : Cut text.toList ts) : tokens text = ts :=
  h.tokensFrom_eq

/-- **The tokens of a text are its cut.** -/
theorem cut_tokens (text : String) : Cut text.toList (tokens text) := by
  obtain ⟨ts, h⟩ := exists_cut text.toList
  exact h.tokens_eq ▸ h

/-! ## Where a text may be cut -/

/-- A text that goes on with nothing in front of it: neither with a name nor with part of a
placeholder. -/
structure StandsApart (cs : List Char) : Prop where
  name : EndsName cs
  placeholder : ∀ front back, placeholderChars = front ++ back → front ≠ [] → back ≠ [] →
    ¬ back <+: cs

theorem standsApart_dollar (rest : List Char) : StandsApart ('$' :: rest) where
  name c first := by
    cases first
    decide
  placeholder front back split _ some := by
    rintro ⟨behind, same⟩
    cases back with
    | nil => exact some rfl
    | cons c back =>
      obtain ⟨rfl, -⟩ := List.cons.inj same
      refine dollar_not_mem_placeholder (split ▸ List.mem_append_right front ?_)
      exact List.mem_cons_self

theorem standsApart_placeholder (rest : List Char) : StandsApart (placeholderChars ++ rest) where
  name c first := by
    cases first
    decide
  placeholder front back split hfront hback ends := by
    refine placeholder_borderless split hfront hback (List.prefix_of_prefix_length_le ends
      (List.prefix_append _ _) ?_)
    rw [split, List.length_append]
    omega

/-- Where there is no token there is none with such a text behind. -/
theorem StandsApart.tokenAtFront_append {c : Char} {rest cs : List Char} (apart : StandsApart cs)
    (plain : tokenAtFront (c :: rest) = none) : tokenAtFront (c :: rest ++ cs) = none := by
  obtain ⟨noPlaceholder, noName⟩ := tokenAtFront_eq_none.mp plain
  refine tokenAtFront_eq_none.mpr ⟨fun front => ?_, fun behind same => ?_⟩
  · rcases List.prefix_or_prefix_of_prefix front (List.prefix_append _ _) with within | ⟨back, split⟩
    · exact noPlaceholder within
    · rw [← split, List.prefix_append_right_inj] at front
      refine apart.placeholder (c :: rest) back split.symm (List.cons_ne_nil _ _) ?_ front
      rintro rfl
      exact noPlaceholder ⟨[], by rw [← split, List.append_nil, List.append_nil]⟩
  · obtain ⟨rfl, rfl⟩ := List.cons.inj same
    have short := nameAtFront_eq_nil.mp (noName rest rfl)
    refine nameAtFront_eq_nil.mpr fun c first => ?_
    cases rest with
    | nil => exact startsName_of_continuesName (apart.name c first)
    | cons c' rest => exact short c first

/-- **A text may be cut where a text begins that stands apart.** -/
theorem Cut.append {cs' : List Char} {ts' : List Token} (h : Cut cs ts) (h' : Cut cs' ts')
    (apart : StandsApart cs') : Cut (cs ++ cs') (ts ++ ts') := by
  induction h with
  | done => exact h'
  | previous _ ih =>
    rw [List.append_assoc]
    exact .previous ih
  | reference valid ends _ ih =>
    rw [List.cons_append, List.append_assoc]
    exact .reference valid (ends.append apart.name) ih
  | char plain _ ih => exact .char (apart.tokenAtFront_append plain) ih

/-! ## What tokens are made of -/

/-- The characters that a token takes up in a text. -/
def Token.written : Token → List Char
  | char c => [c]
  | reference name => '$' :: name.toList
  | previous => placeholderChars

/-- The tokens of a text make up the text. -/
theorem Cut.flatMap_written (h : Cut cs ts) : ts.flatMap Token.written = cs := by
  induction h with
  | done => rfl
  | previous _ ih => rw [List.flatMap_cons, ih, Token.written]
  | reference _ _ _ ih =>
    rw [List.flatMap_cons, ih, Token.written, String.toList_ofList, List.cons_append]
  | char _ _ ih => rw [List.flatMap_cons, ih, Token.written, List.singleton_append]

/-- A variable is written with a name. -/
theorem Cut.isVariableName (h : Cut cs ts) {name : String} (mem : .reference name ∈ ts) :
    isVariableName name.toList = true := by
  induction h with
  | done => cases mem
  | previous _ ih => exact ih (List.mem_of_ne_of_mem Token.noConfusion mem)
  | reference valid _ _ ih =>
    rcases List.mem_cons.mp mem with same | later
    · cases same
      rw [String.toList_ofList]
      exact valid
    · exact ih later
  | char _ _ ih => exact ih (List.mem_of_ne_of_mem Token.noConfusion mem)

theorem mem_namesIn {text name : String} : name ∈ namesIn text ↔ .reference name ∈ tokens text := by
  unfold namesIn
  rw [List.mem_filterMap]
  constructor
  · rintro ⟨token, mem, found⟩
    cases token <;> cases found
    exact mem
  · exact fun mem => ⟨_, mem, rfl⟩

/-! ## Looking for variables alone -/

/-- The names behind the dollar signs of a text, of which some characters are still part of the
name before. Placeholders are ordinary text here. -/
def variablesFrom : Nat → List Char → List String
  | _, [] => []
  | skip + 1, _ :: rest => variablesFrom skip rest
  | 0, c :: rest =>
    if c = '$' then
      match nameAtFront rest with
      | [] => variablesFrom 0 rest
      | name => String.ofList name :: variablesFrom name.length rest
    else variablesFrom 0 rest

/-- The names that are found in a text by looking for variables alone. -/
def variablesIn (text : String) : List String :=
  variablesFrom 0 text.toList

theorem variablesFrom_skip (skip : Nat) (cs : List Char) :
    variablesFrom skip cs = variablesFrom 0 (cs.drop skip) := by
  induction cs generalizing skip with
  | nil => rw [List.drop_nil, variablesFrom, variablesFrom]
  | cons c rest ih =>
    cases skip with
    | zero => rfl
    | succ skip => exact ih skip

theorem variablesFrom_append {front : List Char} (none : '$' ∉ front) (rest : List Char) :
    variablesFrom 0 (front ++ rest) = variablesFrom 0 rest := by
  induction front with
  | nil => rfl
  | cons c front ih =>
    obtain ⟨different, none⟩ := not_or.mp (mt List.mem_cons.mpr none)
    rw [List.cons_append, variablesFrom, if_neg (Ne.symm different), ih none]

/-- Looking for variables alone finds the names of the cut. -/
theorem Cut.variablesFrom_eq (h : Cut cs ts) : variablesFrom 0 cs = ts.filterMap Token.name? := by
  induction h with
  | done => rfl
  | previous _ ih => rw [variablesFrom_append dollar_not_mem_placeholder, ih]; rfl
  | @reference name rest ts valid ends _ ih =>
    rw [variablesFrom, if_pos rfl, nameAtFront_append valid ends]
    cases name with
    | nil => cases valid
    | cons c name =>
      dsimp only
      rw [variablesFrom_skip, List.drop_left, ih]
      rfl
  | @char c rest ts plain _ ih =>
    have passed : variablesFrom 0 (c :: rest) = variablesFrom 0 rest := by
      rw [variablesFrom]
      split
      · next dollar =>
        subst dollar
        rw [(tokenAtFront_eq_none.mp plain).2 rest rfl]
      · rfl
    rw [passed, ih]
    rfl

theorem namesIn_eq_variablesIn (text : String) : namesIn text = variablesIn text :=
  (cut_tokens text).variablesFrom_eq.symm

/-! ## Looking for the placeholder alone -/

/-- The placeholder is not found in a name or across the end of one. -/
theorem placeholder_infix_append {front : List Char} (none : '\x7b' ∉ front) {rest : List Char} :
    placeholderChars <:+: front ++ rest ↔ placeholderChars <:+: rest := by
  induction front with
  | nil => rfl
  | cons c front ih =>
    obtain ⟨different, none⟩ := not_or.mp (mt List.mem_cons.mpr none)
    rw [List.cons_append, List.infix_cons_iff, ih none]
    refine or_iff_right ?_
    rintro ⟨_, same⟩
    exact different (List.cons.inj same).1

/-- The placeholder is a token of the cut wherever it stands in the text. -/
theorem Cut.previous_mem_iff (h : Cut cs ts) :
    .previous ∈ ts ↔ placeholderChars <:+: cs := by
  induction h with
  | done => exact iff_of_false List.not_mem_nil (by decide)
  | @previous rest ts _ ih =>
    exact iff_of_true List.mem_cons_self (List.prefix_append _ _).isInfix
  | @reference name rest ts valid ends _ ih =>
    have brace : '\x7b' ∉ '$' :: name := by
      rw [List.mem_cons, not_or]
      exact ⟨by decide, not_mem_of_isVariableName valid (by decide)⟩
    rw [← List.cons_append, placeholder_infix_append brace, ← ih, List.mem_cons]
    exact or_iff_right Token.noConfusion
  | @char c rest ts plain _ ih =>
    rw [List.infix_cons_iff, ← ih, List.mem_cons]
    exact (or_iff_right Token.noConfusion).trans
      (or_iff_right (tokenAtFront_eq_none.mp plain).1).symm

theorem mentionsPrevious_iff {text : String} :
    mentionsPrevious text = true ↔ placeholderChars <:+: text.toList := by
  unfold mentionsPrevious
  rw [List.contains_iff_mem]
  exact (cut_tokens text).previous_mem_iff

/-! ## Steps -/

namespace Step

/-- The names that are found in the texts of a step by looking for variables alone. -/
def references (s : Step) : NameSet :=
  NameSet.ofNames (s.texts.flatMap variablesIn)

theorem mentions_eq_references (s : Step) : s.mentions = s.references := by
  unfold mentions references
  rw [funext namesIn_eq_variablesIn]

theorem mentionsPrevious_iff {s : Step} :
    s.mentionsPrevious = true ↔ ∃ text ∈ s.texts, placeholderChars <:+: text.toList := by
  unfold mentionsPrevious
  rw [List.any_eq_true]
  exact exists_congr fun text => and_congr_right fun _ => CapabilityPipeline.mentionsPrevious_iff

end Step

end CapabilityPipeline
