import CapabilityPipeline.Program.Parser
import CapabilityPipeline.Proofs.Json.Extent
import CapabilityPipeline.Proofs.Source.Splitting

/-!
# The grammar of steps

A step is written as a domain and an action in square brackets, then perhaps a target in
parentheses and parameters in braces, with blanks between these parts and around the identifiers.
The reader finds the end of a target and of the parameters by their brackets alone, and accepts
exactly the texts of this grammar.

Results:

* `Step.WrittenAs`: the texts of a step.
* `headerAtFront_eq_some_iff`, `parseTarget_eq_ok_iff`: the parts that are read.
* `Step.parse_iff_writtenAs`: a text is read as a step just when it is one of the step's texts.
* `Step.WrittenAs.enclosed`: a text of a step has operators in its literals and brackets only.
-/

namespace CapabilityPipeline

open Json (Value symbols)
open Source Text

/-! ## The grammar -/

/-- Domain and action in square brackets, with blanks around both. -/
def HeaderText (domain action : String) (cs : List Char) : Prop :=
  isIdentifier domain.toList = true ∧ isIdentifier action.toList = true ∧
    ∃ b₁ b₂ b₃ b₄, Blanks b₁ ∧ Blanks b₂ ∧ Blanks b₃ ∧ Blanks b₄ ∧
      cs = '[' :: (b₁ ++ domain.toList ++ (b₂ ++ ':' ::
        (b₃ ++ action.toList ++ (b₄ ++ [']']))))

/-- The target that a text without blanks at its ends stands for: none for no text, the string
that a text from a double quote on decodes to, what stands between single quotes, or the text
itself. -/
inductive Denotes : List Char → Option String → Prop
  | blank : Denotes [] none
  | string {rest : List Char} {target : String}
      (h : Value.read (symbols ('"' :: rest)) = .ok (.string target)) :
      Denotes ('"' :: rest) (some target)
  | quoted (inside : List Char) :
      Denotes ('\'' :: (inside ++ ['\''])) (some (String.ofList inside))
  | bare {text : List Char} (nonempty : text ≠ []) (double : ∀ rest, text ≠ '"' :: rest)
      (single : ∀ inside, text ≠ '\'' :: (inside ++ ['\''])) :
      Denotes text (some (String.ofList text))

/-- No text, or parentheses around a text whose literals end and whose brackets match. -/
inductive TargetText : List Char → Option String → Prop
  | absent : TargetText [] none
  | present {inner : List Char} {target : Option String} (h : Enclosed (fun _ => true) inner)
      (denotes : Denotes (trim inner) target) : TargetText ('(' :: (inner ++ [')'])) target

/-- No text, or the text of a JSON object. -/
inductive ParamsText : List Char → Json.Object → Prop
  | absent : ParamsText [] []
  | present {rest : List Char} {params : Json.Object}
      (h : Value.read (symbols ('\x7b' :: rest)) = .ok (.object params)) :
      ParamsText ('\x7b' :: rest) params

/-- A text of a step. -/
def Step.WrittenAs (s : Step) (cs : List Char) : Prop :=
  ∃ header blanks target blanks' params, HeaderText s.domain s.action header ∧ Blanks blanks ∧
    TargetText target s.target ∧ Blanks blanks' ∧ ParamsText params s.params ∧
    trim cs = header ++ (blanks ++ (target ++ (blanks' ++ params)))

/-! ## Identifiers -/

theorem continuesIdentifier_of_startsName {c : Char} (h : startsName c = true) :
    continuesIdentifier c = true := by
  rw [continuesIdentifier, continuesName, h]
  rfl

theorem continuesIdentifier_of_isIdentifier {name : List Char} (h : isIdentifier name = true) :
    ∀ c ∈ name, continuesIdentifier c = true := by
  cases name with
  | nil => exact fun _ h => by cases h
  | cons c rest =>
    rw [isIdentifier, Bool.and_eq_true, List.all_eq_true] at h
    exact List.forall_mem_cons.mpr ⟨continuesIdentifier_of_startsName h.1, h.2⟩

/-- No character of a name or an identifier is blank. -/
theorem isBlank_of_continuesIdentifier {c : Char} (h : continuesIdentifier c = true) :
    isBlank c = false := by
  simp only [continuesIdentifier, continuesName, startsName, Bool.or_eq_true, Bool.and_eq_true,
    decide_eq_true_eq, Char.le_def, UInt32.le_iff_toNat_le] at h
  have ascii : 45 ≤ c.toNat ∧ c.toNat ≤ 122 := by
    rcases h with ((((⟨low, high⟩ | ⟨low, high⟩) | rfl) | ⟨low, high⟩) | rfl) | rfl
    · exact ⟨Nat.le_trans (by decide) low, high⟩
    · exact ⟨Nat.le_trans (by decide) low, Nat.le_trans high (by decide)⟩
    · decide
    · exact ⟨Nat.le_trans (by decide) low, Nat.le_trans high (by decide)⟩
    · decide
    · decide
  simp only [isBlank, Bool.or_eq_false_iff, Bool.and_eq_false_iff, decide_eq_false_iff_not,
    beq_eq_false_iff_ne]
  omega

theorem eq_of_identifierAtFront {cs name rest : List Char}
    (h : identifierAtFront cs = some (name, rest)) :
    isIdentifier name = true ∧ cs = name ++ rest := by
  cases cs with
  | nil => cases h
  | cons c cs =>
    rw [identifierAtFront] at h
    split at h
    · next starts =>
      cases h
      refine ⟨?_, by rw [List.cons_append, List.takeWhile_append_dropWhile]⟩
      rw [isIdentifier, starts, Bool.true_and]
      exact List.all_takeWhile
    · cases h

/-- An identifier is found between blanks, in front of a character that does not continue it. -/
theorem identifierAtFront_append {name : List Char} (h : isIdentifier name = true) {c : Char}
    (stop : continuesIdentifier c = false) (rest : List Char) :
    identifierAtFront (trimStart (name ++ c :: rest)) = some (name, c :: rest) := by
  cases name with
  | nil => cases h
  | cons first others =>
    rw [isIdentifier, Bool.and_eq_true, List.all_eq_true] at h
    have notBlank := isBlank_of_continuesIdentifier (continuesIdentifier_of_startsName h.1)
    rw [List.cons_append, trimStart_cons notBlank, identifierAtFront, if_pos h.1,
      List.takeWhile_append_of_pos h.2, List.dropWhile_append_of_pos h.2,
      List.takeWhile_cons_of_neg (by rw [stop]; decide),
      List.dropWhile_cons_of_neg (by rw [stop]; decide), List.append_nil]

/-- The same between blanks. -/
theorem identifierAtFront_between {name before after : List Char}
    (h : isIdentifier name = true) (hb : Blanks before) (ha : Blanks after) {c : Char}
    (stop : continuesIdentifier c = false) (rest : List Char) :
    identifierAtFront (trimStart (before ++ name ++ (after ++ c :: rest))) =
      some (name, after ++ c :: rest) := by
  rw [List.append_assoc, trimStart_blanks hb]
  cases after with
  | nil => exact identifierAtFront_append h stop rest
  | cons d after =>
    refine identifierAtFront_append h ?_ _
    rw [Bool.eq_false_iff]
    intro continues
    have blank := ha d (List.mem_cons_self ..)
    rw [isBlank_of_continuesIdentifier continues] at blank
    cases blank

/-! ## Headers -/

theorem eq_of_expectChar {c : Char} {cs rest : List Char} (h : expectChar c cs = some rest) :
    cs = c :: rest := by
  cases cs with
  | nil => cases h
  | cons d cs =>
    rw [expectChar] at h
    split at h
    · next same =>
      cases h
      rw [same]
    · cases h

theorem expectChar_behind {c : Char} (notBlank : isBlank c = false) {blanks : List Char}
    (h : Blanks blanks) (rest : List Char) :
    expectChar c (trimStart (blanks ++ c :: rest)) = some rest := by
  rw [trimStart_blanks h, trimStart_cons notBlank, expectChar, if_pos rfl]

/-- Domain and action are read where they stand in square brackets. -/
theorem headerAtFront_eq_some_iff {cs rest : List Char} {domain action : String} :
    headerAtFront cs = some (domain, action, rest) ↔
      ∃ header, HeaderText domain action header ∧ cs = header ++ rest := by
  constructor
  · intro h
    unfold headerAtFront at h
    simp only [Option.bind_eq_bind, Option.bind_eq_some_iff] at h
    obtain ⟨afterOpen, isOpen, ⟨first, afterFirst⟩, hfirst, afterColon, isColon,
      ⟨second, afterSecond⟩, hsecond, afterClose, isClose, h⟩ := h
    cases h
    obtain ⟨isFirst, eqFirst⟩ := eq_of_identifierAtFront hfirst
    obtain ⟨isSecond, eqSecond⟩ := eq_of_identifierAtFront hsecond
    obtain ⟨b₁, hb₁, eq₁⟩ := eq_blanks_trimStart afterOpen
    obtain ⟨b₂, hb₂, eq₂⟩ := eq_blanks_trimStart afterFirst
    obtain ⟨b₃, hb₃, eq₃⟩ := eq_blanks_trimStart afterColon
    obtain ⟨b₄, hb₄, eq₄⟩ := eq_blanks_trimStart afterSecond
    rw [eqFirst] at eq₁
    rw [eq_of_expectChar isColon] at eq₂
    rw [eqSecond] at eq₃
    rw [eq_of_expectChar isClose] at eq₄
    refine ⟨_, ⟨by rwa [String.toList_ofList], by rwa [String.toList_ofList], b₁, b₂, b₃, b₄,
      hb₁, hb₂, hb₃, hb₄, rfl⟩, ?_⟩
    rw [eq_of_expectChar isOpen, eq₁, eq₂, eq₃, eq₄, String.toList_ofList, String.toList_ofList]
    simp
  · rintro ⟨header, ⟨isDomain, isAction, b₁, b₂, b₃, b₄, hb₁, hb₂, hb₃, hb₄, rfl⟩, rfl⟩
    have shape : '[' :: (b₁ ++ domain.toList ++ (b₂ ++ ':' ::
        (b₃ ++ action.toList ++ (b₄ ++ [']'])))) ++ rest =
        '[' :: (b₁ ++ domain.toList ++ (b₂ ++ ':' ::
          (b₃ ++ action.toList ++ (b₄ ++ ']' :: rest)))) := by simp
    rw [shape, headerAtFront, expectChar, if_pos rfl]
    simp only [Option.bind_eq_bind, Option.bind_some]
    rw [identifierAtFront_between isDomain hb₁ hb₂ rfl]
    simp only [Option.bind_some]
    rw [expectChar_behind rfl hb₂]
    simp only [Option.bind_some]
    rw [identifierAtFront_between isAction hb₃ hb₄ rfl]
    simp only [Option.bind_some]
    rw [expectChar_behind rfl hb₄]
    simp

/-! ## Targets -/

theorem singleQuoted?_eq_some_iff {text inside : List Char} :
    singleQuoted? text = some inside ↔ text = '\'' :: (inside ++ ['\'']) := by
  constructor
  · intro h
    unfold singleQuoted? at h
    split at h
    · next rest =>
      split at h
      · next last =>
        cases h
        obtain ⟨front, rfl⟩ := List.getLast?_eq_some_iff.mp last
        rw [List.dropLast_concat]
      · cases h
    · cases h
  · rintro rfl
    simp [singleQuoted?]

/-- The target in parentheses is the one that the text between them denotes without the blanks at
its ends. -/
theorem parseTarget_eq_ok_iff {inner : List Char} {target : Option String} :
    parseTarget inner = .ok target ↔ Denotes (trim inner) target := by
  unfold parseTarget
  generalize trim inner = text
  constructor
  · intro h
    split at h
    · cases h
      exact .blank
    · next rest =>
      dsimp only at h
      split at h
      · next read =>
        cases h
        exact .string (Json.decode_quote_eq_ok_iff.mp read)
      · cases h
    · next nonempty double =>
      split at h
      · next inside isQuoted =>
        cases h
        rw [singleQuoted?_eq_some_iff.mp isQuoted]
        exact .quoted inside
      · next notQuoted =>
        cases h
        refine .bare nonempty double fun inside same => ?_
        rw [singleQuoted?_eq_some_iff.mpr same] at notQuoted
        cases notQuoted
  · intro h
    cases h with
    | blank => rfl
    | string read =>
      have decoded := Json.decode_quote_eq_ok_iff.mpr read
      rw [symbols] at decoded
      simp only [decoded]
    | quoted inside =>
      split
      · next none => cases none
      · next double => cases double
      · rw [singleQuoted?_eq_some_iff.mpr rfl]
    | bare nonempty double single =>
      split
      · exact absurd rfl nonempty
      · exact absurd rfl (double _)
      · split
        · next inside isQuoted => exact absurd (singleQuoted?_eq_some_iff.mp isQuoted) (single inside)
        · rfl

/-- A target is read from its text, up to blanks after it. -/
theorem targetText_of_targetAtFront {route : String} {cs rest : List Char}
    {target : Option String} (h : targetAtFront route cs = .ok (target, rest)) :
    ∃ text blanks, TargetText text target ∧ Blanks blanks ∧ cs = text ++ (blanks ++ rest) := by
  unfold targetAtFront at h
  split at h
  · next tail =>
    split at h
    · cases h
    · next bracketed after split =>
      obtain ⟨target', parsed, h⟩ := bind_eq_ok.mp h
      cases h
      obtain ⟨b, inner, enclosed, rfl, same⟩ := splitClose_eq_some_iff.mp split
      obtain ⟨blanks, hb, eq⟩ := eq_blanks_trimStart after
      obtain rfl : b = .round := by
        cases b <;> cases same
        rfl
      rw [unbracket, List.drop_succ_cons, List.drop_zero, List.dropLast_concat] at parsed
      refine ⟨'(' :: (inner ++ [')']), blanks, .present enclosed (parseTarget_eq_ok_iff.mp parsed),
        hb, ?_⟩
      rw [← eq]
      exact same
  · cases h
    exact ⟨[], [], .absent, blanks_nil, rfl⟩

/-- The text of a target is read as the target, where nothing else in parentheses follows. -/
theorem TargetText.targetAtFront {text : List Char} {target : Option String}
    (h : TargetText text target) (route : String) {rest : List Char}
    (other : ∀ tail, trimStart rest ≠ '(' :: tail) :
    targetAtFront route (trimStart (text ++ rest)) = .ok (target, trimStart rest) := by
  unfold CapabilityPipeline.targetAtFront
  cases h with
  | absent =>
    rw [List.nil_append]
    split
    · next tail same => exact absurd same (other tail)
    · rfl
  | @present inner target enclosed denotes =>
    have close := enclosed.splitClose_eq .round rest
    have parsed := parseTarget_eq_ok_iff.mpr denotes
    rw [List.cons_append, List.append_assoc, List.singleton_append, trimStart_cons rfl]
    simp only [Bracket.opener, Bracket.closer] at close
    simp only [close, unbracket, List.drop_succ_cons, List.drop_zero, List.dropLast_concat, parsed]
    rfl

/-! ## Parameters -/

theorem parseParams_eq_ok_iff {route : String} {text : List Char} {params : Json.Object} :
    parseParams route text = .ok params ↔ Value.read (symbols text) = .ok (.object params) := by
  unfold parseParams
  constructor
  · intro h
    split at h
    · next read =>
      cases h
      exact read
    · cases h
    · cases h
  · intro read
    simp only [read]

/-- Parameters are read from their text, up to blanks after it. -/
theorem paramsText_of_paramsAtFront {route : String} {cs : List Char} {params : Json.Object}
    (h : paramsAtFront route cs = .ok (params, [])) :
    ∃ text blanks, ParamsText text params ∧ Blanks blanks ∧ cs = text ++ blanks := by
  unfold paramsAtFront at h
  split at h
  · next tail =>
    split at h
    · cases h
    · next bracketed after split =>
      obtain ⟨params', parsed, h⟩ := bind_eq_ok.mp h
      obtain ⟨rfl, ended⟩ := Prod.mk.inj (Except.ok.inj h)
      obtain ⟨b, inner, -, rfl, same⟩ := splitClose_eq_some_iff.mp split
      obtain ⟨blanks, hb, eq⟩ := eq_blanks_trimStart after
      rw [ended, List.append_nil] at eq
      obtain rfl : b = .curly := by
        cases b <;> cases same
        rfl
      refine ⟨'\x7b' :: (inner ++ ['\x7d']), blanks, .present (parseParams_eq_ok_iff.mp parsed), hb,
        ?_⟩
      rw [← eq]
      exact same
  · cases h
    exact ⟨[], [], .absent, blanks_nil, rfl⟩

theorem blanks_of_gap {gap : List Char} (h : Json.Gap gap) : Blanks gap := by
  intro c hc
  have space := h c hc
  simp only [Json.isSpace, Bool.or_eq_true, decide_eq_true_eq] at space
  rcases space with ((rfl | rfl) | rfl) | rfl <;> decide

/-- The text of an object ends with its closing brace, up to blanks. -/
theorem ParamsText.shape {text : List Char} {params : Json.Object} (h : ParamsText text params) :
    (text = [] ∧ params = []) ∨ ∃ inner after, Enclosed (fun _ => true) inner ∧ Blanks after ∧
      text = '\x7b' :: (inner ++ '\x7d' :: after) ∧
      Value.read (symbols text) = .ok (.object params) := by
  cases h with
  | absent => exact .inl ⟨rfl, rfl⟩
  | @present rest _ read =>
    obtain ⟨before, inner, after, spaces, spaces', enclosed, same⟩ :=
      Value.enclosed_of_read_object read
    refine .inr ⟨inner, after, enclosed, blanks_of_gap spaces', ?_, read⟩
    cases before with
    | nil => exact same
    | cons c before =>
      cases same
      cases spaces _ (List.mem_cons_self ..)

theorem ParamsText.trimStart_ne {text : List Char} {params : Json.Object}
    (h : ParamsText text params) {blanks : List Char} (hb : Blanks blanks) (tail : List Char) :
    trimStart (blanks ++ text) ≠ '(' :: tail := by
  rw [trimStart_blanks hb]
  cases h with
  | absent =>
    intro same
    cases same
  | present _ =>
    rw [trimStart_cons rfl]
    intro same
    cases same

/-- The text of parameters at the end of a trimmed text is read as the parameters. -/
theorem ParamsText.paramsAtFront {text : List Char} {params : Json.Object}
    (h : ParamsText text params) (route : String) (tidy : trimEnd text = text) :
    paramsAtFront route (trimStart text) = .ok (params, []) := by
  unfold CapabilityPipeline.paramsAtFront
  rcases h.shape with ⟨rfl, rfl⟩ | ⟨inner, after, enclosed, blanks, rfl, read⟩
  · rfl
  · have closed : Tidy ('\x7b' :: (inner ++ ['\x7d'])) :=
      ⟨⟨'\x7b', _, rfl, rfl⟩, ⟨'\x7b' :: inner, '\x7d', rfl, rfl⟩⟩
    have shape : '\x7b' :: (inner ++ '\x7d' :: after) = '\x7b' :: (inner ++ ['\x7d']) ++ after := by
      simp
    obtain rfl : after = [] := by
      rw [shape, trimEnd_blanks blanks, closed.trimEnd_eq] at tidy
      exact List.self_eq_append_right.mp tidy
    have close := enclosed.splitClose_eq .curly []
    simp only [Bracket.opener, Bracket.closer] at close
    have parsed : parseParams route _ = .ok params := parseParams_eq_ok_iff.mpr read
    rw [trimStart_cons rfl]
    simp only [close, parsed]
    rfl

/-! ## Steps -/

theorem HeaderText.head {domain action : String} {cs : List Char}
    (h : HeaderText domain action cs) (rest : List Char) :
    ∃ tail, cs ++ rest = '[' :: tail := by
  obtain ⟨-, -, b₁, b₂, b₃, b₄, -, -, -, -, rfl⟩ := h
  exact ⟨_, rfl⟩

/-- A text of a step has no blanks at its ends once it is trimmed. -/
theorem Step.WrittenAs.tidy {s : Step} {cs : List Char} (h : s.WrittenAs cs) : Tidy (trim cs) := by
  obtain ⟨header, _, _, _, _, isHeader, -, -, -, -, same⟩ := h
  refine tidy_trim ?_
  obtain ⟨tail, start⟩ := isHeader.head _
  rw [same, start]
  exact List.cons_ne_nil _ _

/-- **A text that is read as a step is one of the step's texts.** -/
theorem Step.writtenAs_of_parse {cs : List Char} {s : Step} (h : Step.parse cs = .ok s) :
    s.WrittenAs cs := by
  unfold Step.parse at h
  dsimp only at h
  split at h
  · cases h
  · next domain action afterHeader header =>
    obtain ⟨⟨target, afterTarget⟩, hasTarget, h⟩ := bind_eq_ok.mp h
    obtain ⟨⟨params, last⟩, hasParams, h⟩ := bind_eq_ok.mp h
    dsimp only at hasTarget hasParams h
    split at h
    · next none =>
      cases h
      rw [List.isEmpty_iff.mp none] at hasParams
      obtain ⟨headerText, isHeader, whole⟩ := headerAtFront_eq_some_iff.mp header
      obtain ⟨blanks, hb, eq⟩ := eq_blanks_trimStart afterHeader
      obtain ⟨targetText, blanks', isTarget, hb', eq'⟩ := targetText_of_targetAtFront hasTarget
      obtain ⟨paramsText, after, isParams, ha, rfl⟩ := paramsText_of_paramsAtFront hasParams
      have parts : trim cs =
          headerText ++ (blanks ++ (targetText ++ (blanks' ++ (paramsText ++ after)))) := by
        rw [whole, eq, eq']
      obtain rfl : after = [] := by
        have tidy : Tidy (trim cs) := tidy_trim fun none => by
          obtain ⟨tail, start⟩ := isHeader.head afterHeader
          rw [whole, start] at none
          cases none
        have shape : trim cs =
            headerText ++ (blanks ++ (targetText ++ (blanks' ++ paramsText))) ++ after := by
          rw [parts]
          simp only [List.append_assoc]
        exact (shape ▸ tidy).blanks_eq_nil ha
      rw [List.append_nil] at parts
      exact ⟨headerText, blanks, targetText, blanks', paramsText, isHeader, hb, isTarget, hb',
        isParams, parts⟩
    · cases h

/-- **A text of a step is read as the step.** -/
theorem Step.WrittenAs.parse_eq {cs : List Char} {s : Step} (h : s.WrittenAs cs) :
    Step.parse cs = .ok s := by
  have tidy := h.tidy
  obtain ⟨header, blanks, target, blanks', params, isHeader, hb, isTarget, hb', isParams, same⟩ := h
  have isFront := headerAtFront_eq_some_iff.mpr ⟨header, isHeader, same⟩
  have tidyEnd : trimEnd params = params := by
    have shape : trim cs = header ++ (blanks ++ (target ++ blanks')) ++ params := by
      rw [same]
      simp only [List.append_assoc]
    exact (shape ▸ tidy).trimEnd_right
  unfold Step.parse
  simp only [isFront]
  rw [trimStart_blanks hb, isTarget.targetAtFront _ (isParams.trimStart_ne hb')]
  simp only [bind, Except.bind]
  rw [trimStart_blanks hb', isParams.paramsAtFront _ tidyEnd]
  rfl

/-! ## Operators -/

theorem isQuiet_of_isBlank {c : Char} (h : isBlank c = true) : isQuiet c = true :=
  isQuiet_of_class isBlank (by decide) h

theorem enclosed_blanks {cs : List Char} (h : Blanks cs) : Enclosed isOperand cs :=
  .of_quiet fun c hc =>
    ⟨isQuiet_of_isBlank (h c hc), isOperand_of_class isBlank (by decide) (h c hc)⟩

theorem enclosed_identifier {name : List Char} (h : isIdentifier name = true) :
    Enclosed (fun _ => true) name :=
  .of_quiet fun c hc => ⟨isQuiet_of_class continuesIdentifier (by decide)
    (continuesIdentifier_of_isIdentifier h c hc), rfl⟩

theorem HeaderText.enclosed {domain action : String} {cs : List Char}
    (h : HeaderText domain action cs) : Enclosed isOperand cs := by
  obtain ⟨isDomain, isAction, b₁, b₂, b₃, b₄, hb₁, hb₂, hb₃, hb₄, rfl⟩ := h
  have blanks {cs : List Char} (h : Blanks cs) : Enclosed (fun _ => true) cs :=
    (enclosed_blanks h).mono fun _ _ => rfl
  have inner : Enclosed (fun _ => true) (b₁ ++ domain.toList ++ (b₂ ++ ':' ::
      (b₃ ++ action.toList ++ b₄))) :=
    ((blanks hb₁).append (enclosed_identifier isDomain)).append ((blanks hb₂).append
      (.quiet rfl rfl (((blanks hb₃).append (enclosed_identifier isAction)).append (blanks hb₄))))
  have shape : '[' :: (b₁ ++ domain.toList ++ (b₂ ++ ':' ::
      (b₃ ++ action.toList ++ (b₄ ++ [']'])))) =
      '[' :: ((b₁ ++ domain.toList ++ (b₂ ++ ':' :: (b₃ ++ action.toList ++ b₄))) ++ [']']) := by
    simp
  rw [shape]
  exact .bracketed .square inner

theorem TargetText.enclosed {cs : List Char} {target : Option String}
    (h : TargetText cs target) : Enclosed isOperand cs := by
  cases h with
  | absent => exact .nil
  | present inner _ => exact .bracketed .round inner

theorem ParamsText.enclosed {cs : List Char} {params : Json.Object} (h : ParamsText cs params) :
    Enclosed isOperand cs := by
  rcases h.shape with ⟨rfl, -⟩ | ⟨inner, after, enclosed, blanks, rfl, -⟩
  · exact .nil
  · exact .bracket .curly enclosed (enclosed_blanks blanks)

/-- **In a text of a step operators stand in literals and brackets only.** -/
theorem Step.WrittenAs.enclosed {s : Step} {cs : List Char} (h : s.WrittenAs cs) :
    Enclosed isOperand cs := by
  obtain ⟨header, blanks, target, blanks', params, isHeader, hb, isTarget, hb', isParams, same⟩ := h
  obtain ⟨before, after, hbefore, hafter, whole⟩ := eq_blanks_trim cs
  have inner : Enclosed isOperand (trim cs) := by
    rw [same]
    exact isHeader.enclosed.append ((enclosed_blanks hb).append
      (isTarget.enclosed.append ((enclosed_blanks hb').append isParams.enclosed)))
  rw [whole]
  exact ((enclosed_blanks hbefore).append inner).append (enclosed_blanks hafter)

/-! ## Results -/

/-- **A text is read as a step just when it is one of the step's texts**: without the blanks at its
ends it is a header, perhaps a target in parentheses and perhaps the text of a JSON object, with
blanks between them. -/
theorem Step.parse_iff_writtenAs (cs : List Char) (s : Step) :
    Step.parse cs = .ok s ↔ s.WrittenAs cs :=
  ⟨Step.writtenAs_of_parse, Step.WrittenAs.parse_eq⟩

end CapabilityPipeline
