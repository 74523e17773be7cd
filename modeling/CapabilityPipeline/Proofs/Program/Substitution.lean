import CapabilityPipeline.Program.Substitution
import CapabilityPipeline.Proofs.Json.RoundTrip
import CapabilityPipeline.Proofs.Names.Lookup
import CapabilityPipeline.Proofs.Program.Tokens

/-!
# What substitution inserts

Each token gives way to a value and everything else stays. What is inserted is not looked at
again, a string that becomes a value becomes what its text would be, and nothing but the values of
what a step mentions makes a difference to it.

Results:

* `Substitution.inText_insertion`: a text around an inserted value.
* `Substitution.inlineText_inValue`: values and texts are replaced alike.
* `Substitution.resolve_dependsOnMentions`: what a step becomes depends on what it mentions.
-/

namespace CapabilityPipeline

open Json (Value)

namespace Substitution

variable {s s' : Substitution} {text : String}

/-! ## Texts -/

/-- A text with another behind it that stands apart: each becomes what it becomes alone. -/
theorem inText_append (s : Substitution) (a : String) {b : String} (apart : StandsApart b.toList) :
    s.inText (a ++ b) = s.inText a ++ s.inText b := by
  have cut := (cut_tokens a).append (cut_tokens b) apart
  rw [← String.toList_append] at cut
  unfold inText
  rw [cut.tokens_eq, List.flatMap_append, String.ofList_append]

theorem inText_of_tokens {token : Token} {b : String} (h : tokens text = token :: tokens b) :
    s.inText text = s.tokenText token ++ s.inText b := by
  unfold inText
  rw [h, List.flatMap_cons, String.ofList_append, String.ofList_toList]

theorem tokenText_reference {name : String} {value : Value}
    (assigned : s.assigned.get? name = some value) :
    s.tokenText (.reference name) = value.inlineText := by
  simp only [tokenText, assigned]

theorem toList_reference (name b : String) :
    ("$" ++ name ++ b).toList = '$' :: (name.toList ++ b.toList) := by
  rw [String.toList_append, String.toList_append, List.append_assoc]
  rfl

theorem inText_reference (s : Substitution) {name b : String}
    (valid : isVariableName name.toList = true) (ends : EndsName b.toList) :
    s.inText ("$" ++ name ++ b) = s.tokenText (.reference name) ++ s.inText b := by
  have cut := Cut.reference valid ends (cut_tokens b)
  rw [← toList_reference, String.ofList_toList] at cut
  exact inText_of_tokens cut.tokens_eq

theorem inText_placeholder (s : Substitution) (b : String) :
    s.inText (previousPlaceholder ++ b) = s.tokenText .previous ++ s.inText b := by
  have cut := Cut.previous (cut_tokens b)
  rw [← String.toList_append] at cut
  exact inText_of_tokens cut.tokens_eq

/-- **What is inserted is not looked at again.** A variable with a value, in front of what does not
go on with its name, and the placeholder give way to the texts of their values. What stands before
and behind them becomes what it becomes alone. -/
theorem inText_insertion (s : Substitution) (a b : String) :
    (∀ name value, isVariableName name.toList = true → s.assigned.get? name = some value →
      EndsName b.toList →
        s.inText (a ++ "$" ++ name ++ b) = s.inText a ++ value.inlineText ++ s.inText b) ∧
      s.inText (a ++ previousPlaceholder ++ b) =
        s.inText a ++ (s.previous.getD .null).inlineText ++ s.inText b := by
  constructor
  · intro name value valid assigned ends
    have apart : StandsApart ("$" ++ name ++ b).toList :=
      toList_reference name b ▸ standsApart_dollar _
    have joined : a ++ "$" ++ name ++ b = a ++ ("$" ++ name ++ b) := by
      simp only [String.append_assoc]
    rw [joined, s.inText_append a apart, s.inText_reference valid ends,
      tokenText_reference assigned, String.append_assoc]
  · have apart : StandsApart (previousPlaceholder ++ b).toList :=
      String.toList_append ▸ standsApart_placeholder _
    rw [String.append_assoc, s.inText_append a apart, s.inText_placeholder, String.append_assoc]
    rfl

/-- A variable whose value looks like variables and placeholders, and such a previous result. -/
def quoting : Substitution :=
  ⟨NameMap.empty.insert "x" (.string ("$x $y " ++ previousPlaceholder)), some (.string "$x")⟩

theorem inText_insertion_quoting :
    isVariableName "x".toList = true ∧
      quoting.assigned.get? "x" = some (.string ("$x $y " ++ previousPlaceholder)) ∧
      EndsName "$y".toList ∧
      quoting.inText ("$" ++ "$" ++ "x" ++ "$y") =
        quoting.inText "$" ++ ("$x $y " ++ previousPlaceholder) ++ quoting.inText "$y" ∧
      quoting.inText ("$x\x7b" ++ previousPlaceholder ++ "\x7d") =
        quoting.inText "$x\x7b" ++ "$x" ++ quoting.inText "\x7d" :=
  ⟨by decide, by decide, by decide,
    (inText_insertion quoting "$" "$y").1 "x" (.string _) (by decide) (by decide) (by decide),
    (inText_insertion quoting "$x\x7b" "\x7d").2⟩

/-- A value for what is no name of a variable. -/
def hyphenated : Substitution :=
  ⟨NameMap.empty.insert "news-2" (.string "headlines"), none⟩

/-- Behind a dollar sign only the name of a variable gives way to its value. -/
theorem inText_hyphenated :
    hyphenated.assigned.get? "news-2" = some (.string "headlines") ∧ EndsName "".toList ∧
      hyphenated.inText ("" ++ "$" ++ "news-2" ++ "") ≠
        hyphenated.inText "" ++ (Value.string "headlines").inlineText ++ hyphenated.inText "" := by
  decide

/-! ## Strings that are one token -/

theorem tokens_placeholder : tokens previousPlaceholder = [.previous] := by
  have cut := Cut.previous .done
  rw [List.append_nil] at cut
  exact cut.tokens_eq

/-- A string is seen to be a variable when it is a variable and nothing else. -/
theorem wholeVariable?_eq_some_iff {name : String} :
    wholeVariable? text = some name ↔ tokens text = [.reference name] := by
  unfold wholeVariable?
  constructor
  · intro whole
    split at whole
    · next name same =>
      split at whole
      · next valid =>
        cases whole
        have ends : EndsName [] := by decide
        have cut := Cut.reference valid ends .done
        rw [List.append_nil, ← same] at cut
        exact cut.tokens_eq
      · cases whole
    · cases whole
  · intro only
    have cut := cut_tokens text
    rw [only] at cut
    have chars := cut.flatMap_written
    rw [List.flatMap_singleton, Token.written] at chars
    have valid : isVariableName name.toList = true :=
      cut.isVariableName List.mem_cons_self
    simp only [← chars, valid, if_true, String.ofList_toList]

/-- A string becomes a value whose text is what the string becomes as a text. -/
theorem inlineText_inString (s : Substitution) (text : String) :
    (s.inString text).inlineText = s.inText text := by
  have single (token : Token) (only : tokens text = [token]) :
      s.inText text = s.tokenText token := by
    unfold inText
    rw [only, List.flatMap_singleton, String.ofList_toList]
  unfold inString
  split
  · next same =>
    subst same
    exact (single .previous tokens_placeholder).symm
  · split
    · next value found =>
      obtain ⟨name, whole, assigned⟩ := Option.bind_eq_some_iff.mp found
      rw [single _ (wholeVariable?_eq_some_iff.mp whole), tokenText_reference assigned]
    · rfl

/-- **Values and texts are replaced alike.** The text of what a string becomes as a value is what
it becomes as a text, and so the target of a step is always replaced as a text. -/
theorem inlineText_inValue (s : Substitution) :
    (∀ text, (s.inValue (.string text)).inlineText = s.inText text) ∧
      ∀ step inject, (s.resolve step inject).target = step.target.map s.inText := by
  have strings (text : String) : (s.inString text).inlineText = s.inText text :=
    s.inlineText_inString text
  refine ⟨strings, fun step inject => ?_⟩
  unfold resolve
  dsimp only
  exact congrArg (step.target.map ·) (funext strings)

/-! ## What makes a difference -/

/-- Two substitutions have the same values for what a text mentions. -/
structure AgreeOn (s s' : Substitution) (text : String) : Prop where
  assigned : ∀ name ∈ namesIn text, s.assigned.get? name = s'.assigned.get? name
  previous : mentionsPrevious text = true → s.previous = s'.previous

theorem AgreeOn.inText (h : AgreeOn s s' text) : s.inText text = s'.inText text := by
  have each : ∀ token ∈ tokens text, s.tokenText token = s'.tokenText token := by
    intro token mem
    cases token with
    | char c => rfl
    | reference name => simp only [tokenText, h.assigned name (mem_namesIn.mpr mem)]
    | previous => simp only [tokenText, h.previous (List.contains_iff_mem.mpr mem)]
  unfold Substitution.inText
  rw [List.flatMap_def, List.flatMap_def,
    List.map_congr_left fun token mem => congrArg String.toList (each token mem)]

theorem AgreeOn.inString (h : AgreeOn s s' text) : s.inString text = s'.inString text := by
  unfold Substitution.inString
  split
  · next same =>
    subst same
    rw [h.previous (List.contains_iff_mem.mpr (by rw [tokens_placeholder]; decide))]
  · have value : (wholeVariable? text).bind s.assigned.get? =
        (wholeVariable? text).bind s'.assigned.get? := by
      refine Option.bind_congr fun name whole => h.assigned name (mem_namesIn.mpr ?_)
      rw [wholeVariable?_eq_some_iff.mp whole]
      exact List.mem_singleton_self _
    rw [value, h.inText]

mutual

theorem inValue_congr : ∀ v : Value, (∀ text ∈ v.texts, AgreeOn s s' text) →
    s.inValue v = s'.inValue v
  | .null, _ | .bool _, _ | .number _, _ => rfl
  | .string text, h => (h text (List.mem_singleton_self text)).inString
  | .array items, h => congrArg Value.array (inItems_congr items h)
  | .object members, h => congrArg Value.object (inMembers_congr members h)

theorem inItems_congr : ∀ items : List Value, (∀ text ∈ Value.itemTexts items, AgreeOn s s' text) →
    s.inItems items = s'.inItems items
  | [], _ => rfl
  | item :: rest, h => by
    obtain ⟨first, others⟩ := List.forall_mem_append.mp h
    rw [inItems, inItems, inValue_congr item first, inItems_congr rest others]

theorem inMembers_congr : ∀ members : List (String × Value),
    (∀ text ∈ Value.memberTexts members, AgreeOn s s' text) →
      s.inMembers members = s'.inMembers members
  | [], _ => rfl
  | (name, value) :: rest, h => by
    obtain ⟨first, others⟩ := List.forall_mem_append.mp h
    rw [inMembers, inMembers, inValue_congr value first, inMembers_congr rest others]

end

/-! ## What nothing is known about -/

/-- A substitution has no value for anything that a text mentions. -/
structure KnowsNothingOf (s : Substitution) (text : String) : Prop where
  assigned : ∀ name ∈ namesIn text, s.assigned.get? name = none
  previous : mentionsPrevious text = false

theorem KnowsNothingOf.inText (h : KnowsNothingOf s text) : s.inText text = text := by
  have each : ∀ token ∈ tokens text, (s.tokenText token).toList = token.written := by
    intro token mem
    cases token with
    | char c => exact String.toList_ofList
    | reference name =>
      simp only [tokenText, h.assigned name (mem_namesIn.mpr mem), String.toList_ofList,
        Token.written]
    | previous => exact absurd (List.contains_iff_mem.mpr mem) (Bool.eq_false_iff.mp h.previous)
  unfold Substitution.inText
  rw [List.flatMap_def, List.map_congr_left each, ← List.flatMap_def,
    (cut_tokens text).flatMap_written, String.ofList_toList]

theorem KnowsNothingOf.inString (h : KnowsNothingOf s text) : s.inString text = .string text := by
  unfold Substitution.inString
  rw [if_neg, h.inText]
  · split
    · next value found =>
      obtain ⟨name, whole, assigned⟩ := Option.bind_eq_some_iff.mp found
      have mentioned : name ∈ namesIn text := mem_namesIn.mpr <| by
        rw [wholeVariable?_eq_some_iff.mp whole]
        exact List.mem_singleton_self _
      rw [h.assigned name mentioned] at assigned
      cases assigned
    · rfl
  · rintro rfl
    exact absurd h.previous (by decide)

mutual

theorem inValue_eq_self : ∀ v : Value, (∀ text ∈ v.texts, KnowsNothingOf s text) → s.inValue v = v
  | .null, _ | .bool _, _ | .number _, _ => rfl
  | .string text, h => (h text (List.mem_singleton_self text)).inString
  | .array items, h => congrArg Value.array (inItems_eq_self items h)
  | .object members, h => congrArg Value.object (inMembers_eq_self members h)

theorem inItems_eq_self : ∀ items : List Value,
    (∀ text ∈ Value.itemTexts items, KnowsNothingOf s text) → s.inItems items = items
  | [], _ => rfl
  | item :: rest, h => by
    obtain ⟨first, others⟩ := List.forall_mem_append.mp h
    rw [inItems, inValue_eq_self item first, inItems_eq_self rest others]

theorem inMembers_eq_self : ∀ members : List (String × Value),
    (∀ text ∈ Value.memberTexts members, KnowsNothingOf s text) → s.inMembers members = members
  | [], _ => rfl
  | (name, value) :: rest, h => by
    obtain ⟨first, others⟩ := List.forall_mem_append.mp h
    rw [inMembers, inValue_eq_self value first, inMembers_eq_self rest others]

end

/-! ## Steps -/

theorem keys_inMembers (s : Substitution) (members : List (String × Value)) :
    (s.inMembers members).map Prod.fst = members.map Prod.fst := by
  induction members with
  | nil => rfl
  | cons member rest ih => exact congrArg (member.1 :: ·) ih

theorem contains_inMembers (s : Substitution) (members : List (String × Value)) (name : String) :
    Json.Object.contains (s.inMembers members) name = Json.Object.contains members name := by
  rw [Bool.eq_iff_iff, Json.Object.contains_iff, Json.Object.contains_iff, keys_inMembers]

/-- The parameter that is added to a step, if any. -/
def added (s : Substitution) (step : Step) (inject : Bool) : Json.Object :=
  match s.previous with
  | some previous =>
    if inject && !step.mentionsPrevious && !Json.Object.contains step.params previousParam then
      [(previousParam, previous)]
    else []
  | none => []

/-- A resolved step has the replaced parameters and the added one. -/
theorem resolve_eq (s : Substitution) (step : Step) (inject : Bool) :
    s.resolve step inject = { step with
      target := step.target.map fun target => (s.inString target).inlineText
      params := s.inMembers step.params ++ s.added step inject } := by
  have params : (s.resolve step inject).params =
      s.inMembers step.params ++ s.added step inject := by
    unfold resolve added
    dsimp only
    rw [contains_inMembers]
    cases s.previous with
    | none => exact (List.append_nil _).symm
    | some previous =>
      dsimp only
      split
      · next wanted =>
        have new : Json.Object.contains step.params previousParam = false := by
          simpa using (Bool.and_eq_true_iff.mp wanted).2
        refine Json.Object.insert_of_not_mem (fun mem => ?_) previous
        rw [keys_inMembers, ← Json.Object.contains_iff, new] at mem
        cases mem
      · exact (List.append_nil _).symm
  rw [← params]
  rfl

/-- What is added is the previous result, and nothing without one. -/
theorem added_cases (s : Substitution) (step : Step) (inject : Bool) :
    s.added step inject = [] ∨
      ∃ value, s.previous = some value ∧ s.added step inject = [(previousParam, value)] := by
  unfold added
  cases s.previous with
  | none => exact .inl rfl
  | some value =>
    dsimp only
    split
    · exact .inr ⟨value, rfl, rfl⟩
    · exact .inl rfl

theorem target_congr {step : Step} (h : ∀ text ∈ step.texts, AgreeOn s s' text) :
    (step.target.map fun target => (s.inString target).inlineText) =
      step.target.map fun target => (s'.inString target).inlineText :=
  Option.map_congr fun text mem =>
    congrArg Value.inlineText (h text (List.mem_append_left _ (Option.mem_toList.mpr mem))).inString

theorem params_congr {step : Step} (h : ∀ text ∈ step.texts, AgreeOn s s' text) :
    s.inMembers step.params = s'.inMembers step.params :=
  inMembers_congr step.params fun text mem => h text (List.mem_append_right _ mem)

/-- What a step becomes depends on the values of what it mentions, and on the previous result. -/
structure DependsOnMentions (step : Step) (inject : Bool) : Prop where
  /-- The names that a step mentions are found by looking for variables alone. -/
  references : step.mentions = step.references
  /-- The previous result is mentioned wherever the placeholder stands in a text. -/
  placeholder : step.mentionsPrevious = true ↔
    ∃ text ∈ step.texts, placeholderChars <:+: text.toList
  /-- The values of other names make no difference. -/
  agreeing : ∀ (assigned assigned' : NameMap Value) (previous : Option Value),
    (∀ name ∈ step.mentions.keys, assigned.get? name = assigned'.get? name) →
      resolve ⟨assigned, previous⟩ step inject = resolve ⟨assigned', previous⟩ step inject
  /-- Where it is not mentioned, the previous result is at most added as a parameter. -/
  withoutPlaceholder : step.mentionsPrevious = false → ∀ assigned : NameMap Value,
    ∃ resolved : Step, resolved.params.map Prod.fst = step.params.map Prod.fst ∧
      ∀ previous, ∃ added,
        resolve ⟨assigned, previous⟩ step inject =
            { resolved with params := resolved.params ++ added } ∧
          (added = [] ∨ ∃ value, previous = some value ∧ added = [(previousParam, value)])
  /-- A step stays as it is when nothing that it mentions has a value. -/
  unassigned : step.mentionsPrevious = false → ∀ assigned : NameMap Value,
    (∀ name ∈ step.mentions.keys, assigned.get? name = none) →
      resolve ⟨assigned, none⟩ step inject = step

theorem mem_mentions {step : Step} {name : String} (mem : text ∈ step.texts)
    (mentioned : name ∈ namesIn text) : name ∈ step.mentions.keys :=
  NameSet.mem_keys_ofNames.mpr (List.mem_flatMap.mpr ⟨text, mem, mentioned⟩)

theorem mentionsPrevious_of_mem {step : Step} (unmentioned : step.mentionsPrevious = false)
    (mem : text ∈ step.texts) : mentionsPrevious text = false := by
  unfold Step.mentionsPrevious at unmentioned
  exact Bool.eq_false_iff.mpr (List.any_eq_false.mp unmentioned text mem)

/-- **What a step becomes depends on what it mentions.** -/
theorem resolve_dependsOnMentions (step : Step) (inject : Bool) :
    DependsOnMentions step inject where
  references := step.mentions_eq_references
  placeholder := Step.mentionsPrevious_iff
  agreeing assigned assigned' previous same := by
    have agree : ∀ text ∈ step.texts, AgreeOn ⟨assigned, previous⟩ ⟨assigned', previous⟩ text :=
      fun text mem => ⟨fun name mentioned => same name (mem_mentions mem mentioned), fun _ => rfl⟩
    rw [resolve_eq, resolve_eq, target_congr agree, params_congr agree]
    rfl
  withoutPlaceholder unmentioned assigned := by
    refine ⟨{ step with
      target := step.target.map fun target => (inString ⟨assigned, none⟩ target).inlineText
      params := inMembers ⟨assigned, none⟩ step.params }, keys_inMembers _ _, fun previous => ?_⟩
    have agree : ∀ text ∈ step.texts, AgreeOn ⟨assigned, previous⟩ ⟨assigned, none⟩ text := by
      refine fun text mem => ⟨fun _ _ => rfl, fun mentioned => ?_⟩
      rw [mentionsPrevious_of_mem unmentioned mem] at mentioned
      cases mentioned
    refine ⟨added ⟨assigned, previous⟩ step inject, ?_, added_cases _ step inject⟩
    rw [resolve_eq, target_congr agree, params_congr agree]
  unassigned unmentioned assigned unknown := by
    have nothing : ∀ text ∈ step.texts, KnowsNothingOf ⟨assigned, none⟩ text := fun text mem =>
      ⟨fun name mentioned => unknown name (mem_mentions mem mentioned),
        mentionsPrevious_of_mem unmentioned mem⟩
    have target : (step.target.map fun target =>
        (inString ⟨assigned, none⟩ target).inlineText) = step.target := by
      refine (Option.map_congr fun text mem => ?_).trans Option.map_id'
      rw [(nothing text (List.mem_append_left _ (Option.mem_toList.mpr mem))).inString]
      rfl
    rw [resolve_eq, target, inMembers_eq_self step.params fun text mem =>
      nothing text (List.mem_append_right _ mem)]
    exact congrArg (fun params => { step with params }) (List.append_nil step.params)

/-- A step that mentions two names, one of them in its parameters. -/
def letter : Step :=
  ((Step.ofRoute "desk" "send").withTarget "Dear $who").withParam "pages"
    (.array [.string "$news", .string "for $10"])

/-- Values for the two names. -/
def addressed : NameMap Value :=
  (NameMap.empty.insert "who" (.string "$news")).insert "news" (.bool true)

theorem resolve_dependsOnMentions_letter :
    letter.mentions.keys = ["news", "who"] ∧ letter.mentionsPrevious = false ∧
      (∀ name ∈ letter.mentions.keys,
        addressed.get? name = (addressed.insert "price" .null).get? name) ∧
      resolve ⟨addressed, some .null⟩ letter true =
        resolve ⟨addressed.insert "price" .null, some .null⟩ letter true ∧
      (∃ resolved : Step, resolved.params.map Prod.fst = letter.params.map Prod.fst ∧
        ∀ previous, ∃ added,
          resolve ⟨addressed, previous⟩ letter true =
              { resolved with params := resolved.params ++ added } ∧
            (added = [] ∨ ∃ value, previous = some value ∧ added = [(previousParam, value)])) ∧
      (∀ name ∈ letter.mentions.keys,
        (NameMap.empty.insert "price" Value.null).get? name = none) ∧
      resolve ⟨NameMap.empty.insert "price" .null, none⟩ letter true = letter := by
  have depends := resolve_dependsOnMentions letter true
  have unmentioned : letter.mentionsPrevious = false := by decide
  exact ⟨by decide, unmentioned, by decide, depends.agreeing _ _ _ (by decide),
    depends.withoutPlaceholder unmentioned addressed, by decide,
    depends.unassigned unmentioned _ (by decide)⟩

end Substitution

end CapabilityPipeline
