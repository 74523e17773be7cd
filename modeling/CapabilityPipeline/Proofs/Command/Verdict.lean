import CapabilityPipeline.Command.Outcome
import CapabilityPipeline.Proofs.Json.Records

/-!
# The verdict of a command

A command may write an object that says whether it succeeded. Its verdict is the result of the call
if the summary and the error that it writes with it are texts. Otherwise the object is no envelope,
and the exit status decides.

Results:

* `Envelope.ofTree?_object`: the envelope that an object describes, if it describes one.
* `CommandOutcome.result_of_verdict`: what becomes of a call whose command gives a verdict.
* `CommandOutcome.verdict_lost`: a failure that a command reports can pass for success.
-/

namespace CapabilityPipeline

open Json (Object Tree Value)
open Text (Symbol)

namespace Json

/-! ## Objects as records -/

mutual

/-- Every part of the tree of a value can be used. -/
theorem Tree.isUsable_ofValue : ∀ v : Value, (ofValue v).isUsable = true
  | .null | .bool _ | .number _ | .string _ => rfl
  | .array items => Tree.itemsUsable_ofItems items
  | .object members => Tree.membersUsable_ofMembers members

theorem Tree.itemsUsable_ofItems : ∀ items : List Value, itemsUsable (ofItems items) = true
  | [] => rfl
  | item :: rest => by
    rw [ofItems, itemsUsable, Tree.isUsable_ofValue item, Tree.itemsUsable_ofItems rest]
    rfl

theorem Tree.membersUsable_ofMembers : ∀ members : List (String × Value),
    membersUsable (ofMembers members) = true
  | [] => rfl
  | (name, value) :: rest => by
    rw [ofMembers, membersUsable, Tree.isUsable_ofValue value, Tree.membersUsable_ofMembers rest]
    rfl

end

/-- A value without repeated names is read from its tree. -/
theorem Tree.value?_ofValue {v : Value} (distinct : v.Distinct) :
    (ofValue v).value? = some v := by
  rw [Tree.value?, Tree.isUsable_ofValue, Tree.toValue_ofValue v distinct]
  rfl

namespace Object

/-- The value of a member, absent also if it is null. -/
def present? (members : Object) (name : String) : Option Value :=
  match get? members name with
  | none | some .null => none
  | some value => some value

/-- The text that a member may hold, if it holds nothing else. -/
def optionalText? (members : Object) (name : String) : Option (Option String) :=
  match present? members name with
  | none => some none
  | some (.string text) => some (some text)
  | some _ => none

end Object

theorem lookup_ofMembers (members : Object) (name : String) :
    (Tree.ofMembers members).lookup name = (Object.get? members name).map Tree.ofValue := by
  unfold Object.get?
  rw [Tree.ofMembers_eq_map]
  induction members with
  | nil => rfl
  | cons m rest ih =>
    rw [List.map_cons, List.lookup_cons, List.lookup_cons]
    split
    · rfl
    · exact ih

/-- An object without repeated names is a record with the fields that it has. -/
theorem record?_ofValue {members : Object} (distinct : (members.map Prod.fst).Nodup)
    (names : List String) : ∃ r : Tree.Record,
      Tree.record? names (Tree.ofValue (.object members)) = some r ∧
        ∀ name, names.contains name = true →
          r.fields.lookup name = (Object.get? members name).map Tree.ofValue := by
  refine ⟨⟨false, (Tree.ofMembers members).filter fun m => names.contains m.1⟩, ?_,
    fun name known => ?_⟩
  · rw [Tree.ofValue, Tree.record?]
    refine if_pos ?_
    have keys : (Tree.ofMembers members).map Prod.fst = members.map Prod.fst := by
      rw [Tree.ofMembers_eq_map, List.map_map]
      rfl
    exact (keys ▸ distinct).sublist (List.filter_sublist.map Prod.fst)
  · rw [NameMap.lookup_filter_key (fun key => names.contains key), if_pos known, lookup_ofMembers]

/-- A part of a record that may be missing or null. -/
theorem optional_ofValue {α : Type} {r : Tree.Record} {members : Object} {name : String}
    (field : r.fields.lookup name = (Object.get? members name).map Tree.ofValue)
    (read : Tree → Option α) :
    r.optional name read =
      match Object.present? members name with
      | none => some none
      | some value => (read (Tree.ofValue value)).map some := by
  unfold Tree.Record.optional Tree.Record.defaulted Object.present?
  rw [field]
  cases Object.get? members name with
  | none => rfl
  | some value => cases value <;> rfl

theorem optional_text {r : Tree.Record} {members : Object} {name : String}
    (field : r.fields.lookup name = (Object.get? members name).map Tree.ofValue) :
    r.optional name Tree.string? = Object.optionalText? members name := by
  rw [optional_ofValue field]
  unfold Object.optionalText?
  cases Object.present? members name with
  | none => rfl
  | some value => cases value <;> rfl

theorem optional_value {r : Tree.Record} {members : Object} {name : String}
    (distinct : Value.MembersDistinct members)
    (field : r.fields.lookup name = (Object.get? members name).map Tree.ofValue) :
    r.optional name Tree.value? = some (Object.present? members name) := by
  rw [optional_ofValue field]
  cases found : Object.present? members name with
  | none => rfl
  | some value =>
    have mem : (name, value) ∈ members := by
      refine NameMap.mem_of_lookup_eq_some ?_
      unfold Object.present? at found
      cases held : Object.get? members name with
      | none =>
        rw [held] at found
        cases found
      | some other =>
        rw [held] at found
        cases other with
        | null => cases found
        | _ => exact held.trans found
    have alone := (Value.membersDistinct_iff members).mp distinct (name, value) mem
    dsimp only
    rw [Tree.value?_ofValue alone]
    rfl

end Json

open Json

/-- **The envelope that an object describes.** Its summary and its error must be texts, null or
missing; of its data nothing is expected. -/
theorem Envelope.ofTree?_object {members : Object} (distinct : (Value.object members).Distinct)
    {success : Bool} (verdict : Object.get? members "success" = some (.bool success)) :
    Envelope.ofTree? (Tree.ofValue (.object members)) =
      (Object.optionalText? members "summary").bind fun summary =>
        (Object.optionalText? members "error").map fun error =>
          ⟨success, Object.present? members "data", summary, error⟩ := by
  obtain ⟨names, values⟩ := distinct
  obtain ⟨r, record, fields⟩ := record?_ofValue names ["success", "data", "summary", "error"]
  have success : r.required "success" Tree.bool? = some success := by
    unfold Tree.Record.required
    rw [fields "success" rfl, verdict]
    rfl
  unfold Envelope.ofTree?
  rw [record]
  simp only [Option.bind_eq_bind, Option.bind_some, success,
    optional_value values (fields "data" rfl), optional_text (fields "summary" rfl),
    optional_text (fields "error" rfl)]
  cases Object.optionalText? members "summary" <;>
    cases Object.optionalText? members "error" <;> rfl

namespace CommandOutcome

variable {o : CommandOutcome} {members : Object} {b : Bool}

theorem distinct_of_value? {v : Value} (held : o.value? = some v) : v.Distinct := by
  unfold value? at held
  cases read : Value.ofText o.output with
  | error fault =>
    rw [read] at held
    cases held
  | ok value =>
    rw [read] at held
    cases held
    exact Value.distinct_of_read read

/-- What a command says about its success counts if the object is an envelope. -/
theorem verdict?_object (held : o.value? = some (.object members))
    (verdict : Object.get? members "success" = some (.bool b)) :
    o.verdict? = (Object.optionalText? members "summary").bind fun summary =>
      (Object.optionalText? members "error").map fun error =>
        ⟨b, Object.present? members "data", summary, error⟩ := by
  have said : (Value.object members).member? "success" = some (.bool b) := verdict
  rw [← Envelope.ofTree?_object (distinct_of_value? held) verdict]
  unfold verdict?
  rw [held]
  simp only [Option.bind_eq_bind, Option.bind_some, said]
  rfl

theorem result_of_envelope {envelope : Envelope} (given : o.verdict? = some envelope) :
    o.result = .ok envelope := by
  unfold result
  rw [given]

/-- Without an envelope the exit status decides. -/
theorem result_without_envelope {v : Value} (held : o.value? = some v)
    (missing : o.verdict? = none) :
    o.result = if o.success then .ok (.succeeded v) else .error o.failure := by
  unfold result data
  rw [missing, held]

/-- Without an envelope a verdict is respected only if the status and the verdict are success. -/
theorem respected_without_envelope (o : CommandOutcome) (v : Value) :
    (∃ envelope, (if o.success then .ok (.succeeded v) else .error o.failure :
        Except CommandFailure Envelope) = .ok envelope ∧ envelope.success = b) ↔
      o.success = true ∧ b = true := by
  cases o.success with
  | false =>
    refine ⟨fun ⟨_, failed, _⟩ => ?_, fun ⟨failed, _⟩ => ?_⟩
    · cases failed
    · cases failed
  | true =>
    refine ⟨fun ⟨envelope, done, same⟩ => ?_, fun ⟨_, same⟩ => ⟨_, rfl, same.symm⟩⟩
    cases done
    exact ⟨rfl, same.symm⟩

/-- **The verdict of a command.** A command writes an object with a member that says whether it
succeeded. If the summary and the error of the object are texts, null or missing, the object is the
result. Otherwise the whole object is the data of a success, or the call fails, as the exit status
says. So the verdict is respected unless the object is no envelope, and then only a verdict of
success with a status of success. -/
theorem result_of_verdict (o : CommandOutcome) {members : Object} {b : Bool}
    (held : o.value? = some (.object members))
    (verdict : Object.get? members "success" = some (.bool b)) :
    (∀ summary error, Object.optionalText? members "summary" = some summary →
      Object.optionalText? members "error" = some error →
      o.result = .ok ⟨b, Object.present? members "data", summary, error⟩) ∧
    (Object.optionalText? members "summary" = none ∨ Object.optionalText? members "error" = none →
      o.result = if o.success then .ok (.succeeded (.object members)) else .error o.failure) ∧
    ((∃ envelope, o.result = .ok envelope ∧ envelope.success = b) ↔
      (Object.optionalText? members "summary").isSome ∧
          (Object.optionalText? members "error").isSome ∨
        o.success = true ∧ b = true) := by
  have envelope := verdict?_object held verdict
  have fits (summary error : Option String)
      (text : Object.optionalText? members "summary" = some summary)
      (text' : Object.optionalText? members "error" = some error) :
      o.result = .ok ⟨b, Object.present? members "data", summary, error⟩ := by
    refine result_of_envelope ?_
    rw [envelope, text, text']
    rfl
  have other (misfit : Object.optionalText? members "summary" = none ∨
      Object.optionalText? members "error" = none) :
      o.result = if o.success then .ok (.succeeded (.object members)) else .error o.failure := by
    refine result_without_envelope held ?_
    rw [envelope]
    rcases misfit with misfit | misfit
    · rw [misfit]
      rfl
    · rw [misfit]
      cases Object.optionalText? members "summary" <;> rfl
  refine ⟨fits, other, ?_⟩
  cases text : Object.optionalText? members "summary" with
  | none =>
    rw [other (.inl text), respected_without_envelope]
    simp
  | some summary =>
    cases text' : Object.optionalText? members "error" with
    | none =>
      rw [other (.inr text'), respected_without_envelope]
      simp
    | some error =>
      rw [fits summary error text text']
      simp

/-- A command that reports a failure, with a number where its summary belongs. -/
def numberedFailure : CommandOutcome where
  success := true
  code := some 0
  stdout := Symbol.ofText "\x7b\"success\": false, \"summary\": 5\x7d"
  stderr := []

/-- What that command writes. -/
def numberedMembers : Object :=
  [("success", .bool false), ("summary", .ofNat 5)]

theorem value?_numberedFailure : numberedFailure.value? = some (.object numberedMembers) := by
  decide +kernel

theorem result_of_verdict_numberedFailure :
    numberedFailure.value? = some (.object numberedMembers) ∧
      Object.get? numberedMembers "success" = some (.bool false) ∧
      numberedFailure.result = .ok (.succeeded (.object numberedMembers)) ∧
      ¬∃ envelope, numberedFailure.result = .ok envelope ∧ envelope.success = false := by
  obtain ⟨-, misfit, respected⟩ := result_of_verdict numberedFailure value?_numberedFailure rfl
  refine ⟨value?_numberedFailure, rfl, misfit (.inl rfl), fun kept => ?_⟩
  exact absurd (respected.mp kept) (by decide)

/-- A command may report a failure, and its call succeed. -/
theorem verdict_lost : ¬∀ (o : CommandOutcome) (members : Object) (b : Bool),
    o.value? = some (.object members) → Object.get? members "success" = some (.bool b) →
    ∃ envelope, o.result = .ok envelope ∧ envelope.success = b := by
  intro kept
  obtain ⟨envelope, done, failed⟩ :=
    kept numberedFailure numberedMembers false value?_numberedFailure rfl
  have missing : numberedFailure.verdict? = none := by
    rw [verdict?_object value?_numberedFailure rfl]
    rfl
  rw [result_without_envelope value?_numberedFailure missing] at done
  cases done
  cases failed

end CommandOutcome

end CapabilityPipeline
