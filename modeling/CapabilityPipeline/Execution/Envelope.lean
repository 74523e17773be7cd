import CapabilityPipeline.Json.Decode
import CapabilityPipeline.Json.Encode

/-!
# Result envelopes

Every call, group and pipeline ends with an envelope: whether it succeeded, and optionally
data, a summary and an error text.

Results:

* `Envelope.payload`: what later steps see of a result.
* `Envelope.toValue`, `Envelope.ofTree?`: envelopes as JSON.
-/

namespace CapabilityPipeline

open Json (Tree Value)

/-- Model of `ResultEnvelope`: the outcome of a call, a group or a pipeline. -/
structure Envelope where
  success : Bool
  data : Option Value
  summary : Option String
  error : Option String
  deriving DecidableEq

namespace Envelope

/-- Model of `success`: success with data. -/
def succeeded (data : Value) : Envelope :=
  ⟨true, some data, none, none⟩

/-- Model of `empty_success`: success without data. -/
def done : Envelope :=
  ⟨true, none, none, none⟩

/-- Model of `failure`: failure with an error text. -/
def failed (error : String) : Envelope :=
  ⟨false, none, none, some error⟩

/-- Model of `payload`. What later steps see: the data, else the summary, else null. -/
def payload (e : Envelope) : Value :=
  match e.data, e.summary with
  | some data, _ => data
  | none, some summary => .string summary
  | none, none => .null

/-- Model of `error_message`: the error text, or a general one. -/
def errorMessage (e : Envelope) : String :=
  e.error.getD "unknown error"

/-- An envelope as JSON. -/
def toValue (e : Envelope) : Value :=
  .record [
    Json.always "success" (.bool e.success),
    Json.whenSome "data" id e.data,
    Json.whenSome "summary" .string e.summary,
    Json.whenSome "error" .string e.error]

/-- The envelope that a tree describes. -/
def ofTree? (tree : Tree) : Option Envelope := do
  let r ← tree.record? ["success", "data", "summary", "error"]
  return {
    success := ← r.required "success" Tree.bool?
    data := ← r.optional "data" Tree.value?
    summary := ← r.optional "summary" Tree.string?
    error := ← r.optional "error" Tree.string? }

end Envelope

end CapabilityPipeline
