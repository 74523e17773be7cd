import CapabilityPipeline.Execution.Driver

/-!
# Scripted drivers

A scripted driver serves each action by a fixed behaviour. Its world counts the calls of every
driver and action, so a behaviour may depend on how often it was called.

Results:

* `Behaviour.reply`: how each behaviour ends a call.
* `Driver.scripted`: the driver of a script.
-/

namespace CapabilityPipeline

open Json (Value)

/-- How a scripted driver serves an action. -/
inductive Behaviour where
  | returns (result : Envelope)
  | fails (message : String)
  | panics (message : Option String)
  /-- Adds a parameter to the previous result. -/
  | adds
  /-- Answers with the number of calls. -/
  | counts
  /-- Fails that many times, and succeeds from then on. -/
  | failsFirst (times : Nat)
  /-- Answers with the request. -/
  | sees
  /-- Never answers. -/
  | hangs
  deriving DecidableEq

/-- Behaviours by action, and one for all other actions. -/
structure Script where
  actions : List (String × Behaviour)
  otherwise : Option Behaviour
  deriving DecidableEq

/-- The numbers of calls so far, by driver and action. -/
abbrev CallCounts := NameMap Nat

/-- The name under which the calls of a driver and action are counted. -/
def callName (key : DriverKey) (action : String) : String :=
  match key with
  | .node id => s!"node:{id}/{action}"
  | .package id => s!"package:{id}/{action}"

/-- An integer of 64 bits with a sign. -/
def signedWord? : Value → Option Int64
  | .number (.integer n _) => if n < 9223372036854775808 then some (Int64.ofInt n) else none
  | _ => none

/-- An integer parameter, or a default. -/
def wordParam (params : Json.Object) (name : String) (absent : Int64) : Int64 :=
  ((Json.Object.get? params name).bind signedWord?).getD absent

/-- The value of an integer of 64 bits. -/
def wordValue (n : Int64) : Value :=
  .number (.integer n.toInt ⟨Int64.le_toInt n, by have := Int64.toInt_lt n; omega⟩)

/-- The reply to the call of the given number. -/
def Behaviour.reply (request : Request) (calls : Nat) : Behaviour → Reply
  | returns result => .answered result
  | fails message => .failed message
  | panics message => .panicked message
  | adds =>
    let previous := wordParam request.params "_prev_result" 0
    .answered (.succeeded (wordValue (previous + wordParam request.params "n" 1)))
  | counts => .answered (.succeeded (.string s!"v{calls}"))
  | failsFirst times =>
    if calls ≤ times then .failed s!"attempt {calls} failed"
    else .answered { Envelope.done with summary := some s!"attempt {calls}" }
  | sees =>
    .answered (.succeeded (.object [
      ("action", .string request.action),
      ("target", .ofOption .string request.target),
      ("params", .object request.params),
      ("context", request.context.toValue)]))
  | hangs => .unanswered

namespace Script

/-- The behaviour for an action. -/
def behaviour? (s : Script) (action : String) : Option Behaviour :=
  match s.actions.lookup action with
  | some behaviour => some behaviour
  | none => s.otherwise

end Script

/-- The driver of a script, registered under a key. A call that is never answered is not
counted. -/
def Driver.scripted (key : DriverKey) (s : Script) : Driver CallCounts where
  call request counts :=
    let name := callName key request.action
    let calls := (counts.get? name).getD 0 + 1
    match s.behaviour? request.action with
    | some .hangs => (Reply.unanswered.atOnce, counts)
    | some behaviour => ((behaviour.reply request calls).atOnce, counts.insert name calls)
    | none =>
      ((Reply.failed s!"unsupported action {request.action}").atOnce, counts.insert name calls)
  actions := s.actions.map Prod.fst

end CapabilityPipeline
