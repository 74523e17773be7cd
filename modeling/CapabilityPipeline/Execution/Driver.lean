import CapabilityPipeline.Execution.Context
import CapabilityPipeline.Execution.Envelope
import CapabilityPipeline.Registry.Snapshot
import CapabilityPipeline.Text.Quoted

/-!
# Drivers

A driver serves actions. Calling it may change the world, a state of any type, takes some time,
and ends with a reply. A table holds the drivers of nodes and of packages, and the handler of an
action decides which of them serves it and under which name.

Results:

* `Driver`, `Served`, `Reply`: what drivers are and how their calls end.
* `DriverTable.resolve`: the driver of an action and the name to call it by.
* `Driver.echo`: the driver that answers with the request.
-/

namespace CapabilityPipeline

open Json (Value)

/-- What a driver is asked to do. -/
structure Request where
  action : String
  target : Option String
  params : Json.Object
  context : Context
  deriving DecidableEq

/-- How a call ends. -/
inductive Reply where
  | answered (result : Envelope)
  /-- The driver reports that it could not serve the call. -/
  | failed (message : String)
  /-- The driver breaks down, possibly with a text. -/
  | panicked (message : Option String)
  /-- The driver never answers. -/
  | unanswered
  deriving DecidableEq

/-- How a call went. -/
structure Served where
  reply : Reply
  /-- How many milliseconds it took. -/
  duration : Nat
  deriving DecidableEq

/-- A call that takes no time. -/
def Reply.atOnce (reply : Reply) : Served :=
  ⟨reply, 0⟩

/-- A server of actions in a world. -/
structure Driver (World : Type) where
  call : Request → World → Served × World
  /-- The actions that it is known to serve. -/
  actions : List String

/-- Where a driver is registered. -/
inductive DriverKey where
  | node (id : String)
  | package (id : String)
  deriving DecidableEq, Repr

/-- A registration in words. -/
def DriverKey.text : DriverKey → String
  | node id => s!"node {id}"
  | package id => s!"package {id}"

/-- Why a step reaches no driver. -/
inductive DispatchError where
  | lookup (error : LookupError)
  | nodeNotAllowed (node : String)
  | noDriver (key : DriverKey)
  deriving DecidableEq, Repr

/-- The wording of a failed dispatch. -/
def DispatchError.message : DispatchError → String
  | lookup error => error.message
  | nodeNotAllowed node => s!"node '{node}' is not allowed in this execution context"
  | noDriver key => s!"no driver registered for '{key.text}'"

/-- Drivers by node and by package. -/
structure DriverTable (World : Type) where
  nodes : NameMap (Driver World)
  packages : NameMap (Driver World)

/-- Part of `resolve`: the registration that an action needs, and the name to call the driver by. -/
def Handler.destination (domain action : String) : Handler → DriverKey × String
  | code => (.node domain, action)
  | package packageId tool => (.package packageId, tool)

namespace DriverTable

variable {World : Type}

/-- A table without drivers. -/
def empty : DriverTable World := ⟨.empty, .empty⟩

/-- The driver of a registration. -/
def get? (t : DriverTable World) : DriverKey → Option (Driver World)
  | .node id => t.nodes.get? id
  | .package id => t.packages.get? id

/-- Model of `register_node` and `register_package`: the table with a driver registered. -/
def register (t : DriverTable World) (key : DriverKey) (d : Driver World) : DriverTable World :=
  match key with
  | .node id => { t with nodes := t.nodes.insert id d }
  | .package id => { t with packages := t.packages.insert id d }

/-- Model of `resolve`: the driver of an action, where it is registered, and the name to call it
by. -/
def resolve (t : DriverTable World) (domain action : String) (descriptor : Action) :
    Except DispatchError (Driver World × DriverKey × String) :=
  let (key, name) := descriptor.handler.destination domain action
  match t.get? key with
  | some d => .ok (d, key, name)
  | none => .error (.noDriver key)

/-- The registered names, in order, as a text for diagnosis. -/
def describe (t : DriverTable World) : String :=
  let list (names : List String) := ", ".intercalate (names.map Text.quoted)
  "DriverTable \x7b nodes: [" ++ list t.nodes.keys ++ "], packages: [" ++ list t.packages.keys ++
    "] \x7d"

end DriverTable

/-- Model of `EchoDriver`: the driver that succeeds with the request as data. -/
def Driver.echo {World : Type} : Driver World where
  call request world :=
    let data : Value := .object [
      ("action", .string request.action),
      ("target", .ofOption .string request.target),
      ("params", .object request.params)]
    let result := { Envelope.succeeded data with summary := some s!"echo {request.action}" }
    ((Reply.answered result).atOnce, world)
  actions := []

end CapabilityPipeline
