import CapabilityPipeline.Registry.Keyword
import CapabilityPipeline.Registry.Snapshot

/-!
# Discovery

A query in plain words finds the nodes whose actions it describes. Every action that shares
enough keywords with the query counts for its node, and a query that names the node counts a
little more. Agents are not found.

Results:

* `Snapshot.discover`: the best nodes for a query, each with its best actions.
-/

namespace CapabilityPipeline

open Json (Value)

/-- An action that a query describes, with its half points. -/
structure ActionMatch where
  action : String
  description : String
  usage : Option String
  score : Nat
  deriving DecidableEq, Repr

/-- Model of `Discovery`: a node that a query describes, with its half points and its best
actions. -/
structure NodeMatch where
  node : String
  score : Nat
  actions : List ActionMatch
  deriving DecidableEq, Repr

/-- Model of `MIN_ACTION_SCORE`: half points below which an action does not count. -/
def minActionScore : Nat := 2

/-- Model of `NODE_NAME_HIT`: half points for a query that names the node. -/
def nodeNameScore : Nat := 2

/-- Model of `MAX_ACTIONS_PER_NODE`: actions shown of a node. -/
def maxShownActions : Nat := 3

/-- Part of `discover`. The text that describes an action: its name in words, its description, and
its usage. -/
def describingText (name : String) (action : Action) : String :=
  let spaced := String.ofList (name.toList.map fun c => if c = '_' then ' ' else c)
  let usage := match action.usage with
    | some usage => " " ++ usage
    | none => ""
  spaced ++ " " ++ action.description ++ usage

/-- The order of `discover`: more half points come first, and of equal ones the smaller name. -/
def ranksBefore (scoreA : Nat) (nameA : String) (scoreB : Nat) (nameB : String) : Bool :=
  scoreB < scoreA || (scoreA = scoreB && nameA ≤ nameB)

/-- Part of `discover`: the actions of a node that count, best first. -/
def matchingActions (query : NameSet) (node : Node) : List ActionMatch :=
  let found := node.actions.entries.filterMap fun (name, action) =>
    let score := overlap query (keywords (describingText name action))
    if minActionScore ≤ score then
      some { action := name, description := action.description, usage := action.usage, score }
    else none
  found.mergeSort fun a b => ranksBefore a.score a.action b.score b.action

/-- Part of `discover`: a node with its half points, if any of its actions counts. -/
def matchNode (query : NameSet) (node : Node) : Option NodeMatch :=
  match matchingActions query node with
  | [] => none
  | actions =>
    let named := if query.contains (lowerCased node.id) then nodeNameScore else 0
    some {
      node := node.id
      score := actions.foldr (fun a n => a.score + n) named
      actions := actions.take maxShownActions }

/-- Model of `discover`: the nodes that a query describes, best first, at most so many. -/
def Snapshot.discover (s : Snapshot) (query : String) (limit : Nat) : List NodeMatch :=
  let words := keywords query
  if words.isEmpty then []
  else
    let found := (s.list false).filterMap (matchNode words)
    (found.mergeSort fun a b => ranksBefore a.score a.node b.score b.node).take limit

/-! ## Writing -/

/-- Half points as a number of points. -/
def pointsValue (halves : Nat) : Value :=
  .number (.double (Float.ofNat halves / 2))

/-- A matching action as JSON. -/
def ActionMatch.toValue (m : ActionMatch) : Value :=
  .record [
    Json.always "action" (.string m.action),
    Json.always "description" (.string m.description),
    Json.whenSome "example" .string m.usage,
    Json.always "score" (pointsValue m.score)]

/-- A matching node as JSON. -/
def NodeMatch.toValue (m : NodeMatch) : Value :=
  .object [
    ("node", .string m.node),
    ("score", pointsValue m.score),
    ("actions", .ofList ActionMatch.toValue m.actions)]

end CapabilityPipeline
