import ReplicatedLog.Text.Parts
import ReplicatedLog.Text.Quoted

/-!
# Command ids

A command acts in one way on one entity of one kind.  Its id names the three, in
text as `kind/entity/action`.

* **Input:** a text, split at every `/`;
* **Reading:** `CommandId.parse` wants exactly three parts, reads the first and
  the last in any ASCII case and takes the one in the middle as it stands;
* **Refusals:** `IdError`, a wrong number of parts before an unknown kind, an
  unknown kind before an unknown action, and that before a bad entity.

The entity of an id is never empty and never holds a `/`, so the text form can be
taken apart again in one way only.
-/

namespace ReplicatedLog

/-- The kinds of entities that commands act on. -/
inductive Kind
  | stream
  | table
  | topic
  | terminate
  | cluster
  deriving DecidableEq, Repr

/-- What a command does to its entity. -/
inductive Action
  | create
  | drop
  | execute
  deriving DecidableEq, Repr

/-- The name of a kind. -/
def Kind.name : Kind → String
  | stream => "stream"
  | table => "table"
  | topic => "topic"
  | terminate => "terminate"
  | cluster => "cluster"

/-- The kinds in order. -/
def Kind.all : List Kind := [stream, table, topic, terminate, cluster]

/-- The place of a kind in the order. -/
def Kind.index : Kind → Nat
  | stream => 0
  | table => 1
  | topic => 2
  | terminate => 3
  | cluster => 4

/-- The name of an action. -/
def Action.name : Action → String
  | create => "create"
  | drop => "drop"
  | execute => "execute"

/-- The actions in order. -/
def Action.all : List Action := [create, drop, execute]

/-- The place of an action in the order. -/
def Action.index : Action → Nat
  | create => 0
  | drop => 1
  | execute => 2

/-- Whether a text can be the entity of an id. -/
def IsEntity (entity : String) : Prop :=
  entity ≠ "" ∧ '/' ∉ entity.toList

instance (entity : String) : Decidable (IsEntity entity) :=
  inferInstanceAs (Decidable (_ ∧ _))

/-- The id of a command. -/
structure CommandId where
  kind : Kind
  entity : String
  action : Action
  isEntity : IsEntity entity
  deriving DecidableEq

/-- Why there is no id. -/
inductive IdError
  | malformed (text : String)
  | unknownKind (text : String)
  | unknownAction (text : String)
  | invalidEntity (text : String)
  deriving DecidableEq, Repr

/-- The wording of a refusal. -/
def IdError.message : IdError → String
  | malformed text =>
      "Malformed command id '" ++ text ++ "': expected kind/entity/action"
  | unknownKind text => "Unknown command kind: " ++ text
  | unknownAction text => "Unknown command action: " ++ text
  | invalidEntity text =>
      "Entity name must be non-empty and must not contain '/': " ++ Text.quote text

section Reading

/-- The kind that a text names in any ASCII case. -/
def Kind.parse (text : String) : Except IdError Kind :=
  match Kind.all.find? (fun k => k.name.toList == Text.lowerCase text.toList) with
  | some k => .ok k
  | none => .error (.unknownKind text)

/-- The action that a text names in any ASCII case. -/
def Action.parse (text : String) : Except IdError Action :=
  match Action.all.find? (fun a => a.name.toList == Text.lowerCase text.toList) with
  | some a => .ok a
  | none => .error (.unknownAction text)

namespace CommandId

/-- The id of the three parts, if the entity can be one. -/
def make (kind : Kind) (entity : String) (action : Action) : Except IdError CommandId :=
  if h : IsEntity entity then .ok ⟨kind, entity, action, h⟩
  else .error (.invalidEntity entity)

/-- Reads an id from its text form. -/
def parse (text : String) : Except IdError CommandId :=
  match Text.partsAt '/' text.toList with
  | [kind, entity, action] => do
      let kind ← Kind.parse (String.ofList kind)
      let action ← Action.parse (String.ofList action)
      make kind (String.ofList entity) action
  | _ => .error (.malformed text)

/-- The text form of an id. -/
def text (id : CommandId) : String :=
  id.kind.name ++ "/" ++ id.entity ++ "/" ++ id.action.name

end CommandId

end Reading

section Order

namespace CommandId

/-- Ids are ordered by kind, then by entity, then by action. -/
def compare (a b : CommandId) : Ordering :=
  (Ord.compare a.kind.index b.kind.index).then
    ((Ord.compare a.entity b.entity).then (Ord.compare a.action.index b.action.index))

/-- Ids in ascending order. -/
def sort (ids : List CommandId) : List CommandId :=
  ids.mergeSort fun a b => (a.compare b).isLE

/-- How many different ids there are. -/
def distinct (ids : List CommandId) : Nat :=
  ids.eraseDups.length

end CommandId

end Order

end ReplicatedLog
