import ReplicatedLog.Codec.Basic
import ReplicatedLog.Command.Basic
import ReplicatedLog.Log.Partition

/-!
# JSON forms

How the values that travel through the log look in JSON: ids and commands,
partitions and positions, texts and numbers.  Structures are written with their
fields in order; properties are written in the order of their names.  An id whose
entity cannot be one is refused with the wording of `IdError`.
-/

namespace ReplicatedLog
namespace JsonForm

open Json

section Names

/-- Kinds by their names. -/
def kinds : List (String × Kind) := Kind.all.map fun k => (k.name, k)

/-- Actions by their names. -/
def actions : List (String × Action) := Action.all.map fun a => (a.name, a)

/-- Reads the name of a kind. -/
def readKind : Parser Kind := variant kinds

/-- Reads the name of an action. -/
def readAction : Parser Action := variant actions

end Names

section Ids

/-- The fields of an id that have been read. -/
structure IdFields where
  kind : Option Kind := none
  entity : Option String := none
  action : Option Action := none

/-- The three fields of an id, before the entity is checked. -/
def idLayout : Layout IdFields (Kind × String × Action) where
  typeName := "RawCommandId"
  fields :=
    [ { name := "kind", isSet := (·.kind.isSome), mayBeCutOff := false
        read := fun s => do return { s with kind := some (← readKind) } },
      { name := "entity", isSet := (·.entity.isSome), mayBeCutOff := false
        read := fun s => do return { s with entity := some (← string) } },
      { name := "action", isSet := (·.action.isSome), mayBeCutOff := false
        read := fun s => do return { s with action := some (← readAction) } } ]
  start := {}
  build s := do
    let kind ← required "kind" s.kind
    let entity ← required "entity" s.entity
    let action ← required "action" s.action
    return (kind, entity, action)

/-- The JSON form of an id. -/
def ofId (id : CommandId) : Value :=
  .object [("kind", .string id.kind.name), ("entity", .string id.entity),
    ("action", .string id.action.name)]

/-- Reads an id. -/
def readId : Parser CommandId := do
  let (kind, entity, action) ← idLayout.read
  match CommandId.make kind entity action with
  | .ok id => return id
  | .error e => throw (.refused e.message)

end Ids

section Commands

/-- The fields of a command that have been read. -/
structure CommandFields where
  statement : Option String := none
  properties : Option Properties := none

/-- Reads properties. -/
def readProperties : Parser Properties :=
  mapOf string SortedMap.insert ∅

/-- The two fields of a command; a command without properties may leave them out. -/
def commandLayout : Layout CommandFields Command where
  typeName := "Command"
  fields :=
    [ { name := "statement", isSet := (·.statement.isSome), mayBeCutOff := false
        read := fun s => do return { s with statement := some (← string) } },
      { name := "overwrite_properties", isSet := (·.properties.isSome), mayBeCutOff := true
        read := fun s => do return { s with properties := some (← readProperties) } } ]
  start := {}
  build s := do
    let statement ← required "statement" s.statement
    return { statement, properties := s.properties.getD ∅ }

/-- The JSON form of a command. -/
def ofCommand (c : Command) : Value :=
  .object [("statement", .string c.statement),
    ("overwrite_properties", .object (c.properties.entries.map fun (k, v) => (k, .string v)))]

/-- Reads a command. -/
def readCommand : Parser Command := commandLayout.read

end Commands

section Places

/-- The fields of a partition or a position that have been read. -/
structure PlaceFields where
  topic : Option String := none
  partition : Option Nat := none
  offset : Option Nat := none

/-- The field that names the topic. -/
def topicField : FieldParser PlaceFields :=
  { name := "topic", isSet := (·.topic.isSome), mayBeCutOff := false
    read := fun s => do return { s with topic := some (← string) } }

/-- The field that holds the index of the partition. -/
def partitionField : FieldParser PlaceFields :=
  { name := "partition", isSet := (·.partition.isSome), mayBeCutOff := false
    read := fun s => do return { s with partition := some (← word32) } }

/-- The field that holds the offset. -/
def offsetField : FieldParser PlaceFields :=
  { name := "offset", isSet := (·.offset.isSome), mayBeCutOff := false
    read := fun s => do return { s with offset := some (← word64) } }

/-- The two fields of a partition. -/
def partitionLayout : Layout PlaceFields Partition where
  typeName := "TopicPartition"
  fields := [topicField, partitionField]
  start := {}
  build s := do
    let topic ← required "topic" s.topic
    let index ← required "partition" s.partition
    return { topic, index }

/-- The three fields of a position. -/
def positionLayout : Layout PlaceFields Position where
  typeName := "RecordMetadata"
  fields := [topicField, partitionField, offsetField]
  start := {}
  build s := do
    let topic ← required "topic" s.topic
    let index ← required "partition" s.partition
    let offset ← required "offset" s.offset
    return { topic, index, offset }

/-- The JSON form of a partition. -/
def ofPartition (p : Partition) : Value :=
  .object [("topic", .string p.topic), ("partition", .number (.whole p.index))]

/-- The JSON form of a position. -/
def ofPosition (p : Position) : Value :=
  .object [("topic", .string p.topic), ("partition", .number (.whole p.index)),
    ("offset", .number (.whole p.offset))]

end Places

section Codecs

/-- Ids in JSON. -/
def idCodec : Codec CommandId := .json ofId readId

/-- Commands in JSON. -/
def commandCodec : Codec Command := .json ofCommand readCommand

/-- Texts in JSON. -/
def textCodec : Codec String := .json .string string

/-- Words of 64 bits in JSON. -/
def wordCodec : Codec Nat := .json (fun n => .number (.whole n)) word64

/-- Partitions in JSON. -/
def partitionCodec : Codec Partition := .json ofPartition partitionLayout.read

/-- Positions in JSON. -/
def positionCodec : Codec Position := .json ofPosition positionLayout.read

/-- Kinds in JSON. -/
def kindCodec : Codec Kind := .json (fun k => .string k.name) readKind

/-- Actions in JSON. -/
def actionCodec : Codec Action := .json (fun a => .string a.name) readAction

end Codecs

end JsonForm
end ReplicatedLog
