import ReplicatedLog.Codec.Basic
import ReplicatedLog.Command.Basic
import ReplicatedLog.Log.Partition

/-!
# Binary forms

How the values that travel through the log look in the compact binary format:
the fields of a structure in order, one behind the other.  An id whose entity
cannot be one is refused.
-/

namespace ReplicatedLog
namespace BinaryForm

open Binary

section Ids

/-- The binary form of a kind. -/
def ofKind (k : Kind) : Bytes := varint k.index

/-- The binary form of an action. -/
def ofAction (a : Action) : Bytes := varint a.index

/-- Reads a kind. -/
def readKind : Parser Kind := readChoice Kind.all

/-- Reads an action. -/
def readAction : Parser Action := readChoice Action.all

/-- The binary form of the three parts of an id. -/
def ofParts (kind : Kind) (entity : String) (action : Action) : Bytes :=
  ofKind kind ++ text entity ++ ofAction action

/-- The binary form of an id. -/
def ofId (id : CommandId) : Bytes :=
  ofParts id.kind id.entity id.action

/-- Reads an id. -/
def readId : Parser CommandId := do
  let kind ← readKind
  let entity ← readText
  let action ← readAction
  match CommandId.make kind entity action with
  | .ok id => return id
  | .error _ => throw .refusedToRead

end Ids

section Commands

/-- The binary form of a command. -/
def ofCommand (c : Command) : Bytes :=
  text c.statement ++ entries c.properties.entries

/-- Reads a command. -/
def readCommand : Parser Command := do
  let statement ← readText
  let count ← readWord64
  let properties ← readEntries SortedMap.insert count ∅
  return { statement, properties }

end Commands

section Places

/-- The binary form of a partition. -/
def ofPartition (p : Partition) : Bytes :=
  text p.topic ++ varint p.index

/-- Reads a partition. -/
def readPartition : Parser Partition := do
  let topic ← readText
  let index ← readWord32
  return { topic, index }

/-- The binary form of a position. -/
def ofPosition (p : Position) : Bytes :=
  text p.topic ++ varint p.index ++ varint p.offset

/-- Reads a position. -/
def readPosition : Parser Position := do
  let topic ← readText
  let index ← readWord32
  let offset ← readWord64
  return { topic, index, offset }

end Places

section Codecs

/-- Ids in the binary format. -/
def idCodec : Codec CommandId := .binary ofId readId

/-- Commands in the binary format. -/
def commandCodec : Codec Command := .binary ofCommand readCommand

/-- Texts in the binary format. -/
def textCodec : Codec String := .binary text readText

/-- Words of 64 bits in the binary format. -/
def wordCodec : Codec Nat := .binary varint readWord64

/-- Partitions in the binary format. -/
def partitionCodec : Codec Partition := .binary ofPartition readPartition

/-- Positions in the binary format. -/
def positionCodec : Codec Position := .binary ofPosition readPosition

/-- Kinds in the binary format. -/
def kindCodec : Codec Kind := .binary ofKind readKind

/-- Actions in the binary format. -/
def actionCodec : Codec Action := .binary ofAction readAction

end Codecs

end BinaryForm
end ReplicatedLog
