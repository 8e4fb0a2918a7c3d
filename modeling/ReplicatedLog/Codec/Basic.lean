import ReplicatedLog.Binary.Wire
import ReplicatedLog.Json.Value

/-!
# Codecs

A codec turns values into the bytes that a log stores, and back.  Either way may
fail; what is kept of the failure is its direction and its text, since a client
of the log may bring a codec of its own.
-/

namespace ReplicatedLog

/-- The two directions of a codec. -/
inductive Direction
  | encoding
  | decoding
  deriving DecidableEq, Repr

/-- A failure of a codec. -/
structure CodecError where
  direction : Direction
  reason : String
  deriving DecidableEq, Repr

namespace CodecError

/-- The wording of a codec failure. -/
def message (e : CodecError) : String :=
  match e.direction with
  | .encoding => "Serialization error: " ++ e.reason
  | .decoding => "Deserialization error: " ++ e.reason

/-- A document that is not the wanted value. -/
def ofJson (e : Json.Error) : CodecError :=
  ⟨.decoding, e.message⟩

/-- A reader or writer that broke down counts as a failure to encode. -/
def ofTransport (reason : String) : CodecError :=
  ⟨.encoding, reason⟩

/-- A fault of the binary format, on the side where it arises. -/
def ofBinary (fault : Binary.Fault) : CodecError :=
  ⟨if fault.inWriting then .encoding else .decoding, fault.message⟩

end CodecError

/-- The two directions between values and bytes. -/
structure Codec (α : Type) where
  encode : α → Except CodecError Bytes
  decode : Bytes → Except CodecError α

namespace Codec

/-- A codec that writes JSON. -/
def json {α : Type} (write : α → Json.Value) (read : Json.Parser α) : Codec α where
  encode a := .ok (write a).render
  decode bytes := (Json.decode read bytes).mapError CodecError.ofJson

/-- A codec that writes the binary format. -/
def binary {α : Type} (write : α → Bytes) (read : Binary.Parser α) : Codec α where
  encode a := .ok (write a)
  decode bytes := (Binary.decode read bytes).mapError CodecError.ofBinary

end Codec

end ReplicatedLog
