/-!
# Faults of the binary format

What the compact binary format can refuse, when writing and when reading, with
the wording of each.
-/

namespace ReplicatedLog
namespace Binary

/-- A fault of the binary format. -/
inductive Fault
  /-- A feature that will never be there. -/
  | neverSupported
  /-- A feature that is not there yet. -/
  | notYetSupported
  | bufferFull
  | unknownLength
  | unexpectedEnd
  | badVarint
  | badTruth
  | badCharacter
  | badText
  | badOption
  | badVariant
  | badEncoding
  | badChecksum
  /-- A value that refuses to be written. -/
  | refusedToWrite
  /-- Bytes that a type refuses to be made of. -/
  | refusedToRead
  /-- A text that could not be collected. -/
  | badCollection
  deriving DecidableEq, Repr

/-- The wording of a fault. -/
def Fault.message : Fault → String
  | neverSupported => "This is a feature that PostCard will never implement"
  | notYetSupported =>
      "This is a feature that Postcard intends to support, but does not yet"
  | bufferFull => "The serialize buffer is full"
  | unknownLength => "The length of a sequence must be known"
  | unexpectedEnd => "Hit the end of buffer, expected more data"
  | badVarint =>
      "Found a varint that didn't terminate. Is the usize too big for this platform?"
  | badTruth => "Found a bool that wasn't 0 or 1"
  | badCharacter => "Found an invalid unicode char"
  | badText => "Tried to parse invalid utf-8"
  | badOption => "Found an Option discriminant that wasn't 0 or 1"
  | badVariant => "Found an enum discriminant that was > u32::max_value()"
  | badEncoding => "The original data was not well encoded"
  | badChecksum => "Bad CRC while deserializing"
  | refusedToWrite => "Serde Serialization Error"
  | refusedToRead => "Serde Deserialization Error"
  | badCollection => "Error while processing `collect_str` during serialization"

/-- Whether the fault arises in writing. -/
def Fault.inWriting : Fault → Bool
  | bufferFull | unknownLength | refusedToWrite => true
  | _ => false

end Binary
end ReplicatedLog
