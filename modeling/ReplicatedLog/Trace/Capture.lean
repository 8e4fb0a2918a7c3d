import ReplicatedLog.Json.Value
import ReplicatedLog.Text.Parts
import ReplicatedLog.Text.Utf8

/-!
# Captured output

Output that is kept in memory instead of being shown.  It arrives in pieces, and
only the bytes put together count: `Capture.contents` is their text, with a
replacement character for what is no UTF-8, and `Capture.jsonLines` the values of
those lines that are JSON.
-/

namespace ReplicatedLog
namespace Trace

/-- The bytes written so far. -/
structure Capture where
  bytes : Bytes := []
  deriving DecidableEq

namespace Capture

/-- Adds a piece of output. -/
def write (c : Capture) (piece : Bytes) : Capture :=
  ⟨c.bytes ++ piece⟩

/-- Adds pieces of output in order. -/
def writeAll (c : Capture) (pieces : List Bytes) : Capture :=
  ⟨c.bytes ++ pieces.flatten⟩

/-- The text of everything written. -/
def contents (c : Capture) : String :=
  String.ofList (Utf8.decodeLossy c.bytes)

/-- The value of a line, if it is JSON. -/
def valueOfLine (line : List Char) : Option Json.Value :=
  match Json.decode Json.Value.read (Bytes.ofString (String.ofList line)) with
  | .ok v => some v
  | .error _ => none

/-- The values of the lines that are JSON. -/
def jsonLines (c : Capture) : List Json.Value :=
  (Text.lines c.contents.toList).filterMap valueOfLine

/-- Forgets everything written. -/
def clear (_ : Capture) : Capture := {}

end Capture

end Trace
end ReplicatedLog
