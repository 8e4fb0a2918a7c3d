import ReplicatedLog.Text.Decimal
import ReplicatedLog.Text.Parts

/-!
# Levels

How grave an event is, and how far down a listener wants to hear.  A threshold
admits the levels from the gravest down to its own, or none at all; it is written
as a name in any ASCII case or as a number from 0 to 5, and the empty text stands
for the gravest level alone.
-/

namespace ReplicatedLog
namespace Trace

/-- How grave an event is, the gravest first. -/
inductive Level
  | error
  | warn
  | info
  | debug
  | trace
  deriving DecidableEq, Repr

namespace Level

/-- The place of a level, counted from one. -/
def rank : Level → Nat
  | error => 1
  | warn => 2
  | info => 3
  | debug => 4
  | trace => 5

/-- The name of a level in lines. -/
def name : Level → String
  | error => "ERROR"
  | warn => "WARN"
  | info => "INFO"
  | debug => "DEBUG"
  | trace => "TRACE"

/-- The levels in order. -/
def all : List Level := [error, warn, info, debug, trace]

end Level

/-- How far down a listener wants to hear. -/
inductive Threshold
  | off
  | upTo (l : Level)
  deriving DecidableEq, Repr

namespace Threshold

/-- The number of a threshold. -/
def rank : Threshold → Nat
  | off => 0
  | upTo l => l.rank

/-- Whether a level is heard. -/
def admits (t : Threshold) (l : Level) : Bool :=
  l.rank ≤ t.rank

/-- The thresholds in order. -/
def all : List Threshold := off :: Level.all.map upTo

/-- The name of a threshold. -/
def name : Threshold → String
  | off => "off"
  | upTo l => l.name

/-- The threshold with a number. -/
def ofRank? (n : Nat) : Option Threshold :=
  all.find? fun t => t.rank = n

/-- The threshold with a name in any ASCII case. -/
def ofName? (text : List Char) : Option Threshold :=
  all.find? fun t => Text.lowerCase t.name.toList = Text.lowerCase text

/-- Reads a threshold. -/
def parse? (text : List Char) : Option Threshold :=
  if text.isEmpty then some (upTo .error)
  else ((Text.readNatUpTo Text.maxWord64 text).bind ofRank?).or (ofName? text)

end Threshold

end Trace
end ReplicatedLog
