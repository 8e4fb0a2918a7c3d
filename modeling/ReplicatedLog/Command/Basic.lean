import ReplicatedLog.Command.Id
import ReplicatedLog.Data.SortedMap

/-!
# Commands

A command is a statement with properties that override the settings it runs
under.  In the log it is stored under its id; read back from there it carries its
offset as sequence number.
-/

namespace ReplicatedLog

/-- The properties of a command, by name. -/
abbrev Properties := SortedMap String String

/-- A statement and the properties it runs with. -/
structure Command where
  statement : String
  properties : Properties := ∅
  deriving DecidableEq

/-- The command with one more property, over one of that name. -/
def Command.withProperty (c : Command) (name value : String) : Command :=
  { c with properties := c.properties.insert name value }

/-- A command under its id, with its place in the log if it has one. -/
structure QueuedCommand where
  id : CommandId
  command : Command
  sequence : Option Nat := none
  deriving DecidableEq

/-- The command without its place in the log. -/
def QueuedCommand.withoutSequence (q : QueuedCommand) : QueuedCommand :=
  { q with sequence := none }

end ReplicatedLog
