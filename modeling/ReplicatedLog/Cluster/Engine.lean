import ReplicatedLog.Runner.Basic

/-!
# The engine

A small state machine that commands drive.  It keeps the live entities with the
statements that define them, the statements it was told to execute, and how far
into the log it has come.

A termination and an `execute` note the statement, a `create` defines the entity
anew, and a `drop` removes it and fails if it is not there.  A failed command
counts as seen.
-/

namespace ReplicatedLog

/-- The state that commands have brought about. -/
structure Engine where
  /-- The live entities, by kind and name, with their defining statements. -/
  entities : SortedMap String String := ∅
  /-- The statements executed, in order. -/
  executed : List String := []
  /-- The offset of the last command that had one. -/
  appliedThrough : Option Nat := none
  deriving DecidableEq

namespace Engine

/-- The key of an entity. -/
def entityKey (id : CommandId) : String :=
  id.kind.name ++ "/" ++ id.entity

/-- The failure to drop what is not there. -/
def missing (key : String) : String :=
  key ++ " does not exist"

/-- Executes a command. -/
def execute (e : Engine) (q : QueuedCommand) : Verdict × Engine :=
  let key := entityKey q.id
  let statement := q.command.statement
  let e := { e with appliedThrough := q.sequence.or e.appliedThrough }
  let noted := { e with executed := e.executed ++ [statement] }
  match q.id.kind, q.id.action with
  | .terminate, _ => (.succeeded, noted)
  | _, .execute => (.succeeded, noted)
  | _, .create => (.succeeded, { e with entities := e.entities.insert key statement })
  | _, .drop =>
      if e.entities.contains key then
        (.succeeded, { e with entities := e.entities.erase key })
      else (.failed (missing key), e)

/-- The state after commands in order, from a given state. -/
def run (e : Engine) (qs : List QueuedCommand) : Engine :=
  qs.foldl (fun e q => (e.execute q).2) e

end Engine

/-- An engine executes commands without delay. -/
instance : Executor Engine where
  delay _ _ := 0
  execute := Engine.execute

end ReplicatedLog
