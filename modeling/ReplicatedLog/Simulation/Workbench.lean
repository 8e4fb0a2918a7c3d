import ReplicatedLog.Cluster.Engine

/-!
# Engines on a workbench

A workbench puts an engine under observation.  Before each command it may wait; it
may reject statements and break down on one; what it has been handed is noted with
its outcome.  A workbench without any of that executes exactly as its engine does.
-/

namespace ReplicatedLog

/-- What a workbench notes about a command. -/
structure Workbench.Note where
  sequence : Option Nat
  id : CommandId
  succeeded : Bool
  deriving DecidableEq

/-- An engine under observation. -/
structure Workbench where
  /-- The time before each command, in ticks of the clock. -/
  delay : Nat := 0
  /-- The statements that are rejected. -/
  rejects : List String := []
  /-- The statement on which the workbench breaks down. -/
  breaksOn : Option String := none
  engine : Engine := {}
  /-- The commands handed over, the latest first. -/
  notes : List Workbench.Note := []

namespace Workbench

/-- The workbench with one more note. -/
def note (b : Workbench) (q : QueuedCommand) (succeeded : Bool) : Workbench :=
  { b with notes := ⟨q.sequence, q.id, succeeded⟩ :: b.notes }

/-- Executes a command, unless it is one to break down on or to reject. -/
def execute (b : Workbench) (q : QueuedCommand) : Verdict × Workbench :=
  let statement := q.command.statement
  if b.breaksOn = some statement then (.brokeDown, b)
  else if statement ∈ b.rejects then (.failed "rejected", b.note q false)
  else
    match b.engine.execute q with
    | (.succeeded, engine) => (.succeeded, { b with engine }.note q true)
    | (verdict, engine) => (verdict, { b with engine }.note q false)

end Workbench

instance : Executor Workbench where
  delay b _ := b.delay
  execute := Workbench.execute

end ReplicatedLog
