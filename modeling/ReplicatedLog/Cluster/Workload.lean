import ReplicatedLog.Command.Basic

/-!
# A synthetic workload

A sequence of commands without end.  In every seven, five create a stream, one
inserts into the stream created just before it, and one drops the stream created
three commands earlier.
-/

namespace ReplicatedLog
namespace Workload

/-- The kind, entity, action and statement of the command with the given index. -/
def parts (index : Nat) : Kind × String × Action × String :=
  let number := fun (n : Nat) => toString n
  match index % 7 with
  | 5 =>
      (.stream, "insert_" ++ number index, .execute,
        "INSERT INTO s" ++ number (index - 1) ++ " (id) VALUES (" ++ number index ++ ");")
  | 6 =>
      (.stream, "s" ++ number (index - 3), .drop, "DROP STREAM s" ++ number (index - 3) ++ ";")
  | _ =>
      (.stream, "s" ++ number index, .create,
        "CREATE STREAM s" ++ number index ++ " (id INT) WITH (kafka_topic='s"
          ++ number index ++ "');")

/-- The command with the given index. -/
def command (index : Nat) : Except IdError (CommandId × Command) := do
  let (kind, entity, action, statement) := parts index
  let id ← CommandId.make kind entity action
  return (id, ({ statement } : Command).withProperty "auto.offset.reset" "earliest")

/-- How many streams the first `count` commands create. -/
def created (count : Nat) : Nat :=
  (List.range count).countP fun i => decide (i % 7 < 5)

/-- How many streams the first `count` commands drop. -/
def dropped (count : Nat) : Nat :=
  (List.range count).countP fun i => i % 7 == 6

/-- How many entities are live after the first `count` commands. -/
def expectedEntities (count : Nat) : Nat :=
  created count - dropped count

end Workload
end ReplicatedLog
