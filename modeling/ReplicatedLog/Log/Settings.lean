import ReplicatedLog.Json.Value

/-!
# Settings of a log

How many partitions a topic gets that an append brings into being, and how many
records one poll may return.  The two updates raise their argument to at least
one; a document is taken as it stands.
-/

namespace ReplicatedLog

/-- The settings of a log. -/
structure Log.Settings where
  defaultPartitions : Nat := 1
  maxPollRecords : Nat := 500
  deriving DecidableEq, Repr

namespace Log.Settings

/-- Sets the partition count of topics that appends bring into being. -/
def withDefaultPartitions (s : Settings) (n : Nat) : Settings :=
  { s with defaultPartitions := max n 1 }

/-- Sets the most records that one poll returns. -/
def withMaxPollRecords (s : Settings) (n : Nat) : Settings :=
  { s with maxPollRecords := max n 1 }

section Json

open Json

/-- The settings that have been read. -/
structure Fields where
  defaultPartitions : Option Nat := none
  maxPollRecords : Option Nat := none

/-- The two fields of the settings. -/
def layout : Layout Fields Settings where
  typeName := "MemoryLogConfig"
  fields :=
    [ { name := "default_partitions", isSet := (·.defaultPartitions.isSome), mayBeCutOff := false
        read := fun s => do return { s with defaultPartitions := some (← word32) } },
      { name := "max_poll_records", isSet := (·.maxPollRecords.isSome), mayBeCutOff := false
        read := fun s => do return { s with maxPollRecords := some (← count) } } ]
  start := {}
  build s := do
    let defaultPartitions ← required "default_partitions" s.defaultPartitions
    let maxPollRecords ← required "max_poll_records" s.maxPollRecords
    return { defaultPartitions, maxPollRecords }

/-- The JSON form of the settings. -/
def toJson (s : Settings) : Value :=
  .object [("default_partitions", .number (.whole s.defaultPartitions)),
    ("max_poll_records", .number (.whole s.maxPollRecords))]

/-- Reads settings from a document. -/
def ofJson (document : Bytes) : Except Json.Error Settings :=
  decode layout.read document

end Json

end Log.Settings
end ReplicatedLog
