import ReplicatedLog.Log.Partition

/-!
# Records and batches

A record is an entry as a reader sees it: decoded, with its place.  A record
without a value is a tombstone.  A batch is what one poll brings, in order of
arrival.
-/

namespace ReplicatedLog

/-- A decoded entry with its place. -/
structure Record (κ ν : Type) where
  partition : Partition
  offset : Nat
  key : κ
  value : Option ν
  deriving DecidableEq

/-- Whether the record deletes its key. -/
def Record.isTombstone {κ ν : Type} (r : Record κ ν) : Bool :=
  r.value.isNone

/-- The records of one poll. -/
structure Batch (κ ν : Type) where
  records : List (Record κ ν)
  deriving DecidableEq

namespace Batch

variable {κ ν : Type}

/-- The batch without records. -/
def empty : Batch κ ν := ⟨[]⟩

/-- Whether the batch has no record. -/
def isEmpty (b : Batch κ ν) : Bool := b.records.isEmpty

/-- The number of records. -/
def size (b : Batch κ ν) : Nat := b.records.length

/-- The records of one partition, in order. -/
def ofPartition (b : Batch κ ν) (p : Partition) : List (Record κ ν) :=
  b.records.filter fun r => r.partition = p

/-- The highest offset of the batch. -/
def lastOffset (b : Batch κ ν) : Option Nat :=
  (b.records.map Record.offset).max?

end Batch

end ReplicatedLog
