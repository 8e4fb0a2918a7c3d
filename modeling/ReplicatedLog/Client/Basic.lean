import ReplicatedLog.Command.Basic
import ReplicatedLog.Data.Progress
import ReplicatedLog.Log.Error
import ReplicatedLog.Log.Record

/-!
# Clients of a log

The command channel works over any log that can be reached through two handles,
one that appends commands and one that reads them back.  `Client σ` says what a
state `σ` has to offer for that.  Calls that may have to wait are operations of
the client's own types: an append until it is acknowledged, a poll, a question for
end offsets, and the closing of a handle.  Every call is told the time.
-/

namespace ReplicatedLog

/-- A record of the command log. -/
abbrev CommandRecord := Record CommandId Command

/-- The records of one poll of the command log. -/
abbrev CommandBatch := Batch CommandId Command

/-- The command of a record at its offset; a tombstone has none. -/
def CommandRecord.queued (r : CommandRecord) : Option QueuedCommand :=
  r.value.map fun command => ⟨r.key, command, some r.offset⟩

/-- The commands of a batch in order, without the tombstones. -/
def CommandBatch.commands (b : CommandBatch) : List QueuedCommand :=
  b.records.filterMap CommandRecord.queued

/-- One of the two handles of a client. -/
inductive Handle
  | reader
  | writer
  deriving DecidableEq, Repr

/-- The two handles of a log, in the state `σ`. -/
class Client (σ : Type) where
  /-- What a sender waits for. -/
  Wait : Type
  /-- A poll in progress. -/
  Poll : Type
  /-- A question for end offsets in progress. -/
  Query : Type
  /-- The closing of a handle in progress. -/
  Closing : Handle → Type
  /-- Appends a command to a partition. -/
  send (now : Nat) (s : σ) (p : Partition) (id : CommandId) (c : Command) : Wait × σ
  /-- The outcome of an append, once it is there. -/
  outcome (now : Nat) (s : σ) (w : Wait) : Option Outcome
  /-- When the clock alone brings the outcome. -/
  outcomeDue (w : Wait) : Option Nat
  /-- Assigns partitions to the reading handle. -/
  assign (now : Nat) (s : σ) (ps : List Partition) : Except LogError Unit × σ
  /-- Goes back to the first entry of partitions. -/
  seekToBeginning (now : Nat) (s : σ) (ps : List Partition) : Except LogError Unit × σ
  /-- A poll of which nothing has been done yet. -/
  startPoll (timeout : Nat) : Poll
  /-- One step of a poll. -/
  stepPoll (now : Nat) (s : σ) (p : Poll) : Progress Poll (Except LogError CommandBatch) × σ
  /-- Whether a poll has reason to go on. -/
  pollReady (now : Nat) (s : σ) (p : Poll) : Bool
  /-- When the clock alone lets a poll go on. -/
  pollDue (p : Poll) : Option Nat
  /-- A question for the end offsets of partitions, of which nothing has been done yet. -/
  startQuery (ps : List Partition) : Query
  /-- One step of a question. -/
  stepQuery (now : Nat) (s : σ) (q : Query) :
    Progress Query (Except LogError (SortedMap Partition Nat)) × σ
  /-- Whether a question has reason to go on. -/
  queryReady (now : Nat) (s : σ) (q : Query) : Bool
  /-- When the clock alone lets a question go on. -/
  queryDue (q : Query) : Option Nat
  /-- Ends the call in progress that waits, or the next one. -/
  wake (now : Nat) (s : σ) : σ
  /-- The closing of a handle, of which nothing has been done yet. -/
  startClosing (h : Handle) : Closing h
  /-- One step of a closing. -/
  stepClosing (h : Handle) (now : Nat) (s : σ) (c : Closing h) : Progress (Closing h) Unit × σ
  /-- Whether a closing has reason to go on. -/
  closingReady (h : Handle) (now : Nat) (s : σ) (c : Closing h) : Bool
  /-- When the clock alone lets a closing go on. -/
  closingDue (h : Handle) (c : Closing h) : Option Nat

end ReplicatedLog
