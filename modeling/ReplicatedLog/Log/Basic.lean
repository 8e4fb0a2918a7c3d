import ReplicatedLog.Data.SortedMap
import ReplicatedLog.Log.Digest
import ReplicatedLog.Log.Error
import ReplicatedLog.Log.Settings

/-!
# The log

A log holds topics, a topic a fixed number of partitions, and a partition its
entries in the order of their arrival.  Entries are only ever added at the end.

* **Appending:** `Log.append` adds one entry and gives its position.  A topic
  that is not there yet is made with the default number of partitions.  An entry
  without a partition goes where the digest of its key sends it.
* **Failing on purpose:** rejections can be lined up with `Log.failNext`; each
  append takes one off the line and is rejected with it.
* **Acknowledging:** every append that lands has an acknowledgment in the ledger.
  It is resolved at once, or held back while `Log.hold` is in force, until
  `Log.release` resolves or `Log.abandon` drops what is held.
* **Reading:** `Log.read` shows a stretch of a partition.

`Log.appends` counts the appends that landed; a reader that has seen one count
and finds another knows that something was added.
-/

namespace ReplicatedLog

/-- An entry as the log stores it; without a value it is a tombstone. -/
structure Entry where
  key : Bytes
  value : Option Bytes
  deriving DecidableEq, Repr

/-- The number under which the ledger has an acknowledgment. -/
abbrev AckId := Nat

/-- What has become of an acknowledgment. -/
inductive Ack
  | outstanding
  | resolved (outcome : Outcome)
  | dropped

/-- A partitioned log. -/
structure Log where
  settings : Log.Settings := {}
  /-- The topics with the entries of their partitions. -/
  topics : SortedMap String (List (List Entry)) := ∅
  /-- The rejections lined up for the next appends. -/
  failures : List Rejection := []
  /-- Whether acknowledgments are held back. -/
  isHolding : Bool := false
  /-- The acknowledgments held back, in the order of their appends. -/
  held : List (AckId × Position) := []
  /-- What has become of every acknowledgment. -/
  ledger : Array Ack := #[]
  /-- How many appends have landed. -/
  appends : Nat := 0

namespace Log

section Looking

/-- The number of partitions of a topic. -/
def partitionCount (log : Log) (topic : String) : Option Nat :=
  (log.topics.get? topic).map List.length

/-- The entries of a partition. -/
def entries (log : Log) (p : Partition) : Option (List Entry) :=
  (log.topics.get? p.topic).bind (·[p.index]?)

/-- The offset that the next entry of a partition will get. -/
def endOffset (log : Log) (p : Partition) : Option Nat :=
  (log.entries p).map List.length

/-- The entries of a partition from an offset on, at most `max` of them. -/
def read (log : Log) (p : Partition) (start max : Nat) : Option (List Entry) :=
  (log.entries p).map fun es => (es.drop start).take max

end Looking

section Topics

/-- Makes a topic with at least one partition, unless there is one of that name; whether it was
made comes first. -/
def createTopic (log : Log) (topic : String) (partitions : Nat) : Bool × Log :=
  if log.topics.contains topic then (false, log)
  else (true, { log with
    topics := log.topics.insert topic (List.replicate (max partitions 1) []) })

/-- The log with the topic in it. -/
def ensureTopic (log : Log) (topic : String) : Log :=
  (log.createTopic topic log.settings.defaultPartitions).2

end Topics

section Appending

/-- Lines up a rejection. -/
def failNext (log : Log) (cause : Rejection) : Log :=
  { log with failures := log.failures ++ [cause] }

/-- The rejection of an append to a partition that the topic does not have. -/
def Rejection.notHosted (p : Partition) : Rejection where
  kind := "UnknownTopicOrPartition"
  reason := "This server does not host this topic-partition: " ++ p.text
  isActionable := false

/-- The partition that a key is sent to, of a topic with `count` partitions. -/
def partitionOfKey (key : Bytes) (count : Nat) : Nat :=
  (Digest.ofKey key).toNat % count

/-- Adds an entry at the end of one partition of a list of them. -/
def addEntry (e : Entry) : (index : Nat) → List (List Entry) → List (List Entry)
  | _, [] => []
  | 0, es :: rest => (es ++ [e]) :: rest
  | index + 1, es :: rest => es :: addEntry e index rest

/-- Appends an entry: its position, or the reason why it was not taken. -/
def append (log : Log) (topic : String) (index : Option Nat) (e : Entry) :
    Except Rejection Position × Log :=
  match log.failures with
  | cause :: later => (.error cause, { log with failures := later })
  | [] =>
      let log := log.ensureTopic topic
      let partitions := (log.topics.get? topic).getD []
      let index := index.getD (partitionOfKey e.key partitions.length)
      match partitions[index]? with
      | none => (.error (Rejection.notHosted ⟨topic, index⟩), log)
      | some es =>
          (.ok ⟨topic, index, es.length⟩,
            { log with
              topics := log.topics.insert topic (addEntry e index partitions)
              appends := log.appends + 1 })

end Appending

section Acknowledging

/-- From now on acknowledgments are held back. -/
def hold (log : Log) : Log :=
  { log with isHolding := true }

/-- Enters the acknowledgment of an append that landed: resolved, or held back. -/
def acknowledge (log : Log) (p : Position) : AckId × Log :=
  let id := log.ledger.size
  if log.isHolding then
    (id, { log with
      ledger := log.ledger.push .outstanding
      held := log.held ++ [(id, p)] })
  else (id, { log with ledger := log.ledger.push (.resolved (.ok p)) })

/-- Resolves everything that is held back, in order, and holds back no more; how many there were
comes first. -/
def release (log : Log) : Nat × Log :=
  (log.held.length,
    { log with
      isHolding := false
      held := []
      ledger := log.held.foldl (fun l (id, p) => l.modify id fun _ => .resolved (.ok p))
        log.ledger })

/-- Drops everything that is held back; how many there were comes first. -/
def abandon (log : Log) : Nat × Log :=
  (log.held.length,
    { log with
      held := []
      ledger := log.held.foldl (fun l (id, _) => l.modify id fun _ => .dropped) log.ledger })

end Acknowledging

section Waiting

/-- What the sender of an entry waits for. -/
inductive Wait
  /-- The outcome was known at once. -/
  | known (outcome : Outcome)
  /-- The acknowledgment with this number. -/
  | ack (id : AckId)

/-- The outcome of a wait, once it is there. -/
def outcome (log : Log) : Wait → Option Outcome
  | .known outcome => some outcome
  | .ack id =>
      match log.ledger[id]? with
      | some (.resolved outcome) => some outcome
      | some .dropped => some (.error .abandoned)
      | _ => none

end Waiting

end Log
end ReplicatedLog
