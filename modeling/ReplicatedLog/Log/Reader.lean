import ReplicatedLog.Data.Progress
import ReplicatedLog.Log.Basic
import ReplicatedLog.Log.Record
import ReplicatedLog.Log.Writer

/-!
# Readers

A reader has partitions assigned to it and keeps, for each, the offset it will
read next.

* **Fetching:** `Reader.fetch` decodes what lies past the positions, partition by
  partition in their order, up to the limit of the log.  The positions move only
  when everything could be decoded.
* **Polling:** a `Poll` fetches until something is there or its time is up.  While
  it waits it has noted how many appends and how many wakeups there have been, and
  goes on as soon as either count has changed or its deadline has come.
* **Waking:** a wakeup ends the poll in progress or, if there is none, the next
  call; it stays pending until a call has taken it.
-/

namespace ReplicatedLog

/-- A handle that reads from a log. -/
structure Reader where
  /-- The next offset of each assigned partition. -/
  positions : SortedMap Partition Nat := ∅
  /-- Whether a wakeup is pending. -/
  isWoken : Bool := false
  /-- How often waiting polls have been called on to look again. -/
  calls : Nat := 0
  isClosed : Bool := false

namespace Reader

section Assignment

/-- The assigned partitions in order. -/
def assignment (r : Reader) : List Partition :=
  r.positions.keys

/-- The next offset of a partition, if it is assigned. -/
def position (r : Reader) (p : Partition) : Option Nat :=
  r.positions.get? p

/-- Assigns exactly the given partitions; one that was assigned keeps its position and a new one
starts at zero. -/
def assign (r : Reader) (ps : List Partition) : Except LogError Unit × Reader :=
  if r.isClosed then (.error .closed, r)
  else (.ok (), { r with
    positions := ps.foldl (fun m p => m.insert p ((r.position p).getD 0)) ∅ })

/-- Sets positions to zero one by one, up to the first partition that is not assigned. -/
def rewind : List Partition → SortedMap Partition Nat →
    Except LogError Unit × SortedMap Partition Nat
  | [], m => (.ok (), m)
  | p :: ps, m =>
      if m.contains p then rewind ps (m.insert p 0) else (.error (.notAssigned p), m)

/-- Goes back to the first entry of the given partitions. -/
def seekToBeginning (r : Reader) (ps : List Partition) : Except LogError Unit × Reader :=
  if r.isClosed then (.error .closed, r)
  else
    let (result, positions) := rewind ps r.positions
    (result, { r with positions })

end Assignment

section Waking

/-- Ends the call in progress or the next one. -/
def wake (r : Reader) : Reader :=
  { r with isWoken := true, calls := r.calls + 1 }

/-- Closes the reader; waiting polls look again. -/
def close (r : Reader) : Reader :=
  if r.isClosed then r else { r with isClosed := true, calls := r.calls + 1 }

/-- Fails on a closed reader and on a pending wakeup, which is taken. -/
def ensureUsable (r : Reader) : Except LogError Unit × Reader :=
  if r.isClosed then (.error .closed, r)
  else if r.isWoken then (.error .wakeup, { r with isWoken := false })
  else (.ok (), r)

end Waking

section Fetching

variable {κ ν : Type}

/-- Decodes one entry, the key first. -/
def decodeEntry (schema : Schema κ ν) (p : Partition) (offset : Nat) (e : Entry) :
    Except LogError (Record κ ν) := do
  let key ← (schema.key.decode e.key).mapError LogError.codec
  match e.value with
  | none => return ⟨p, offset, key, none⟩
  | some v =>
      let v ← (schema.value.decode v).mapError LogError.codec
      return ⟨p, offset, key, some v⟩

/-- Decodes entries that follow one another from an offset on. -/
def decodeEntries (schema : Schema κ ν) (p : Partition) :
    (offset : Nat) → List Entry → Except LogError (List (Record κ ν))
  | _, [] => .ok []
  | offset, e :: es => do
      let r ← decodeEntry schema p offset e
      let rs ← decodeEntries schema p (offset + 1) es
      return r :: rs

/-- What a scan of partitions has found: records, and the positions behind them. -/
structure Found (κ ν : Type) where
  records : List (Record κ ν)
  moved : List (Partition × Nat)

/-- Reads past the positions while there is room.  A topic that is not there yet has nothing to
read; a partition that its topic does not have is an error. -/
def scan (schema : Schema κ ν) (log : Log) :
    (room : Nat) → List (Partition × Nat) → Except LogError (Found κ ν)
  | _, [] => .ok ⟨[], []⟩
  | room, (p, position) :: rest =>
      if room = 0 then .ok ⟨[], []⟩
      else
        match log.read p position room with
        | none =>
            if (log.partitionCount p.topic).isNone then scan schema log room rest
            else .error (.unknownPartition p)
        | some es => do
            let rs ← decodeEntries schema p position es
            let found ← scan schema log (room - es.length) rest
            return ⟨rs ++ found.records,
              if es.isEmpty then found.moved
              else (p, position + es.length) :: found.moved⟩

/-- Decodes what is there past the positions, and moves them behind it. -/
def fetch (schema : Schema κ ν) (log : Log) (r : Reader) :
    Except LogError (Batch κ ν) × Reader :=
  match scan schema log log.settings.maxPollRecords r.positions.entries with
  | .error e => (.error e, r)
  | .ok found =>
      (.ok ⟨found.records⟩,
        { r with positions := found.moved.foldl (fun m e => m.insert e.1 e.2) r.positions })

end Fetching

section Ends

/-- The end offsets of partitions, or the first partition that the log does not have. -/
def endOffsetsOf (log : Log) (ps : List Partition) :
    Except LogError (SortedMap Partition Nat) :=
  ps.foldlM
    (fun m p =>
      match log.endOffset p with
      | some n => .ok (m.insert p n)
      | none => .error (.unknownPartition p))
    ∅

/-- The end offsets of partitions, on a reader that can be used. -/
def endOffsets (log : Log) (r : Reader) (ps : List Partition) :
    Except LogError (SortedMap Partition Nat) × Reader :=
  match r.ensureUsable with
  | (.error e, r) => (.error e, r)
  | (.ok (), r) => (endOffsetsOf log ps, r)

end Ends

section Polling

/-- The counts of appends and of calls that a waiting poll has seen. -/
structure Seen where
  appends : Nat
  calls : Nat
  deriving DecidableEq, Repr

/-- A poll. -/
inductive Poll
  /-- Nothing has been done yet. -/
  | started (timeout : Nat)
  /-- Nothing was there. -/
  | parked (deadline : Nat) (seen : Seen)
  deriving DecidableEq, Repr

/-- The counts as they are now. -/
def seenNow (log : Log) (r : Reader) : Seen :=
  ⟨log.appends, r.calls⟩

variable {κ ν : Type}

/-- Fetches once, and waits if there is nothing and time is left. -/
def attempt (schema : Schema κ ν) (now : Nat) (log : Log) (r : Reader) (deadline : Nat) :
    Progress Poll (Except LogError (Batch κ ν)) × Reader :=
  let seen := seenNow log r
  match r.fetch schema log with
  | (.error e, r) => (.done (.error e), r)
  | (.ok batch, r) =>
      if !batch.isEmpty then (.done (.ok batch), r)
      else
        match r.ensureUsable with
        | (.error e, r) => (.done (.error e), r)
        | (.ok (), r) =>
            if deadline ≤ now then (.done (.ok batch), r)
            else (.waiting (.parked deadline seen), r)

/-- One step of a poll. -/
def stepPoll (schema : Schema κ ν) (now : Nat) (log : Log) (r : Reader) :
    Poll → Progress Poll (Except LogError (Batch κ ν)) × Reader
  | .started timeout =>
      match r.ensureUsable with
      | (.error e, r) => (.done (.error e), r)
      | (.ok (), r) => attempt schema now log r (now + timeout)
  | .parked deadline _ => attempt schema now log r deadline

/-- Whether a poll has reason to go on. -/
def pollReady (now : Nat) (log : Log) (r : Reader) : Poll → Bool
  | .started _ => true
  | .parked deadline seen => seen ≠ seenNow log r || deadline ≤ now

/-- When the clock alone lets a poll go on. -/
def pollDue : Poll → Option Nat
  | .started _ => none
  | .parked deadline _ => some deadline

end Polling

end Reader
end ReplicatedLog
