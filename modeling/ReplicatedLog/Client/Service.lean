import ReplicatedLog.Client.Basic

/-!
# A scripted log service

A log service that answers from queues, one element per call, and keeps account
of the calls.  It stands for any service outside: whatever results a client's
calls may bring, in whatever order, can be lined up here.

* An append is acknowledged as its script says: at once, after a delay, never, or
  not at all because the sender is dropped; without a script, at once at offset
  zero.
* A poll returns records or an error at once, waits until it is woken, or, without
  a script, waits for its timeout and returns nothing.  A poll that waits fails
  when a wakeup is pending and takes it.
* Assigning and seeking succeed unless an error is lined up; end offsets are those
  lined up, or none.  Neither they nor the closing of a handle have to be waited for.
-/

namespace ReplicatedLog
namespace Service

section Scripts

/-- The script of an acknowledgment. -/
inductive AckScript
  /-- The outcome, after a delay. -/
  | outcome (delay : Nat) (o : Outcome)
  /-- The append succeeds at an offset of the record's own topic, after a delay. -/
  | offset (delay : Nat) (topic : Option String) (index offset : Nat)
  /-- The outcome never comes. -/
  | never
  /-- The sender is dropped. -/
  | dropped

/-- The script of a poll. -/
inductive PollScript
  | records (b : CommandBatch)
  | error (e : LogError)
  /-- Wait until woken. -/
  | block

/-- The queues from which the service answers. -/
structure Script where
  acks : List AckScript := []
  assigns : List (Option LogError) := []
  seeks : List (Option LogError) := []
  polls : List PollScript := []
  ends : List (Except LogError (List (Partition × Nat))) := []

/-- A call as the service has seen it. -/
inductive Seen
  | send (time : Nat) (p : Partition) (id : CommandId) (c : Command)
  | assign (time : Nat) (ps : List Partition)
  | seek (time : Nat) (ps : List Partition)
  | poll (time timeout : Nat)
  | endOffsets (time : Nat) (ps : List Partition)
  | wake (time : Nat)
  | closeReader (time : Nat)
  | closeWriter

end Scripts

end Service

/-- A scripted log service. -/
structure Service where
  script : Service.Script := {}
  /-- The calls so far, the latest first. -/
  seen : List Service.Seen := []
  isWoken : Bool := false

namespace Service

/-- Enters a call. -/
def note (s : Service) (call : Seen) : Service :=
  { s with seen := call :: s.seen }

/-- What a sender waits for: an outcome that is there from some time on, or none. -/
inductive Wait
  | at (time : Nat) (o : Outcome)
  | never

/-- A poll of the service. -/
inductive Poll
  | started (timeout : Nat)
  /-- Waiting for a wakeup, or for the deadline if there is one. -/
  | parked (deadline : Option Nat)

section Calls

/-- Answers an append. -/
def send (now : Nat) (s : Service) (p : Partition) (id : CommandId) (c : Command) :
    Wait × Service :=
  let s := s.note (.send now p id c)
  match s.script.acks with
  | [] => (.at now (.ok ⟨p.topic, 0, 0⟩), s)
  | a :: acks =>
      let s := { s with script := { s.script with acks } }
      match a with
      | .outcome delay o => (.at (now + delay) o, s)
      | .offset delay topic index offset =>
          (.at (now + delay) (.ok ⟨topic.getD p.topic, index, offset⟩), s)
      | .never => (.never, s)
      | .dropped => (.at now (.error .abandoned), s)

/-- Succeeds unless an error is lined up. -/
def orFail : List (Option LogError) → Except LogError Unit × List (Option LogError)
  | [] => (.ok (), [])
  | none :: rest => (.ok (), rest)
  | some e :: rest => (.error e, rest)

/-- Answers an assignment. -/
def assign (now : Nat) (s : Service) (ps : List Partition) : Except LogError Unit × Service :=
  let (result, assigns) := orFail s.script.assigns
  (result, { s.note (.assign now ps) with script := { s.script with assigns } })

/-- Answers a seek. -/
def seek (now : Nat) (s : Service) (ps : List Partition) : Except LogError Unit × Service :=
  let (result, seeks) := orFail s.script.seeks
  (result, { s.note (.seek now ps) with script := { s.script with seeks } })

/-- Answers a question for end offsets. -/
def endOffsets (now : Nat) (s : Service) (ps : List Partition) :
    Except LogError (SortedMap Partition Nat) × Service :=
  let s := s.note (.endOffsets now ps)
  match s.script.ends with
  | [] => (.ok ∅, s)
  | e :: ends =>
      (e.map SortedMap.ofList, { s with script := { s.script with ends } })

/-- Closes a handle. -/
def close (now : Nat) (s : Service) : Handle → Service
  | .reader => s.note (.closeReader now)
  | .writer => s.note .closeWriter

/-- Goes on with a poll that waits. -/
def resume (now : Nat) (s : Service) (deadline : Option Nat) :
    Progress Poll (Except LogError CommandBatch) × Service :=
  if s.isWoken then (.done (.error .wakeup), { s with isWoken := false })
  else if deadline.any (· ≤ now) then (.done (.ok .empty), s)
  else (.waiting (.parked deadline), s)

/-- One step of a poll. -/
def stepPoll (now : Nat) (s : Service) :
    Poll → Progress Poll (Except LogError CommandBatch) × Service
  | .started timeout =>
      let s := s.note (.poll now timeout)
      match s.script.polls with
      | [] => s.resume now (some (now + timeout))
      | p :: polls =>
          let s := { s with script := { s.script with polls } }
          match p with
          | .records b => (.done (.ok b), s)
          | .error e => (.done (.error e), s)
          | .block => s.resume now none
  | .parked deadline => s.resume now deadline

end Calls

end Service

instance : Client Service where
  Wait := Service.Wait
  Poll := Service.Poll
  Query := List Partition
  Closing _ := Unit
  send := Service.send
  outcome now _ w :=
    match w with
    | .at time o => if time ≤ now then some o else none
    | .never => none
  outcomeDue w :=
    match w with
    | .at time _ => some time
    | .never => none
  assign := Service.assign
  seekToBeginning := Service.seek
  startPoll timeout := .started timeout
  stepPoll := Service.stepPoll
  pollReady now s p :=
    match p with
    | .started _ => true
    | .parked deadline => s.isWoken || deadline.any (· ≤ now)
  pollDue p :=
    match p with
    | .started _ => none
    | .parked deadline => deadline
  startQuery ps := ps
  stepQuery now s ps :=
    let (result, s) := s.endOffsets now ps
    (.done result, s)
  queryReady _ _ _ := true
  queryDue _ := none
  wake now s := { s.note (.wake now) with isWoken := true }
  startClosing _ := ()
  stepClosing h now s _ := (.done (), s.close now h)
  closingReady _ _ _ _ := true
  closingDue _ _ := none

end ReplicatedLog
