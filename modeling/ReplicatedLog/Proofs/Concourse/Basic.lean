import ReplicatedLog.Proofs.Desk.Pace
import ReplicatedLog.Proofs.Dispatch.Basic
import Mathlib.Logic.Function.Basic

/-!
# Channels and readers side by side

Any number of channels and of readers that belong to no channel use one log, and so does anybody
else who creates topics, appends, or holds acknowledgments back.

* `Stand` is a reader with the polls in progress, and `Booth` a channel with the calls in progress:
  those that stand in line for its reader, and those that do not need it;
* `Concourse` has them all on one log and beside one clock; `Concourse.run` makes any moves in their
  order, and a move that cannot be made changes nothing;
* `chronicle` is what one channel is asked and what arrives in its partition, with the times, and
  `answers` what its polls and replays bring;
* `isPrompt`: the clock does not go on while a call of that channel has reason to.

A move is a whole step of a call or a poll, up to the point at which it waits, so that what arrives
in a partition arrives before a step or after it.  The accesses within one are those of `Exchange`.
-/

namespace ReplicatedLog

open Channel

/-- A reader that belongs to no channel, with the polls in progress. -/
structure Stand : Type 1 where
  Key : Type
  Value : Type
  schema : Schema Key Value
  reader : Reader := {}
  polls : TaskId → Option Reader.Poll := fun _ => none
  /-- The number for a new task. -/
  next : TaskId := 0

namespace Stand

/-- What can be done with a reader. -/
inductive Move
  | assign (ps : List Partition)
  | seek (ps : List Partition)
  /-- A new task begins a poll with its first step. -/
  | poll (timeout : Nat)
  | step (task : TaskId)
  | leave (task : TaskId)
  | endOffsets (ps : List Partition)
  | wake
  | close

/-- The reader after a step of a poll. -/
def advance (now : Nat) (log : Log) (s : Stand) (task : TaskId) (p : Reader.Poll) : Stand :=
  let (progress, reader) := s.reader.stepPoll s.schema now log p
  { s with reader, polls := Function.update s.polls task progress.rest }

/-- The reader after a move. -/
def perform (now : Nat) (log : Log) (s : Stand) : Move → Stand
  | .assign ps => { s with reader := (s.reader.assign ps).2 }
  | .seek ps => { s with reader := (s.reader.seekToBeginning ps).2 }
  | .poll timeout => { s.advance now log s.next (.started timeout) with next := s.next + 1 }
  | .step task =>
      match s.polls task with
      | some p => s.advance now log task p
      | none => s
  | .leave task => { s with polls := Function.update s.polls task none }
  | .endOffsets ps => { s with reader := (s.reader.endOffsets log ps).2 }
  | .wake => { s with reader := s.reader.wake }
  | .close => { s with reader := s.reader.close }

end Stand

namespace Channel.Call

/-- Whether the task of a call stands in line. -/
def isLined : Call SharedLog → Bool
  | .inLine _ | .polling _ _ _ _ | .asking _ | .closing .reader _ => true
  | _ => false

/-- What is left of a call that stands in line. -/
def lined : Progress (Call SharedLog) Result → Option (Call SharedLog)
  | .waiting c => if c.isLined then some c else none
  | .done _ => none

/-- What is left of a call that has left the line before it is over. -/
def unlined : Progress (Call SharedLog) Result → List (Call SharedLog)
  | .waiting (.closing .writer c) => [.closing .writer c]
  | _ => []

/-- What a call polls for, and for how long. -/
def polls : Call SharedLog → Option (Purpose × Nat)
  | .entered (.use (.poll purpose timeout)) => some (purpose, timeout)
  | .inLine (.poll purpose timeout) => some (purpose, timeout)
  | .polling purpose timeout _ _ => some (purpose, timeout)
  | _ => none

/-- Whether the next step of a call leaves it waiting in its poll. -/
def idles (now : Nat) (e : Endpoint SharedLog) : Call SharedLog → Bool
  | .polling _ _ _ (.parked deadline _) =>
      (e.client.reader.attempt e.client.schema now e.client.log deadline).1.rest.isSome
  | _ => false

end Channel.Call

/-- A channel with the calls in progress. -/
structure Booth where
  wire : Wire
  /-- The calls that stand in line for the reader. -/
  uses : TaskId → Option (Call SharedLog) := fun _ => none
  /-- The number for a new task. -/
  next : TaskId := 0
  /-- The calls that do not need the reader: sends, and shutdowns that have closed it. -/
  asides : List (Call SharedLog) := []

namespace Booth

section Moves

/-- What can be done with a channel. -/
inductive Move
  /-- A new task asks for a use of the reader. -/
  | ask (u : Use)
  /-- A task that stands in line takes a step. -/
  | proceed (task : TaskId)
  /-- A task that stands in line is given up. -/
  | leave (task : TaskId)
  | interrupt
  | send (id : CommandId) (c : Command)
  /-- A call that does not need the reader takes a step. -/
  | proceedAside (k : Nat)
  /-- A call that does not need the reader is given up. -/
  | leaveAside (k : Nat)

/-- A new channel on a topic, with handles of its own. -/
def opened (schema : CommandSchema) (topic : String) : Booth where
  wire := .ofEndpoint (Endpoint.opened {} schema topic)

/-- The channel on its log. -/
def endpoint (b : Booth) (log : Log) : Endpoint SharedLog :=
  b.wire.endpoint log

/-- The booth after a step of a call that stands in line, or begins to. -/
def take (b : Booth) (task : TaskId) (s : Call.Stepped SharedLog) : Booth :=
  { b with
    wire := .ofEndpoint s.2
    uses := Function.update b.uses task (Call.lined s.1)
    asides := b.asides ++ Call.unlined s.1 }

/-- The booth and the log after a move. -/
def perform (now : Nat) (log : Log) (b : Booth) : Move → Booth × Log
  | .ask u =>
      let s := Call.step now b.next (b.endpoint log) (.entered (.use u))
      ({ b.take b.next s with next := b.next + 1 }, s.2.client.log)
  | .proceed task =>
      match b.uses task with
      | some c =>
          let s := c.step now task (b.endpoint log)
          (b.take task s, s.2.client.log)
      | none => (b, log)
  | .leave task =>
      match b.uses task with
      | some _ =>
          ({ b with
            wire := .ofEndpoint ((b.endpoint log).leave task)
            uses := Function.update b.uses task none }, log)
      | none => (b, log)
  | .interrupt => ({ b with wire := .ofEndpoint ((b.endpoint log).interrupt now) }, log)
  | .send id c =>
      let s := Call.step now b.next (b.endpoint log) (.entered (.send id c))
      ({ b with wire := .ofEndpoint s.2, asides := b.asides ++ s.1.rest.toList }, s.2.client.log)
  | .proceedAside k =>
      match b.asides[k]? with
      | some c =>
          let s := c.step now b.next (b.endpoint log)
          ({ b with
            wire := .ofEndpoint s.2
            asides := b.asides.take k ++ s.1.rest.toList ++ b.asides.drop (k + 1) },
            s.2.client.log)
      | none => (b, log)
  | .leaveAside k => ({ b with asides := b.asides.eraseIdx k }, log)

end Moves

section Observing

/-- What concerns the reader of a channel. -/
inductive Event
  | asked (u : Use)
  | left (task : TaskId)
  | interrupted
  /-- An entry has arrived in the partition of the channel. -/
  | received (e : Entry)
  deriving DecidableEq

/-- What the channel is asked by a move. -/
def mark (b : Booth) : Move → Option Event
  | .ask u => some (.asked u)
  | .leave task => (b.uses task).map fun _ => .left task
  | .interrupt => some .interrupted
  | _ => none

/-- The call that has the reader. -/
def head (b : Booth) : Option (Call SharedLog) :=
  b.wire.channel.line.head?.bind b.uses

/-- Whether no step of a call would do anything: nobody has the reader, or it is waited with. -/
def rests (now : Nat) (log : Log) (b : Booth) : Bool :=
  b.head.all fun c => c.idles now (b.endpoint log)

/-- Whether a move is a step of the call that has the reader, and does something. -/
def stirs (now : Nat) (log : Log) (b : Booth) : Move → Bool
  | .proceed task => b.wire.channel.line.head? = some task && !b.rests now log
  | _ => false

/-- Whether the clock may go on: no call has reason to, nor will before that time. -/
def mayPass (now : Nat) (log : Log) (b : Booth) (ticks : Nat) : Bool :=
  b.wire.channel.line.all fun task => (b.uses task).all fun c =>
    !c.ready now task (b.endpoint log) && c.due.all (now + ticks ≤ ·)

/-- The call that takes a step, and its task. -/
def stepping (b : Booth) : Move → Option (TaskId × Call SharedLog)
  | .ask u => some (b.next, .entered (.use u))
  | .proceed task => (b.uses task).map (task, ·)
  | _ => none

/-- What a poll or a replay has brought, when, and where it has left the reader. -/
structure Answer where
  task : TaskId
  purpose : Purpose
  timeout : Nat
  result : Result
  time : Nat
  position : Option Nat

/-- What a step of a call has brought, if that was a poll or a replay. -/
def answerOf (now : Nat) (task : TaskId) (c : Call SharedLog) (s : Call.Stepped SharedLog) :
    Option Answer := do
  let (purpose, timeout) ← c.polls
  let result ← s.1.result
  return ⟨task, purpose, timeout, result, now,
    s.2.client.reader.position s.2.channel.partition⟩

/-- What a move has brought, if it has ended a poll or a replay. -/
def answer (now : Nat) (log : Log) (b : Booth) (m : Move) : Option Answer :=
  (b.stepping m).bind fun (task, c) => answerOf now task c (c.step now task (b.endpoint log))

end Observing

end Booth

namespace Concourse

/-- What can happen. -/
inductive Move
  /-- The clock goes on. -/
  | pass (ticks : Nat)
  | onLog (op : Log.Operation)
  | atStand (j : Nat) (m : Stand.Move)
  | atBooth (j : Nat) (m : Booth.Move)

/-- An event with its time.  If it has come while a call of the channel was about to do something,
it is told how many steps the calls had taken before. -/
structure Dated where
  time : Nat
  amid : Option Nat
  event : Booth.Event
  deriving DecidableEq

end Concourse

open Concourse

/-- Channels and readers on one log. -/
structure Concourse : Type 1 where
  log : Log
  now : Nat := 0
  booths : Nat → Booth
  stands : Nat → Stand

namespace Concourse

section Moves

/-- The concourse after a move. -/
def perform (x : Concourse) : Move → Concourse
  | .pass ticks => { x with now := x.now + ticks }
  | .onLog op => { x with log := x.log.perform op }
  | .atStand j m =>
      { x with stands := Function.update x.stands j ((x.stands j).perform x.now x.log m) }
  | .atBooth j m =>
      let (b, log) := (x.booths j).perform x.now x.log m
      { x with log, booths := Function.update x.booths j b }

/-- The concourse after moves. -/
def run (x : Concourse) (moves : List Move) : Concourse :=
  moves.foldl perform x

/-- The log is new, and this channel on the topic is, too. -/
structure Opens (x : Concourse) (i : Nat) (schema : CommandSchema) (topic : String) : Prop where
  log : x.log = { settings := x.log.settings }
  booth : x.booths i = .opened schema topic

end Moves

section Observing

variable (i : Nat) (x : Concourse)

/-- What is done with the channel itself. -/
def own : Move → Option Booth.Move
  | .atBooth j m => if j = i then some m else none
  | _ => none

/-- What the channel is asked. -/
def mark (m : Move) : Option Booth.Event :=
  (own i m).bind (x.booths i).mark

/-- The entry that arrives in the partition of the channel. -/
def arrival (m : Move) : Option Entry :=
  let p := (x.booths i).wire.channel.partition
  ((x.perform m).log.written p)[(x.log.written p).length]?

/-- What concerns the reader of the channel. -/
def event (m : Move) : Option Booth.Event :=
  (mark i x m).or ((arrival i x m).map .received)

/-- Whether no step of a call of the channel would do anything at a time. -/
def restsAt (t : Nat) : Bool :=
  (x.booths i).rests t x.log

/-- Whether a call of the channel that has the reader takes a step, and does something. -/
def stirs (m : Move) : Bool :=
  (own i m).any ((x.booths i).stirs x.now x.log)

/-- What a poll or a replay of the channel has brought. -/
def answer (m : Move) : Option Booth.Answer :=
  (own i m).bind ((x.booths i).answer x.now x.log)

/-- Whether the clock goes on only when it may. -/
def mayPass : Move → Bool
  | .pass ticks => (x.booths i).mayPass x.now x.log ticks
  | _ => true

/-- What concerns the reader of the channel, after so many steps of its calls. -/
def chronicle (x : Concourse) (k : Nat) : List Move → List Dated
  | [] => []
  | m :: moves =>
      (event i x m).toList.map (⟨x.now, if restsAt i x x.now then none else some k, ·⟩) ++
        chronicle (x.perform m) (if stirs i x m then k + 1 else k) moves

/-- What the polls and the replays of the channel bring. -/
def answers (x : Concourse) : List Move → List Booth.Answer
  | [] => []
  | m :: moves => (answer i x m).toList ++ answers (x.perform m) moves

/-- The clock never goes on while a call of the channel has reason to, nor beyond the time at which
one will have. -/
def isPrompt (x : Concourse) : List Move → Bool
  | [] => true
  | m :: moves => mayPass i x m && isPrompt (x.perform m) moves

end Observing

end Concourse
end ReplicatedLog
