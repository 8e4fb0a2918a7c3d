import ReplicatedLog.Channel.Error
import ReplicatedLog.Client.Basic

/-!
# The command channel

All commands go through one partition of one topic, which gives them one order.
A channel owns the two handles of a client.  It can be asked to append a command,
to poll, to replay the partition from its beginning, for the end of the partition,
and to shut down.

A request in progress is a `Call`.  Those that use the reading handle stand in
line for it, first come, first served, and keep it until they are done, a replay
through all of its polls, a question for the end until it is answered, and a
shutdown until the reading handle is closed.  A send does not use it: it waits for
its acknowledgment, and an interruption that comes after its append cancels the
wait.

A step of a call goes from one wait to the next at most, and all that it does is
done before anyone else does anything.
-/

namespace ReplicatedLog

/-- The number by which a task is known. -/
abbrev TaskId := Nat

/-- A command channel, apart from the client it owns. -/
structure Channel where
  partition : Partition
  isShutDown : Bool := false
  /-- How often the channel has been interrupted. -/
  interrupts : Nat := 0
  /-- The task that has the reading handle, and behind it those that wait for it. -/
  line : List TaskId := []

/-- A channel with the client it owns. -/
structure Endpoint (σ : Type) where
  client : σ
  channel : Channel

namespace Channel

/-- The only partition of its topic that a channel touches. -/
def commandPartition : Nat := 0

/-- What polling the reading handle is for. -/
inductive Purpose
  /-- The records of one poll. -/
  | batch
  /-- The commands of one poll. -/
  | commands
  /-- The commands of the whole partition, with or without their offsets. -/
  | replay (withOffsets : Bool)
  deriving DecidableEq, Repr

/-- A use of the reading handle; times are in ticks of the clock. -/
inductive Use
  | poll (purpose : Purpose) (timeout : Nat)
  | endOffset
  | close
  deriving DecidableEq, Repr

/-- What can be asked of a channel. -/
inductive Request
  | send (id : CommandId) (c : Command)
  | use (u : Use)

namespace Request

/-- To poll once. -/
def poll (timeout : Nat) : Request := use (.poll .batch timeout)

/-- To poll once for commands. -/
def pollCommands (timeout : Nat) : Request := use (.poll .commands timeout)

/-- To replay the partition; the commands come without their offsets. -/
def replay (pollTimeout : Nat) : Request := use (.poll (.replay false) pollTimeout)

/-- To replay the partition; the commands come with their offsets. -/
def replayWithOffsets (pollTimeout : Nat) : Request := use (.poll (.replay true) pollTimeout)

/-- To ask for the end of the partition. -/
def endOffset : Request := use .endOffset

/-- To shut the channel down. -/
def shutDown : Request := use .close

end Request

/-- What a request brings. -/
inductive Reply
  | position (p : Position)
  | batch (b : CommandBatch)
  | commands (cs : List QueuedCommand)
  | offset (n : Nat)
  | done

/-- What becomes of a request. -/
abbrev Result := Except Error Reply

/-- A request in progress. -/
inductive Call (σ : Type) [Client σ]
  /-- Nothing has been done yet. -/
  | entered (r : Request)
  /-- The append is issued, at a time of `interrupts` interruptions. -/
  | sent (w : Client.Wait σ) (interrupts : Nat)
  /-- In line for the reading handle. -/
  | inLine (u : Use)
  /-- A poll is in progress; `restored` holds what the replay has brought so far. -/
  | polling (purpose : Purpose) (timeout : Nat) (restored : List QueuedCommand)
      (p : Client.Poll σ)
  /-- A question for the end of the partition is in progress. -/
  | asking (q : Client.Query σ)
  /-- A handle is being closed, the reading one before the appending one. -/
  | closing (h : Handle) (c : Client.Closing σ h)

section Lines

/-- Joins the line for the reading handle. -/
def joinLine (c : Channel) (me : TaskId) : Channel :=
  { c with line := c.line ++ [me] }

/-- Leaves the line, or gives the reading handle back. -/
def leaveLine (c : Channel) (me : TaskId) : Channel :=
  { c with line := c.line.erase me }

/-- Whether a task has the reading handle. -/
def hasReader (c : Channel) (me : TaskId) : Bool :=
  c.line.head? = some me

end Lines

end Channel

namespace Endpoint

variable {σ : Type} [Client σ]

/-- A channel on a topic, if the client lets its partition be assigned. -/
def make (now : Nat) (client : σ) (topic : String) : Except Channel.Error (Endpoint σ) × σ :=
  let partition : Partition := ⟨topic, Channel.commandPartition⟩
  match Client.assign now client [partition] with
  | (.error e, client) => (.error (.ofLog e), client)
  | (.ok (), client) => (.ok ⟨client, { partition }⟩, client)

/-- Cancels the waits in progress, or the next one of the reading side. -/
def interrupt (now : Nat) (e : Endpoint σ) : Endpoint σ :=
  { client := Client.wake now e.client
    channel := { e.channel with interrupts := e.channel.interrupts + 1 } }

/-- The endpoint after a task has left the line. -/
def leave (e : Endpoint σ) (me : TaskId) : Endpoint σ :=
  { e with channel := e.channel.leaveLine me }

end Endpoint

namespace Channel
namespace Call

variable {σ : Type} [Client σ]

/-- What a step of a call leaves. -/
abbrev Stepped (σ : Type) [Client σ] := Progress (Call σ) Result × Endpoint σ

section Steps

/-- Ends a call that has the reading handle. -/
def finish (me : TaskId) (result : Result) (e : Endpoint σ) : Stepped σ :=
  (.done result, e.leave me)

/-- The first step of a request.  Only the first shutdown does anything. -/
def enter (now : Nat) (me : TaskId) (e : Endpoint σ) (r : Request) : Stepped σ :=
  if e.channel.isShutDown then
    match r with
    | .use .close => (.done (.ok .done), e)
    | _ => (.done (.error .closed), e)
  else
    match r with
    | .send id c =>
        let (w, client) := Client.send now e.client e.channel.partition id c
        (.waiting (.sent w e.channel.interrupts), { e with client })
    | .use u =>
        let channel := { e.channel with isShutDown := u = Use.close }
        (.waiting (.inLine u), { e with channel := channel.joinLine me })

/-- The step of a send that waits: the acknowledgment counts before an interruption. -/
def awaitAck (now : Nat) (e : Endpoint σ) (w : Client.Wait σ) (interrupts : Nat) : Stepped σ :=
  match Client.outcome now e.client w with
  | some (.ok p) => (.done (.ok (.position p)), e)
  | some (.error err) => (.done (.error (.ofAck err)), e)
  | none =>
      if e.channel.interrupts ≠ interrupts then (.done (.error .interrupted), e)
      else (.waiting (.sent w interrupts), e)

/-- Goes back to the beginning of the partition and starts the first poll of a replay. -/
def rewind (now : Nat) (me : TaskId) (e : Endpoint σ) (withOffsets : Bool) (timeout : Nat) :
    Stepped σ :=
  let (result, client) := Client.seekToBeginning now e.client [e.channel.partition]
  let e := { e with client }
  match result with
  | .error err => finish me (.error (.ofLog err)) e
  | .ok () =>
      (.waiting (.polling (.replay withOffsets) timeout [] (Client.startPoll timeout)), e)

/-- What the answer to a question for the end of the partition means. -/
def endOf (p : Partition) : Except LogError (SortedMap Partition Nat) → Result
  | .error err => .error (.ofLog err)
  | .ok ends =>
      match ends.get? p with
      | some n => .ok (.offset n)
      | none => .error (.log (.unknownPartition p))

/-- One step of a question for the end of the partition. -/
def askEnd (now : Nat) (me : TaskId) (e : Endpoint σ) (q : Client.Query σ) : Stepped σ :=
  let (progress, client) := Client.stepQuery now e.client q
  let e := { e with client }
  match progress with
  | .waiting q => (.waiting (.asking q), e)
  | .done answer => finish me (endOf e.channel.partition answer) e

/-- One step of the closing of a handle.  The reading handle is given back once it is closed, and
then the appending one is closed, which ends the shutdown. -/
def closeHandle (now : Nat) (me : TaskId) (e : Endpoint σ) (h : Handle) (c : Client.Closing σ h) :
    Stepped σ :=
  let (progress, client) := Client.stepClosing h now e.client c
  let e := { e with client }
  match progress with
  | .waiting c => (.waiting (.closing h c), e)
  | .done () =>
      match h with
      | .reader => (.waiting (.closing .writer (Client.startClosing .writer)), e.leave me)
      | .writer => (.done (.ok .done), e)

/-- The first step with the reading handle. -/
def useReader (now : Nat) (me : TaskId) (e : Endpoint σ) : Use → Stepped σ
  | .poll (.replay withOffsets) timeout => rewind now me e withOffsets timeout
  | .poll purpose timeout =>
      (.waiting (.polling purpose timeout [] (Client.startPoll timeout)), e)
  | .endOffset => askEnd now me e (Client.startQuery [e.channel.partition])
  | .close => closeHandle now me e .reader (Client.startClosing .reader)

/-- What a batch means to the call that polled: its end, or the next poll of a replay, which goes
on until a poll comes back empty. -/
def takeBatch (me : TaskId) (e : Endpoint σ) (timeout : Nat) (restored : List QueuedCommand)
    (b : CommandBatch) : Purpose → Stepped σ
  | .batch => finish me (.ok (.batch b)) e
  | .commands => finish me (.ok (.commands b.commands)) e
  | .replay withOffsets =>
      if b.isEmpty then
        finish me (.ok (.commands
          (if withOffsets then restored else restored.map QueuedCommand.withoutSequence))) e
      else
        (.waiting (.polling (.replay withOffsets) timeout (restored ++ b.commands)
          (Client.startPoll timeout)), e)

/-- One step of a call. -/
def step (now : Nat) (me : TaskId) (e : Endpoint σ) : Call σ → Stepped σ
  | .entered r => enter now me e r
  | .sent w interrupts => awaitAck now e w interrupts
  | .inLine u =>
      if e.channel.hasReader me then useReader now me e u else (.waiting (.inLine u), e)
  | .polling purpose timeout restored p =>
      let (progress, client) := Client.stepPoll now e.client p
      let e := { e with client }
      match progress with
      | .waiting p => (.waiting (.polling purpose timeout restored p), e)
      | .done (.error err) => finish me (.error (.ofLog err)) e
      | .done (.ok b) => takeBatch me e timeout restored b purpose
  | .asking q => askEnd now me e q
  | .closing h c => closeHandle now me e h c

end Steps

section Waiting

/-- Whether a call has reason to go on. -/
def ready (now : Nat) (me : TaskId) (e : Endpoint σ) : Call σ → Bool
  | .entered _ => true
  | .sent w interrupts =>
      (Client.outcome now e.client w).isSome || e.channel.interrupts ≠ interrupts
  | .inLine _ => e.channel.hasReader me
  | .polling _ _ _ p => Client.pollReady now e.client p
  | .asking q => Client.queryReady now e.client q
  | .closing h c => Client.closingReady h now e.client c

/-- When the clock alone lets a call go on. -/
def due : Call σ → Option Nat
  | .sent w _ => Client.outcomeDue w
  | .polling _ _ _ p => Client.pollDue p
  | .asking q => Client.queryDue q
  | .closing h c => Client.closingDue h c
  | _ => none

end Waiting

end Call
end Channel
end ReplicatedLog
