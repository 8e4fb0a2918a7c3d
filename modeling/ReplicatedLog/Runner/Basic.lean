import ReplicatedLog.Channel.Basic
import ReplicatedLog.Channel.Settings

/-!
# Runners

A runner brings the commands of a channel to an executor.  It first replays the
partition, trying again until a replay succeeds, and then polls for what comes
after, handing over every command in the order of the log.

* **Failures:** a cancelled wait is tried again at once, a channel that is shut
  down ends the runner, and after anything else it waits a while.  A command that
  the executor refuses is counted and not tried again.
* **Stopping:** a request to stop sets a flag that is looked at before every replay
  and every poll, ends a waiting time after a failure, and interrupts the channel.
* **Tally:** the commands replayed, executed and failed are counted, and the offset
  of the last one handed over is kept.
-/

namespace ReplicatedLog

/-- What becomes of a command that is handed to an executor. -/
inductive Verdict
  | succeeded
  | failed (reason : String)
  /-- The executor breaks down, and the runner with it. -/
  | brokeDown
  deriving DecidableEq, Repr

/-- How the failure of an executor is worded. -/
def executionFailure (reason : String) : String :=
  "Command execution failed: " ++ reason

/-- States that take commands. -/
class Executor (ε : Type) where
  /-- How long the executor takes before it does anything. -/
  delay (x : ε) (q : QueuedCommand) : Nat
  /-- Executes a command. -/
  execute (x : ε) (q : QueuedCommand) : Verdict × ε

/-- The counts of a runner. -/
structure Tally where
  replayed : Nat := 0
  executed : Nat := 0
  failed : Nat := 0
  lastOffset : Option Nat := none
  deriving DecidableEq, Repr

/-- The tally after a command has been handed over. -/
def Tally.count (t : Tally) (q : QueuedCommand) (isReplay succeeded : Bool) : Tally :=
  let t :=
    if !succeeded then { t with failed := t.failed + 1 }
    else if isReplay then { t with replayed := t.replayed + 1 }
    else { t with executed := t.executed + 1 }
  { t with lastOffset := q.sequence.or t.lastOffset }

/-- Why a runner ended without a tally. -/
inductive RunnerError
  | channel (e : Channel.Error)
  /-- The executor broke down. -/
  | taskFailed (reason : String)
  deriving DecidableEq, Repr

/-- The wording of a runner's failure. -/
def RunnerError.message : RunnerError → String
  | channel e => e.message
  | taskFailed reason => "Runner task failed: " ++ reason

namespace Runner

/-- What a runner is doing. -/
inductive Phase (σ : Type) [Client σ]
  /-- About to replay, if no stop is requested. -/
  | restoring
  | replaying (call : Channel.Call σ)
  /-- Handing over commands; the first of them is executed at `start`. -/
  | applying (todo : List QueuedCommand) (isReplay : Bool) (start : Option Nat)
  /-- About to poll, if no stop is requested. -/
  | tailing
  | polling (call : Channel.Call σ)
  /-- Waiting after a failure, since a time of `stops` requests to stop. -/
  | backingOff (deadline stops : Nat) (isReplay : Bool)
  | finished (result : Except RunnerError Tally)

end Runner

/-- A runner, apart from its channel and its executor. -/
structure Runner (σ : Type) [Client σ] where
  timing : Timing
  phase : Runner.Phase σ := .restoring
  tally : Tally := {}
  stopRequested : Bool := false
  /-- How often waiting times have been called off. -/
  stops : Nat := 0

namespace Runner

variable {σ ε : Type} [Client σ] [Executor ε]

/-- A runner with its channel and its executor. -/
structure State (σ ε : Type) [Client σ] where
  endpoint : Endpoint σ
  executor : ε
  runner : Runner σ

/-- What a runner came to, once it has ended. -/
def result? (r : Runner σ) : Option (Except RunnerError Tally) :=
  match r.phase with
  | .finished result => some result
  | _ => none

/-- Asks the runner to stop. -/
def requestStop (r : Runner σ) : Runner σ :=
  { r with stopRequested := true, stops := r.stops + 1 }

section Steps

/-- The phase in which the runner looks for commands again. -/
def again (isReplay : Bool) : Phase σ :=
  if isReplay then .restoring else .tailing

/-- The phase after a failed replay or poll. -/
def afterFailure (now : Nat) (r : Runner σ) (isReplay : Bool) (e : Channel.Error) : Phase σ :=
  if e.isCancelled then again isReplay
  else if e = .closed then .finished (.ok r.tally)
  else if r.stopRequested then again isReplay
  else .backingOff (now + r.timing.backoff.ticks) r.stops isReplay

/-- The phase after a replay or a poll. -/
def afterCall (now : Nat) (r : Runner σ) (isReplay : Bool) : Channel.Result → Phase σ
  | .ok (.commands cs) => .applying cs isReplay none
  | .ok _ => .applying [] isReplay none
  | .error e => afterFailure now r isReplay e

/-- Goes on with a replay or a poll. -/
def stepCall (now : Nat) (me : TaskId) (s : State σ ε) (isReplay : Bool)
    (call : Channel.Call σ) : State σ ε :=
  let (progress, endpoint) := call.step now me s.endpoint
  let phase : Phase σ :=
    match progress with
    | .waiting call => if isReplay then .replaying call else .polling call
    | .done result => afterCall now s.runner isReplay result
  { s with endpoint, runner := { s.runner with phase } }

/-- Hands a command to the executor. -/
def apply (s : State σ ε) (q : QueuedCommand) (later : List QueuedCommand) (isReplay : Bool) :
    State σ ε :=
  let (verdict, executor) := Executor.execute s.executor q
  let runner : Runner σ :=
    match verdict with
    | .brokeDown => { s.runner with phase := .finished (.error (.taskFailed "panicked")) }
    | .succeeded =>
        { s.runner with
          phase := .applying later isReplay none
          tally := s.runner.tally.count q isReplay true }
    | .failed _ =>
        { s.runner with
          phase := .applying later isReplay none
          tally := s.runner.tally.count q isReplay false }
  { s with executor, runner }

/-- One step of a runner. -/
def step (now : Nat) (me : TaskId) (s : State σ ε) : State σ ε :=
  let become := fun phase => { s with runner := { s.runner with phase } }
  match s.runner.phase with
  | .restoring =>
      if s.runner.stopRequested then become (.finished (.ok s.runner.tally))
      else
        become (.replaying (.entered (.replayWithOffsets s.runner.timing.replayPoll.ticks)))
  | .replaying call => stepCall now me s true call
  | .applying [] _ _ => become .tailing
  | .applying (q :: later) isReplay none =>
      become (.applying (q :: later) isReplay (some (now + Executor.delay s.executor q)))
  | .applying (q :: later) isReplay (some start) =>
      if start ≤ now then apply s q later isReplay else s
  | .tailing =>
      if s.runner.stopRequested then become (.finished (.ok s.runner.tally))
      else become (.polling (.entered (.pollCommands s.runner.timing.poll.ticks)))
  | .polling call => stepCall now me s false call
  | .backingOff deadline stops isReplay =>
      if deadline ≤ now ∨ s.runner.stops ≠ stops then become (again isReplay) else s
  | .finished _ => s

end Steps

section Waiting

/-- Whether a runner has reason to go on. -/
def ready (now : Nat) (me : TaskId) (s : State σ ε) : Bool :=
  match s.runner.phase with
  | .replaying call | .polling call => call.ready now me s.endpoint
  | .applying (_ :: _) _ (some start) => start ≤ now
  | .backingOff deadline stops _ => deadline ≤ now || s.runner.stops ≠ stops
  | .finished _ => false
  | _ => true

/-- When the clock alone lets a runner go on. -/
def due (r : Runner σ) : Option Nat :=
  match r.phase with
  | .replaying call | .polling call => call.due
  | .applying (_ :: _) _ start => start
  | .backingOff deadline _ _ => some deadline
  | _ => none

end Waiting

end Runner
end ReplicatedLog
