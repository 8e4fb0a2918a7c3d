import ReplicatedLog.Runner.Basic

/-!
# Answers and problems

What a task brings when it is over: an answer, or a problem.  A problem is the
failure of one of the parts, a failure with the chain of its causes, or that the
task would not come to an end.
-/

namespace ReplicatedLog

/-- What a task brings. -/
inductive Answer
  | nothing
  | number (n : Nat)
  | position (p : Position)
  /-- A batch of texts. -/
  | texts (b : Batch String String)
  | batch (b : CommandBatch)
  | commands (cs : List QueuedCommand)
  | tally (t : Tally)

/-- Why a task brings no answer. -/
inductive Problem
  | id (e : IdError)
  | ack (e : AckError)
  | log (e : LogError)
  | channel (e : Channel.Error)
  /-- A runner whose executor broke down. -/
  | taskFailed
  /-- A failure in words, and behind it the words of its causes. -/
  | failure (message : String) (causes : List String)
  /-- A name that stands for nothing. -/
  | unknown (name : String)
  /-- The task did not come to an end in time. -/
  | hang
  deriving DecidableEq

namespace Answer

/-- The answer to a request to a channel. -/
def ofReply : Channel.Reply → Answer
  | .position p => position p
  | .batch b => batch b
  | .commands cs => commands cs
  | .offset n => number n
  | .done => nothing

/-- What a request to a channel brings. -/
def ofResult : Channel.Result → Except Problem Answer
  | .ok r => .ok (ofReply r)
  | .error e => .error (.channel e)

/-- What waiting for an acknowledgment brings. -/
def ofOutcome : Outcome → Except Problem Answer
  | .ok p => .ok (position p)
  | .error e => .error (.ack e)

/-- What waiting for the end of a runner brings. -/
def ofRunner : Except RunnerError Tally → Except Problem Answer
  | .ok t => .ok (tally t)
  | .error (.channel e) => .error (.channel e)
  | .error (.taskFailed _) => .error .taskFailed

end Answer

end ReplicatedLog
