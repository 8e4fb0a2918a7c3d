import ReplicatedLog.Codec.Basic
import ReplicatedLog.Log.Partition

/-!
# What can go wrong at the log

* `Rejection` is the reason why a log did not take an entry.  One that the caller
  can act on is told in its own words, any other with its kind in front;
* `AckError` is the outcome of waiting for an acknowledgment that brought no
  position;
* `LogError` is a failure of the reading side.
-/

namespace ReplicatedLog

/-- Why an append was not acknowledged. -/
structure Rejection where
  kind : String
  reason : String
  /-- Whether the caller can act on it. -/
  isActionable : Bool
  deriving DecidableEq, Repr

/-- The wording of a rejection. -/
def Rejection.message (r : Rejection) : String :=
  if r.isActionable then r.reason else r.kind ++ ": " ++ r.reason

/-- Why a wait for an acknowledgment brought no position. -/
inductive AckError
  | failed (cause : Rejection)
  | interrupted (reason : String)
  deriving DecidableEq, Repr

/-- The wording of a wait without position. -/
def AckError.message : AckError → String
  | failed cause => cause.message
  | interrupted reason => reason

/-- What a wait for an acknowledgment comes to. -/
abbrev Outcome := Except AckError Position

/-- A wait whose acknowledgment will never come, since its sender has dropped it. -/
def AckError.abandoned : AckError :=
  .interrupted "append acknowledgment was abandoned by the log client"

/-- A failure of the reading side. -/
inductive LogError
  /-- A wakeup ended the call. -/
  | wakeup
  | closed
  | notAssigned (p : Partition)
  | unknownPartition (p : Partition)
  | codec (e : CodecError)
  | transport (reason : String)
  deriving DecidableEq, Repr

/-- The wording of a failure of the reading side. -/
def LogError.message : LogError → String
  | wakeup => "Consumer wakeup interrupted a blocking call"
  | closed => "Log client is closed"
  | notAssigned p => "Partition " ++ p.text ++ " is not assigned to this consumer"
  | unknownPartition p => "Unknown topic or partition: " ++ p.text
  | codec e => "Codec error: " ++ e.message
  | transport reason => "Log I/O error: " ++ reason

end ReplicatedLog
