import ReplicatedLog.Log.Error

/-!
# What can go wrong in a command channel

An append that the log rejected, a wait that was cancelled, any other failure of
the log, and the use of a channel that is shut down.  A wakeup of the reading
side counts as a cancelled wait, and so does a wait for an acknowledgment that was
interrupted.
-/

namespace ReplicatedLog
namespace Channel

/-- A failure of a channel operation. -/
inductive Error
  | appendFailed (cause : Rejection)
  | waitCancelled (reason : String)
  | log (e : LogError)
  | closed
  deriving DecidableEq, Repr

namespace Error

/-- The wording of a failure. -/
def message : Error → String
  | appendFailed cause => cause.message
  | waitCancelled reason => reason
  | log e => "Log client error: " ++ e.message
  | closed => "Command channel is shut down"

/-- The text of the failure itself, without any kind in front. -/
def reason : Error → String
  | appendFailed cause => cause.reason
  | waitCancelled reason => reason
  | e => e.message

/-- Whether the failure is a cancelled wait. -/
def isCancelled : Error → Bool
  | waitCancelled _ => true
  | _ => false

/-- The failure that a failure of the reading side amounts to. -/
def ofLog : LogError → Error
  | .wakeup => waitCancelled LogError.wakeup.message
  | e => log e

/-- The failure that a wait without position amounts to. -/
def ofAck : AckError → Error
  | .failed cause => appendFailed cause
  | .interrupted reason => waitCancelled reason

/-- The failure of a send whose wait was interrupted. -/
def interrupted : Error :=
  waitCancelled "append acknowledgment wait interrupted"

end Error
end Channel
end ReplicatedLog
