import ReplicatedLog.Simulation.World

/-!
# Steps of a session

What can be done in a session, and what it brings.  Logs, handles, channels,
runners, clusters and tasks are known by the names that the session gives them.  A
step that may have to wait can be put into the background under a name.
-/

namespace ReplicatedLog
namespace Session

/-- A value to send. -/
inductive Value
  | text (s : String)
  | command (c : Command)

/-- What a channel stands over. -/
inductive Backing
  | log (schema : CommandSchema)
  | service (script : Service.Script)

/-- How a runner is set to work. -/
structure RunnerPlan where
  timing : Timing := {}
  delay : Nat := 0
  rejects : List String := []
  breaksOn : Option String := none

/-- What can be asked of the log. -/
inductive LogStep
  | createTopic (topic : String) (partitions : Nat)
  | partitionCount (topic : String)
  | endOffset (p : Partition)
  | entries (p : Partition)
  | failNext (cause : Rejection)
  | hold
  | release
  | abandon

/-- What can be asked of a writer. -/
inductive WriterStep
  | open (content : Content)
  | send (topic : String) (partition : Option Nat) (key : String) (value : Option Value)
      (background : Option String)
  | close
  | isClosed

/-- What can be asked of a reader. -/
inductive ReaderStep
  | open (content : Content)
  | assign (ps : List Partition)
  | assignment
  | position (p : Partition)
  | seek (ps : List Partition)
  | poll (timeout : Nat) (background : Option String)
  | endOffsets (ps : List Partition)
  | wake
  | close
  | isClosed

/-- What can be asked of a channel. -/
inductive ChannelStep
  | open (topic : String) (backing : Backing)
  | request (r : Channel.Request) (background : Option String)
  | interrupt
  | isShutDown
  | calls

/-- What can be asked of a runner. -/
inductive RunnerStep
  | start (channel : String) (plan : RunnerPlan)
  | state
  | stop (background : Option String)

/-- What can be asked of a cluster. -/
inductive ClusterStep
  | start (size : Nat) (settings : Channel.Settings) (onNewLog : Bool)
  | submit (node : Nat) (id : CommandId) (c : Command)
  | send (node : Nat) (id : CommandId) (c : Command) (background : Option String)
  | interrupt (node : Nat)
  | snapshot (node : Nat)
  | endOffset
  | converge (timeout : Nat)
  | restart (node : Nat)
  | stop
  /-- Holds on to the channel of a node under a name. -/
  | keep (node : Nat) (name : String)

/-- What can be done in a session. -/
inductive Step
  /-- A step with an id that is none. -/
  | refused (e : IdError)
  | log (s : LogStep)
  | writer (name : String) (s : WriterStep)
  | reader (name : String) (s : ReaderStep)
  | channel (name : String) (s : ChannelStep)
  | runner (name : String) (s : RunnerStep)
  | cluster (name : String) (s : ClusterStep)
  /-- The state of a channel that has been held on to. -/
  | kept (name : String)
  | advance (ticks : Nat)
  | join (task : String)

/-- What a step brings. -/
inductive Reply
  | plain (a : Answer)
  | truth (b : Bool)
  | count (n : Option Nat)
  | entries (es : Option (List Entry))
  | partitions (ps : List Partition)
  | ends (m : SortedMap Partition Nat)
  | channel (c : Channel)
  /-- The calls that a service has seen, in order. -/
  | calls (cs : List Service.Seen)
  /-- Whether a runner has ended, as long as nobody has asked it to, and its workbench. -/
  | runner (isFinished : Option Bool) (b : Workbench)
  | engine (e : Engine)
  | tallies (ts : List (String × Tally))
  | clusterSize (n : Nat)
  /-- A channel that has been held on to, and what it tells as the end of its partition. -/
  | kept (c : Channel) (stop : Except Problem Answer)
  | pending
  | joined (result : Except Problem Answer)

/-- What becomes of a step, and the time after it. -/
structure Outcome where
  result : Except Problem Reply
  time : Nat

end Session
end ReplicatedLog
