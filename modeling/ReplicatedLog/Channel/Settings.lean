import ReplicatedLog.Data.Duration
import ReplicatedLog.Json.Value
import ReplicatedLog.Text.Blank
import ReplicatedLog.Text.Decimal

/-!
# Settings of a command channel

The topic that holds the commands, and how long runners wait: for the next
entries, for the end of a replay, and after a failure.  All four have defaults.

* **Environment:** a topic that is set and not empty is taken as it stands; a
  number of milliseconds may have white space around it, and a text that is no
  number of 64 bits leaves the default.
* **JSON:** times are whole milliseconds of 64 bits; what a document leaves out
  has its default.
-/

namespace ReplicatedLog

/-- How long a runner waits. -/
structure Timing where
  poll : Duration := .ofMillis 500
  replayPoll : Duration := .ofMillis 1000
  backoff : Duration := .ofMillis 250
  deriving DecidableEq, Repr

namespace Channel

/-- The settings of a command channel. -/
structure Settings where
  topic : String := "_cmdlog_command_topic"
  timing : Timing := {}
  deriving DecidableEq, Repr

namespace Settings

section Environment

/-- The number of milliseconds that a text denotes. -/
def readMillis (text : String) : Option Duration :=
  (Text.readNatUpTo Text.maxWord64 (Text.trim text.toList)).map Duration.ofMillis

/-- The settings that an environment asks for. -/
def ofEnvironment (env : String → Option String) : Settings :=
  let defaults : Settings := {}
  let millis := fun name (d : Duration) => ((env name).bind readMillis).getD d
  { topic := ((env "CMDLOG_COMMAND_TOPIC").filter (· ≠ "")).getD defaults.topic
    timing :=
      { poll := millis "CMDLOG_POLL_TIMEOUT_MS" defaults.timing.poll
        replayPoll := millis "CMDLOG_REPLAY_POLL_TIMEOUT_MS" defaults.timing.replayPoll
        backoff := millis "CMDLOG_ERROR_BACKOFF_MS" defaults.timing.backoff } }

end Environment

section Json

open Json

/-- The settings that have been read. -/
structure Fields where
  topic : Option String := none
  poll : Option Duration := none
  replayPoll : Option Duration := none
  backoff : Option Duration := none

/-- Reads a number of milliseconds. -/
def readDuration : Parser Duration := do
  return .ofMillis (← word64)

/-- The four fields of the settings, each of which may be left out. -/
def layout : Layout Fields Settings where
  typeName := "ChannelConfig"
  fields :=
    [ { name := "topic", isSet := (·.topic.isSome), mayBeCutOff := true
        read := fun s => do return { s with topic := some (← string) } },
      { name := "poll_timeout", isSet := (·.poll.isSome), mayBeCutOff := true
        read := fun s => do return { s with poll := some (← readDuration) } },
      { name := "replay_poll_timeout", isSet := (·.replayPoll.isSome), mayBeCutOff := true
        read := fun s => do return { s with replayPoll := some (← readDuration) } },
      { name := "error_backoff", isSet := (·.backoff.isSome), mayBeCutOff := true
        read := fun s => do return { s with backoff := some (← readDuration) } } ]
  start := {}
  build s :=
    let defaults : Settings := {}
    .ok
      { topic := s.topic.getD defaults.topic
        timing :=
          { poll := s.poll.getD defaults.timing.poll
            replayPoll := s.replayPoll.getD defaults.timing.replayPoll
            backoff := s.backoff.getD defaults.timing.backoff } }

/-- The whole milliseconds of a duration, as far as 64 bits show them. -/
def writtenMillis (d : Duration) : Nat :=
  d.toMillis % (Text.maxWord64 + 1)

/-- The JSON form of the settings. -/
def toJson (s : Settings) : Value :=
  let millis := fun d => Value.number (.whole (writtenMillis d))
  .object [("topic", .string s.topic), ("poll_timeout", millis s.timing.poll),
    ("replay_poll_timeout", millis s.timing.replayPoll),
    ("error_backoff", millis s.timing.backoff)]

/-- Reads settings from a document. -/
def ofJson (document : Bytes) : Except Json.Error Settings :=
  decode layout.read document

end Json

section Updates

/-- Sets the topic. -/
def withTopic (s : Settings) (topic : String) : Settings :=
  { s with topic }

/-- Sets the time to wait for the next entries. -/
def withPoll (s : Settings) (d : Duration) : Settings :=
  { s with timing := { s.timing with poll := d } }

/-- Sets the time to wait for the end of a replay. -/
def withReplayPoll (s : Settings) (d : Duration) : Settings :=
  { s with timing := { s.timing with replayPoll := d } }

/-- Sets the time to wait after a failure. -/
def withBackoff (s : Settings) (d : Duration) : Settings :=
  { s with timing := { s.timing with backoff := d } }

end Updates

end Settings
end Channel
end ReplicatedLog
