import ReplicatedLog.Client.Basic
import ReplicatedLog.Codec.Binary
import ReplicatedLog.Codec.Json
import ReplicatedLog.Log.Reader
import ReplicatedLog.Log.Writer

/-!
# Clients of a shared log

A client with a writer and a reader of its own on a log that it shares with
others.  End offsets are there at once, and a handle is closed at once.
-/

namespace ReplicatedLog

/-- How commands are encoded under their ids. -/
abbrev CommandSchema := Schema CommandId Command

/-- Commands in JSON. -/
def CommandSchema.json : CommandSchema :=
  ⟨JsonForm.idCodec, JsonForm.commandCodec⟩

/-- Commands in the binary format. -/
def CommandSchema.binary : CommandSchema :=
  ⟨BinaryForm.idCodec, BinaryForm.commandCodec⟩

/-- A shared log with the two handles of one client. -/
structure SharedLog where
  log : Log
  schema : CommandSchema
  reader : Reader := {}
  writer : Writer := {}

/-- Closes a handle. -/
def SharedLog.close (s : SharedLog) : Handle → SharedLog
  | .reader => { s with reader := s.reader.close }
  | .writer => { s with writer := { isClosed := true } }

instance : Client SharedLog where
  Wait := Log.Wait
  Poll := Reader.Poll
  Query := List Partition
  Closing _ := Unit
  send _ s p id c :=
    let (wait, log) := s.writer.send s.schema s.log p.topic (some p.index) id (some c)
    (wait, { s with log })
  outcome _ s w := s.log.outcome w
  outcomeDue _ := none
  assign _ s ps :=
    let (result, reader) := s.reader.assign ps
    (result, { s with reader })
  seekToBeginning _ s ps :=
    let (result, reader) := s.reader.seekToBeginning ps
    (result, { s with reader })
  startPoll timeout := .started timeout
  stepPoll now s p :=
    let (progress, reader) := s.reader.stepPoll s.schema now s.log p
    (progress, { s with reader })
  pollReady now s p := s.reader.pollReady now s.log p
  pollDue p := Reader.pollDue p
  startQuery ps := ps
  stepQuery _ s ps :=
    let (result, reader) := s.reader.endOffsets s.log ps
    (.done result, { s with reader })
  queryReady _ _ _ := true
  queryDue _ := none
  wake _ s := { s with reader := s.reader.wake }
  startClosing _ := ()
  stepClosing h _ s _ := (.done (), s.close h)
  closingReady _ _ _ _ := true
  closingDue _ _ := none

end ReplicatedLog
