import ReplicatedLog.Codec.Plain
import ReplicatedLog.Log.Basic

/-!
# Writers

A writer encodes keys and values and appends them to a log.  What cannot be
encoded never reaches the log, so no rejection that is lined up there is used up
by it.
-/

namespace ReplicatedLog

/-- The codecs of keys and values. -/
structure Schema (κ ν : Type) where
  key : Codec κ
  value : Codec ν

/-- Texts as they stand, for keys and values. -/
def Schema.texts : Schema String String :=
  ⟨.plain, .plain⟩

/-- A handle that appends to a log. -/
structure Writer where
  isClosed : Bool := false
  deriving DecidableEq, Repr

namespace Writer

/-- The rejection of a closed writer. -/
def closedRejection : Rejection where
  kind := "IllegalState"
  reason := "Cannot perform operation after producer has been closed"
  isActionable := true

/-- The rejection of a part of a record that cannot be encoded. -/
def encodingRejection (part topic : String) (e : CodecError) : Rejection where
  kind := "Serialization"
  reason := "Can't serialize " ++ part ++ " of record to topic " ++ topic ++ ": " ++ e.message
  isActionable := true

section Sending

variable {κ ν : Type}

/-- Encodes a key and a value, the key first. -/
def encode (schema : Schema κ ν) (topic : String) (key : κ) (value : Option ν) :
    Except Rejection Entry := do
  let key ← (schema.key.encode key).mapError (encodingRejection "key" topic)
  match value with
  | none => return ⟨key, none⟩
  | some v =>
      let v ← (schema.value.encode v).mapError (encodingRejection "value" topic)
      return ⟨key, some v⟩

/-- Appends an entry and enters its acknowledgment. -/
def appendEntry (log : Log) (topic : String) (index : Option Nat) (e : Entry) :
    Log.Wait × Log :=
  match log.append topic index e with
  | (.ok p, log) =>
      let (id, log) := log.acknowledge p
      (.ack id, log)
  | (.error cause, log) => (.known (.error (.failed cause)), log)

/-- Sends a record: what to wait for, and the log after it. -/
def send (w : Writer) (schema : Schema κ ν) (log : Log) (topic : String) (index : Option Nat)
    (key : κ) (value : Option ν) : Log.Wait × Log :=
  if w.isClosed then (.known (.error (.failed closedRejection)), log)
  else
    match encode schema topic key value with
    | .error cause => (.known (.error (.failed cause)), log)
    | .ok e => appendEntry log topic index e

end Sending

end Writer
end ReplicatedLog
