import ReplicatedLog.Proofs.Channel.Calls
import ReplicatedLog.Proofs.Log.Fetching

/-!
# A channel on a shared log

What one step of a call does to the log and to the reader of its channel.

* `Endpoint.Follows` says that the log has only grown and that the channel still is
  on the same partition, and `Endpoint.Keeps` that the reader has not moved either;
* `step_follows`: every step of a call lets an endpoint follow, and `step_keeps`: it
  keeps the reader where it is, unless the call has the reading handle for a poll;
* `step_rewinds` and `step_polls`: what a call does that has it;
* `step_frame`: what a call leaves as it is after its first step;
* `Call.Told`: what a replay in progress has brought so far is told by the entries
  that the reader has passed.
-/

namespace ReplicatedLog

theorem Writer.send_grows (w : Writer) (schema : CommandSchema) (log : Log) (topic : String)
    (index : Option Nat) (id : CommandId) (value : Option Command) :
    log.Grows (w.send schema log topic index id value).2 := by
  unfold Writer.send
  split
  · exact .refl log
  · split
    · exact .refl log
    next e _ => exact Log.perform_grows log (.append topic index e)

namespace Endpoint

section Frames

/-- The reader has the partition of the channel, and this is the offset it will read next. -/
def ReaderAt (e : Endpoint SharedLog) (n : Nat) : Prop :=
  e.client.reader.At e.channel.partition n

/-- The entries below an offset of the partition of the channel hold the commands. -/
def Tells (e : Endpoint SharedLog) (n : Nat) (commands : List QueuedCommand) : Prop :=
  e.client.log.Tells e.client.schema e.channel.partition n commands

/-- What a poll of the channel takes from an offset on. -/
def Takes (e : Endpoint SharedLog) (n : Nat) (b : CommandBatch) : Prop :=
  Reader.Takes e.client.schema e.client.log e.channel.partition n b

/-- The offset that the next entry of the partition of the channel will get. -/
def endOffset (e : Endpoint SharedLog) : Nat :=
  (e.client.log.written e.channel.partition).length

/-- The channel is on the same partition, and its log has only grown. -/
structure Follows (e e' : Endpoint SharedLog) : Prop where
  log : e.client.log.Grows e'.client.log
  schema : e'.client.schema = e.client.schema
  partition : e'.channel.partition = e.channel.partition

/-- The channel is on the same partition, its log has only grown, and its reader is where it was. -/
structure Keeps (e e' : Endpoint SharedLog) : Prop extends Follows e e' where
  positions : e'.client.reader.positions = e.client.reader.positions

variable {e e' e'' : Endpoint SharedLog} {n : Nat} {commands : List QueuedCommand}

theorem Follows.refl (e : Endpoint SharedLog) : e.Follows e :=
  ⟨.refl _, rfl, rfl⟩

theorem Follows.trans (h : e.Follows e') (h' : e'.Follows e'') : e.Follows e'' :=
  ⟨h.log.trans h'.log, h'.schema.trans h.schema, h'.partition.trans h.partition⟩

theorem Keeps.refl (e : Endpoint SharedLog) : e.Keeps e :=
  ⟨.refl e, rfl⟩

theorem Keeps.trans (h : e.Keeps e') (h' : e'.Keeps e'') : e.Keeps e'' :=
  ⟨h.toFollows.trans h'.toFollows, h'.positions.trans h.positions⟩

/-- What has been told stays told. -/
theorem Follows.tells (h : e.Follows e') (ht : e.Tells n commands) : e'.Tells n commands := by
  unfold Tells
  rw [h.schema, h.partition]
  exact ht.grows h.log

/-- A reader is at one offset only. -/
theorem ReaderAt.unique {m : Nat} (h : e.ReaderAt m) (h' : e.ReaderAt n) : m = n := by
  have := h.symm.trans h'
  simpa using this

theorem Keeps.readerAt (h : e.Keeps e') (hat : e.ReaderAt n) : e'.ReaderAt n := by
  unfold ReaderAt
  rw [h.partition]
  exact hat.of_positions h.positions

/-- A change of the channel alone that leaves its partition. -/
theorem Keeps.of_client (hc : e'.client = e.client)
    (hp : e'.channel.partition = e.channel.partition) :
    e.Keeps e' := by
  refine ⟨⟨?_, ?_, hp⟩, ?_⟩
  · rw [hc]
    exact .refl _
  · rw [hc]
  · rw [hc]

theorem keeps_leave (e : Endpoint SharedLog) (me : TaskId) : e.Keeps (e.leave me) :=
  .of_client rfl rfl

theorem keeps_interrupt (e : Endpoint SharedLog) (now : Nat) : e.Keeps (e.interrupt now) :=
  ⟨⟨.refl _, rfl, rfl⟩, rfl⟩

/-- The endpoint after others have done something to its log. -/
def onLog (e : Endpoint SharedLog) (op : Log.Operation) : Endpoint SharedLog :=
  { e with client := { e.client with log := e.client.log.perform op } }

theorem keeps_onLog (e : Endpoint SharedLog) (op : Log.Operation) : e.Keeps (e.onLog op) :=
  ⟨⟨Log.perform_grows _ op, rfl, rfl⟩, rfl⟩

/-- A new channel has one partition assigned to its reader. -/
theorem make_readerAt {now : Nat} {client client' : SharedLog} {topic : String}
    (h : make now client topic = (.ok e, client')) :
    e.channel.partition = ⟨topic, Channel.commandPartition⟩ ∧ ∃ n, e.ReaderAt n := by
  unfold make at h
  dsimp only [Client.assign, Reader.assign] at h
  split at h
  · cases h
  next heq =>
    cases h
    split at heq
    · cases heq
    · cases heq
      exact ⟨rfl, _, rfl⟩

/-- A new channel is on the log that it was made for. -/
theorem make_client {now : Nat} {client client' : SharedLog} {topic : String}
    (h : make now client topic = (.ok e, client')) :
    e.client.log = client.log ∧ e.client.schema = client.schema := by
  unfold make at h
  dsimp only [Client.assign] at h
  split at h
  · cases h
  next heq =>
    cases h
    obtain ⟨-, rfl⟩ := Prod.mk.inj heq
    exact ⟨rfl, rfl⟩

/-- A new channel on a log, with handles of its own. -/
def opened (log : Log) (schema : CommandSchema) (topic : String) : Endpoint SharedLog where
  client :=
    { log, schema
      reader := { positions := SortedMap.empty.insert ⟨topic, Channel.commandPartition⟩ 0 } }
  channel := { partition := ⟨topic, Channel.commandPartition⟩ }

theorem make_opened (now : Nat) (log : Log) (schema : CommandSchema) (topic : String) :
    make now { log, schema } topic =
      (.ok (opened log schema topic), (opened log schema topic).client) := rfl

end Frames

end Endpoint

namespace Channel

/-- A request that leaves the reader where it is. -/
def Request.IsQuiet : Request → Prop
  | .use (.poll _ _) => False
  | _ => True

namespace Call

open Endpoint

section Keeping

/-- The call has the reading handle for a poll, or gets it for a replay with its next step. -/
def MovesReader (e : Endpoint SharedLog) (me : TaskId) : Call SharedLog → Prop
  | .inLine (.poll (.replay _) _) => e.channel.hasReader me
  | .polling _ _ _ _ => True
  | _ => False

/-- A call that serves a quiet request never gets the reading handle for a poll. -/
theorem Serves.not_movesReader {c : Call SharedLog} {r : Request} (hs : c.Serves r)
    (hq : r.IsQuiet) (e : Endpoint SharedLog) (me : TaskId) : ¬ c.MovesReader e me := by
  intro hm
  cases c with
  | entered r' => cases hm
  | sent w interrupts => cases hm
  | asking query => cases hm
  | closing handle closing => cases hm
  | inLine u =>
      cases u with
      | endOffset => cases hm
      | close => cases hm
      | poll purpose timeout =>
          have hasked : r = .use (.poll purpose timeout) := hs
          rw [hasked] at hq
          cases hq
  | polling purpose timeout restored p =>
      have hasked : r = .use (.poll purpose timeout) := hs
      rw [hasked] at hq
      cases hq

variable (now : Nat) (me : TaskId) (e : Endpoint SharedLog)

theorem enter_keeps (r : Request) : e.Keeps (enter now me e r).2 := by
  unfold enter
  split
  · split <;> exact .refl e
  · split
    · exact ⟨⟨Writer.send_grows _ _ _ _ _ _ _, rfl, rfl⟩, rfl⟩
    · exact .of_client rfl rfl

theorem awaitAck_endpoint (w : Client.Wait SharedLog) (interrupts : Nat) :
    (awaitAck now e w interrupts).2 = e := by
  unfold awaitAck
  split
  · rfl
  · rfl
  · split <;> rfl

/-- A question for end offsets is answered at once. -/
theorem askEnd_eq (ps : List Partition) :
    askEnd now me e ps =
      finish me (endOf e.channel.partition (e.client.reader.endOffsets e.client.log ps).1)
        { e with client := { e.client with
            reader := (e.client.reader.endOffsets e.client.log ps).2 } } := rfl

theorem askEnd_keeps (ps : List Partition) : e.Keeps (askEnd now me e ps).2 :=
  ⟨⟨.refl _, rfl, rfl⟩, Reader.endOffsets_positions _ _ _⟩

theorem closeHandle_keeps (h : Handle) (closing : Unit) :
    e.Keeps (closeHandle now me e h closing).2 := by
  cases h with
  | reader => exact ⟨⟨.refl _, rfl, rfl⟩, Reader.close_positions _⟩
  | writer => exact ⟨⟨.refl _, rfl, rfl⟩, rfl⟩

/-- A call that does not have the reading handle for a poll leaves the reader where it is. -/
theorem step_keeps {c : Call SharedLog} (h : ¬ c.MovesReader e me) :
    e.Keeps (c.step now me e).2 := by
  cases c with
  | entered r => exact enter_keeps now me e r
  | sent w interrupts =>
      rw [show (Call.step now me e (.sent w interrupts)).2 = e from
        awaitAck_endpoint now e w interrupts]
      exact .refl e
  | inLine u =>
      simp only [step]
      split
      next hhead =>
        cases u with
        | endOffset => exact askEnd_keeps now me e [e.channel.partition]
        | close => exact closeHandle_keeps now me e .reader ()
        | poll purpose timeout =>
            cases purpose with
            | batch => exact .refl e
            | commands => exact .refl e
            | replay withOffsets => exact absurd hhead h
      next => exact .refl e
  | polling purpose timeout restored p => exact absurd trivial h
  | asking ps => exact askEnd_keeps now me e ps
  | closing handle closing => exact closeHandle_keeps now me e handle closing

end Keeping

section Moving

variable (now : Nat) (me : TaskId) {e : Endpoint SharedLog}

theorem takeBatch_keeps (e : Endpoint SharedLog) (timeout : Nat) (restored : List QueuedCommand)
    (b : CommandBatch) (purpose : Purpose) :
    e.Keeps (takeBatch me e timeout restored b purpose).2 := by
  cases purpose with
  | batch => exact keeps_leave e me
  | commands => exact keeps_leave e me
  | replay withOffsets =>
      simp only [takeBatch]
      split
      · exact keeps_leave e me
      · exact .refl e

/-- What a batch comes to does not depend on the endpoint. -/
theorem takeBatch_progress (e e' : Endpoint SharedLog) (timeout : Nat)
    (restored : List QueuedCommand) (b : CommandBatch) (purpose : Purpose) :
    (takeBatch me e timeout restored b purpose).1 =
      (takeBatch me e' timeout restored b purpose).1 := by
  cases purpose with
  | batch => rfl
  | commands => rfl
  | replay withOffsets =>
      simp only [takeBatch]
      split <;> rfl

/-- A replay that gets the reading handle goes back to the first entry, or fails. -/
theorem step_rewinds {n : Nat} (hat : e.ReaderAt n) (withOffsets : Bool) (timeout : Nat)
    (hhead : e.channel.hasReader me) :
    ((Call.step now me e (.inLine (.poll (.replay withOffsets) timeout))).1 =
          .waiting (.polling (.replay withOffsets) timeout [] (Client.startPoll timeout)) ∧
        (Call.step now me e (.inLine (.poll (.replay withOffsets) timeout))).2.ReaderAt 0) ∨
      ((∃ err, (Call.step now me e (.inLine (.poll (.replay withOffsets) timeout))).1 =
          .done (.error err)) ∧
        (Call.step now me e (.inLine (.poll (.replay withOffsets) timeout))).2.ReaderAt n) := by
  simp only [step, hhead, if_true, useReader, rewind, Client.seekToBeginning]
  rcases Reader.seekToBeginning_at hat with ⟨hok, hzero⟩ | ⟨hclosed, hsame⟩
  · rw [hok]
    exact Or.inl ⟨rfl, hzero⟩
  · rw [hclosed, hsame]
    exact Or.inr ⟨⟨_, rfl⟩, hat⟩

/-- A poll takes what follows, moves behind it and makes of it what it is for; or it brings nothing
and stays. -/
theorem step_polls {n : Nat} (hat : e.ReaderAt n) (purpose : Purpose) (timeout : Nat)
    (restored : List QueuedCommand) (p : Client.Poll SharedLog) :
    (∃ b, e.Takes n b ∧
        (Call.step now me e (.polling purpose timeout restored p)).1 =
          (takeBatch me e timeout restored b purpose).1 ∧
        (Call.step now me e (.polling purpose timeout restored p)).2.ReaderAt (n + b.size)) ∨
      (((∃ p', (Call.step now me e (.polling purpose timeout restored p)).1 =
            .waiting (.polling purpose timeout restored p')) ∨
          ∃ err, (Call.step now me e (.polling purpose timeout restored p)).1 =
            .done (.error err)) ∧
        (Call.step now me e (.polling purpose timeout restored p)).2.ReaderAt n) := by
  have hpoll := Reader.stepPoll_at e.client.schema e.client.log hat now p
  simp only [step, Client.stepPoll]
  rcases hs : e.client.reader.stepPoll e.client.schema now e.client.log p with ⟨progress, r⟩
  rw [hs] at hpoll
  rcases hpoll with ⟨b, hb, htakes, hr⟩ | ⟨hnone, hr⟩
  · dsimp only at hb
    subst hb
    exact Or.inl ⟨b, htakes, takeBatch_progress me _ _ timeout restored b purpose,
      (takeBatch_keeps me _ timeout restored b purpose).readerAt hr⟩
  · right
    cases progress with
    | waiting p' => exact ⟨Or.inl ⟨p', rfl⟩, hr⟩
    | done result =>
        cases result with
        | error err => exact ⟨Or.inr ⟨_, rfl⟩, hr⟩
        | ok b => exact absurd rfl (hnone b)

/-- What a call may change after its first step: the reader, the line, and the writer with the step
that closes it. -/
structure Frame (c : Call SharedLog) (e e' : Endpoint SharedLog) : Prop where
  log : e'.client.log = e.client.log
  schema : e'.client.schema = e.client.schema
  partition : e'.channel.partition = e.channel.partition
  isShutDown : e'.channel.isShutDown = e.channel.isShutDown
  writer : (∀ closing, c ≠ .closing .writer closing) → e'.client.writer = e.client.writer

theorem askEnd_frame (c : Call SharedLog) (e : Endpoint SharedLog) (ps : List Partition) :
    c.Frame e (askEnd now me e ps).2 :=
  ⟨rfl, rfl, rfl, rfl, fun _ => rfl⟩

/-- The writer stays what it is when the reader is closed. -/
theorem closeReader_frame (c : Call SharedLog) (e : Endpoint SharedLog) (closing : Unit) :
    c.Frame e (closeHandle now me e .reader closing).2 :=
  ⟨rfl, rfl, rfl, rfl, fun _ => rfl⟩

/-- After its first step a call changes nothing but the reader, the line and, with the step that
closes it, the writer. -/
theorem step_frame (e : Endpoint SharedLog) {c : Call SharedLog} (h : ∀ r, c ≠ .entered r) :
    c.Frame e (c.step now me e).2 := by
  cases c with
  | entered r => exact absurd rfl (h r)
  | sent w interrupts =>
      rw [show (Call.step now me e (.sent w interrupts)).2 = e from
        awaitAck_endpoint now e w interrupts]
      exact ⟨rfl, rfl, rfl, rfl, fun _ => rfl⟩
  | asking ps => exact askEnd_frame now me _ e ps
  | closing handle closing =>
      cases handle with
      | reader => exact closeReader_frame now me _ e closing
      | writer => exact ⟨rfl, rfl, rfl, rfl, fun hne => absurd rfl (hne closing)⟩
  | inLine u =>
      simp only [step]
      split
      · cases u with
        | endOffset => exact askEnd_frame now me _ e [e.channel.partition]
        | close => exact closeReader_frame now me _ e ()
        | poll purpose timeout =>
            cases purpose with
            | batch => exact ⟨rfl, rfl, rfl, rfl, fun _ => rfl⟩
            | commands => exact ⟨rfl, rfl, rfl, rfl, fun _ => rfl⟩
            | replay withOffsets =>
                simp only [useReader, rewind]
                split <;> exact ⟨rfl, rfl, rfl, rfl, fun _ => rfl⟩
      · exact ⟨rfl, rfl, rfl, rfl, fun _ => rfl⟩
  | polling purpose timeout restored p =>
      simp only [step]
      split
      · exact ⟨rfl, rfl, rfl, rfl, fun _ => rfl⟩
      · exact ⟨rfl, rfl, rfl, rfl, fun _ => rfl⟩
      · cases purpose with
        | batch => exact ⟨rfl, rfl, rfl, rfl, fun _ => rfl⟩
        | commands => exact ⟨rfl, rfl, rfl, rfl, fun _ => rfl⟩
        | replay withOffsets =>
            simp only [takeBatch]
            split <;> exact ⟨rfl, rfl, rfl, rfl, fun _ => rfl⟩

/-- Every step of a call lets the log grow only, and leaves the channel on its partition. -/
theorem step_follows (e : Endpoint SharedLog) (c : Call SharedLog) :
    e.Follows (c.step now me e).2 := by
  by_cases h : ∃ r, c = .entered r
  · obtain ⟨r, rfl⟩ := h
    exact (enter_keeps now me e r).toFollows
  · have hframe := step_frame now me e fun r hr => h ⟨r, hr⟩
    refine ⟨?_, hframe.schema, hframe.partition⟩
    rw [hframe.log]
    exact .refl _

/-- A step of a call leaves the log, or appends to it. -/
theorem step_appends (e : Endpoint SharedLog) (c : Call SharedLog) :
    (c.step now me e).2.client.log = e.client.log ∨
      ∃ topic index entry,
        (c.step now me e).2.client.log = e.client.log.perform (.append topic index entry) := by
  by_cases h : ∃ r, c = .entered r
  · obtain ⟨r, rfl⟩ := h
    simp only [step, enter]
    split
    · split <;> exact Or.inl rfl
    · split
      next id command =>
        simp only [Client.send, Writer.send]
        split
        · exact Or.inl rfl
        · split
          · exact Or.inl rfl
          next entry _ => exact Or.inr ⟨_, _, entry, rfl⟩
      next => exact Or.inl rfl
  · exact Or.inl (step_frame now me e fun r hr => h ⟨r, hr⟩).log

/-- A step of a call leaves the log, or does an operation on it. -/
theorem step_log (e : Endpoint SharedLog) (c : Call SharedLog) :
    (c.step now me e).2.client.log = e.client.log ∨
      ∃ op, (c.step now me e).2.client.log = e.client.log.perform op :=
  (step_appends now me e c).imp_right fun ⟨_, _, _, happends⟩ => ⟨_, happends⟩

end Moving

section Tailing

variable {now : Nat} {me : TaskId} {e : Endpoint SharedLog} {c : Call SharedLog}
  {purpose : Purpose} {timeout n : Nat}

/-- What a poll outside of a replay makes of a batch. -/
def reply : Purpose → CommandBatch → Reply
  | .batch, b => .batch b
  | _, b => .commands b.commands

/-- Only a poll in progress can bring commands. -/
theorem polling_of_ok {r : Reply} (hs : c.Serves (.use (.poll purpose timeout)))
    (h : (c.step now me e).1 = .done (.ok r)) :
    ∃ restored p, c = .polling purpose timeout restored p := by
  cases c with
  | sent w interrupts =>
      obtain ⟨id, command, hq⟩ := hs
      cases hq
  | asking ps => cases hs
  | closing h closing => cases hs
  | polling purpose timeout restored p =>
      cases hs
      exact ⟨restored, p, rfl⟩
  | entered r =>
      cases hs
      simp only [step, enter] at h
      split at h
      · cases h
      · cases h
  | inLine u =>
      cases hs
      simp only [step] at h
      split at h
      · cases purpose with
        | batch => cases h
        | commands => cases h
        | replay withOffsets =>
            simp only [useReader, rewind] at h
            split at h
            · cases h
            · cases h
      · cases h

/-- A call that polls outside of a replay brings what it takes, or nothing, and leaves the reader
behind what it has brought. -/
theorem step_tails (now : Nat) (me : TaskId) (hs : c.Serves (.use (.poll purpose timeout)))
    (hp : ∀ withOffsets, purpose ≠ .replay withOffsets) (hat : e.ReaderAt n) :
    (∃ b, (c.step now me e).1 = .done (.ok (reply purpose b)) ∧ e.Takes n b ∧
        (c.step now me e).2.ReaderAt (n + b.size)) ∨
      ((∀ r, (c.step now me e).1 ≠ .done (.ok r)) ∧ (c.step now me e).2.ReaderAt n) := by
  by_cases hpoll : ∃ restored p, c = .polling purpose timeout restored p
  · obtain ⟨restored, p, rfl⟩ := hpoll
    rcases step_polls now me hat purpose timeout restored p with
      ⟨b, htakes, hb, hmoved⟩ | ⟨hnone, hsame⟩
    · left
      refine ⟨b, ?_, htakes, hmoved⟩
      rw [hb]
      cases purpose with
      | batch => rfl
      | commands => rfl
      | replay withOffsets => exact absurd rfl (hp withOffsets)
    · right
      refine ⟨fun r hr => ?_, hsame⟩
      rcases hnone with ⟨p', hnone⟩ | ⟨err, hnone⟩
      · rw [hnone] at hr
        cases hr
      · rw [hnone] at hr
        cases hr
  · right
    have hstill : ¬ c.MovesReader e me := by
      intro hm
      cases c with
      | entered r => cases hm
      | sent w interrupts => cases hm
      | asking ps => cases hm
      | closing h closing => cases hm
      | polling purpose' timeout' restored p =>
          cases hs
          exact hpoll ⟨restored, p, rfl⟩
      | inLine u =>
          cases hs
          cases purpose with
          | batch => cases hm
          | commands => cases hm
          | replay withOffsets => exact hp withOffsets rfl
    exact ⟨fun r hr => hpoll (polling_of_ok hs hr), (step_keeps now me e hstill).readerAt hat⟩

end Tailing

section Telling

/-- What a replay in progress has brought so far is told by the entries that the reader has
passed. -/
def Told (e : Endpoint SharedLog) : Call SharedLog → Prop
  | .polling (.replay _) _ restored _ => ∃ n, e.ReaderAt n ∧ e.Tells n restored
  | _ => True

/-- What a call has brought stays told while the reader is not moved. -/
theorem Told.keeps {e e' : Endpoint SharedLog} {c : Call SharedLog} (h : c.Told e)
    (hk : e.Keeps e') : c.Told e' := by
  cases c with
  | polling purpose timeout restored p =>
      cases purpose with
      | batch => trivial
      | commands => trivial
      | replay withOffsets =>
          obtain ⟨n, hat, ht⟩ := h
          exact ⟨n, hk.readerAt hat, hk.toFollows.tells ht⟩
  | _ => trivial

/-- Only a replay has something to tell. -/
theorem Told.of_not_replay {e : Endpoint SharedLog} {c : Call SharedLog}
    (h : ∀ withOffsets timeout restored p, c ≠ .polling (.replay withOffsets) timeout restored p) :
    c.Told e := by
  cases c with
  | polling purpose timeout restored p =>
      cases purpose with
      | batch => trivial
      | commands => trivial
      | replay withOffsets => exact absurd rfl (h withOffsets timeout restored p)
  | _ => trivial

/-- A call that does not have the reading handle for a poll does not go on to a poll of a
replay. -/
theorem step_not_replay (now : Nat) (me : TaskId) {e : Endpoint SharedLog} {c c' : Call SharedLog}
    (h : ¬ c.MovesReader e me) (hc : (c.step now me e).1 = .waiting c') (withOffsets : Bool)
    (timeout : Nat) (restored : List QueuedCommand) (p : Client.Poll SharedLog) :
    c' ≠ .polling (.replay withOffsets) timeout restored p := by
  rintro rfl
  cases c with
  | entered r =>
      simp only [step, enter] at hc
      split at hc
      · split at hc <;> cases hc
      · split at hc <;> cases hc
  | sent w interrupts =>
      simp only [step, awaitAck] at hc
      split at hc
      · cases hc
      · cases hc
      · split at hc <;> cases hc
  | inLine u =>
      simp only [step] at hc
      split at hc
      next hhead =>
        cases u with
        | endOffset => cases hc
        | close => cases hc
        | poll purpose timeout =>
            cases purpose with
            | batch => cases hc
            | commands => cases hc
            | replay withOffsets => exact h hhead
      next => cases hc
  | polling purpose timeout restored p => exact h trivial
  | asking ps => cases hc
  | closing handle closing => cases handle <;> cases hc

/-- A step of a call leaves the reader somewhere in the partition, and what the call goes on with
is told. -/
theorem step_told (now : Nat) (me : TaskId) {e : Endpoint SharedLog} {c : Call SharedLog}
    (hat : ∃ n, e.ReaderAt n) (h : c.Told e) :
    (∃ n, (c.step now me e).2.ReaderAt n) ∧
      ∀ c', (c.step now me e).1 = .waiting c' → c'.Told (c.step now me e).2 := by
  by_cases hm : c.MovesReader e me
  · obtain ⟨n, hat⟩ := hat
    cases c with
    | entered r => cases hm
    | sent w interrupts => cases hm
    | asking ps => cases hm
    | closing h closing => cases hm
    | inLine u =>
        cases u with
        | endOffset => cases hm
        | close => cases hm
        | poll purpose timeout =>
            cases purpose with
            | batch => cases hm
            | commands => cases hm
            | replay withOffsets =>
                rcases step_rewinds now me hat withOffsets timeout hm with
                  ⟨hw, hzero⟩ | ⟨⟨err, hd⟩, hsame⟩
                · refine ⟨⟨0, hzero⟩, fun c' hc => ?_⟩
                  rw [hw] at hc
                  cases hc
                  exact ⟨0, hzero, .zero _ _ _⟩
                · refine ⟨⟨n, hsame⟩, fun c' hc => ?_⟩
                  rw [hd] at hc
                  cases hc
    | polling purpose timeout restored p =>
        have hf := step_follows now me e (.polling purpose timeout restored p)
        rcases step_polls now me hat purpose timeout restored p with
          ⟨b, htakes, hp, hmoved⟩ | ⟨hp, hsame⟩
        · refine ⟨⟨_, hmoved⟩, fun c' hc => ?_⟩
          rw [hp] at hc
          cases purpose with
          | batch => cases hc
          | commands => cases hc
          | replay withOffsets =>
              obtain ⟨m, hat', ht⟩ := h
              have hm : m = n := hat'.unique hat
              subst hm
              simp only [takeBatch] at hc
              split at hc
              · cases hc
              · cases hc
                exact ⟨_, hmoved, hf.tells (ht.takes htakes)⟩
        · refine ⟨⟨n, hsame⟩, fun c' hc => ?_⟩
          rcases hp with ⟨p', hp⟩ | ⟨err, hp⟩
          · rw [hp] at hc
            cases hc
            cases purpose with
            | batch => trivial
            | commands => trivial
            | replay withOffsets =>
                obtain ⟨m, hat', ht⟩ := h
                have hm : m = n := hat'.unique hat
                subst hm
                exact ⟨m, hsame, hf.tells ht⟩
          · rw [hp] at hc
            cases hc
  · have hk := step_keeps now me e hm
    obtain ⟨n, hat⟩ := hat
    exact ⟨⟨n, hk.readerAt hat⟩, fun c' hc => .of_not_replay (step_not_replay now me hm hc)⟩

/-- The commands as a replay shows them. -/
def shown (withOffsets : Bool) (commands : List QueuedCommand) : List QueuedCommand :=
  if withOffsets then commands else commands.map QueuedCommand.withoutSequence

/-- A replay that succeeds shows what the entries tell that its reader has passed; and if a poll can
take anything at all, these are all there are. -/
theorem step_replayed (now : Nat) (me : TaskId) {e : Endpoint SharedLog} {withOffsets : Bool}
    {timeout : Nat} {restored : List QueuedCommand} {p : Client.Poll SharedLog} {reply : Reply}
    (h : Told e (.polling (.replay withOffsets) timeout restored p))
    (hr : (Call.step now me e (.polling (.replay withOffsets) timeout restored p)).1 =
      .done (.ok reply)) :
    reply = .commands (shown withOffsets restored) ∧ ∃ n, e.Tells n restored ∧
      (Call.step now me e (.polling (.replay withOffsets) timeout restored p)).2.ReaderAt n ∧
      (1 ≤ e.client.log.settings.maxPollRecords → n = e.endOffset) := by
  obtain ⟨n, hat, ht⟩ := h
  rcases step_polls now me hat (.replay withOffsets) timeout restored p with
    ⟨b, htakes, hp, hmoved⟩ | ⟨hp, -⟩
  · rw [hp] at hr
    simp only [takeBatch] at hr
    split at hr
    next hempty =>
      have hsize : b.size = 0 := by simpa [Batch.isEmpty, Batch.size] using hempty
      rw [hsize, Nat.add_zero] at hmoved
      cases hr
      exact ⟨rfl, n, ht, hmoved, fun hroom => ht.takes_nothing htakes hempty hroom⟩
    next => cases hr
  · rcases hp with ⟨p', hp⟩ | ⟨err, hp⟩
    · rw [hp] at hr
      cases hr
    · rw [hp] at hr
      cases hr

end Telling

end Call
end Channel
end ReplicatedLog
