import ReplicatedLog.Proofs.Channel.Traffic
import ReplicatedLog.Proofs.Json.RoundTrip

/-!
# What a send tells about the log

A send appends with its first step and then only waits.  What it brings in the end
tells what that first step has done to the log.

* `Landed` says that a step has added the entry of a command and nothing else, and
  `Rejected` that it has added nothing and used up a rejection;
* `enter_send`: what the first step of a send can do;
* `Awaits`: what a send waits for agrees with what its first step has done, and goes
  on to do so whatever happens to the log;
* `Traffic.Sends` is what holds of all sends in the traffic on a channel, and
  `run_sends`: it still does after any moves.
-/

namespace ReplicatedLog

open Channel

section Closing

variable {now : Nat} {me : TaskId} {e : Endpoint SharedLog}

/-- The call is on its way to close both handles. -/
def Channel.Call.Closes : Call SharedLog → Prop
  | .inLine .close | .closing _ _ => True
  | _ => False

theorem Channel.Call.Closes.serves {c : Call SharedLog} (h : c.Closes) : c.Serves .shutDown := by
  cases c with
  | inLine u =>
      cases u with
      | close => rfl
      | _ => cases h
  | closing handle closing => rfl
  | _ => cases h

/-- The channel is shut down if its appending handle is closed. -/
def Endpoint.Guarded (e : Endpoint SharedLog) : Prop :=
  e.client.writer.isClosed = true → e.channel.isShutDown = true

/-- A channel that is shut down stays so. -/
theorem Channel.Call.step_shutDown (c : Call SharedLog) (h : e.channel.isShutDown = true) :
    (c.step now me e).2.channel.isShutDown = true := by
  by_cases hc : ∃ r, c = .entered r
  · obtain ⟨r, rfl⟩ := hc
    simp only [Call.step, Call.enter, h, if_true]
    split <;> exact h
  · rw [(step_frame now me e fun r hr => hc ⟨r, hr⟩).isShutDown]
    exact h

/-- The appending handle is only closed by a shutdown that is about to close the handles. -/
theorem Channel.Call.step_writer (now : Nat) (me : TaskId) (e : Endpoint SharedLog)
    {c : Call SharedLog} (h : ∀ closing, c ≠ .closing .writer closing) :
    (c.step now me e).2.client.writer = e.client.writer := by
  by_cases hc : ∃ r, c = .entered r
  · obtain ⟨r, rfl⟩ := hc
    simp only [Call.step, Call.enter]
    split
    · split <;> rfl
    · split <;> rfl
  · exact (step_frame now me e fun r hr => hc ⟨r, hr⟩).writer h

/-- A call that is about to close the handles has shut the channel down before. -/
theorem Channel.Call.step_closes {c c' : Call SharedLog}
    (h : c.Closes → e.channel.isShutDown = true) (hc : (c.step now me e).1 = .waiting c')
    (hcl : c'.Closes) : (c.step now me e).2.channel.isShutDown = true := by
  by_cases hcloses : c.Closes
  · exact step_shutDown c (h hcloses)
  · cases c with
    | entered r =>
        simp only [Call.step, Call.enter] at hc ⊢
        split at hc
        · split at hc <;> cases hc
        next hopen =>
          rw [if_neg hopen]
          split at hc
          · cases hc
            cases hcl
          next u =>
            cases hc
            cases u with
            | close => rfl
            | _ => cases hcl
    | sent w interrupts =>
        simp only [Call.step, Call.awaitAck] at hc
        split at hc
        · cases hc
        · cases hc
        · split at hc
          · cases hc
          · cases hc
            cases hcl
    | closing handle closing => exact absurd trivial hcloses
    | inLine u =>
        have hserves : c'.Serves (.use u) :=
          Call.step_serves (show (Call.inLine u).Serves (.use u) from rfl) hc
        cases hserves.eq_shutDown hcl.serves
        exact absurd trivial hcloses
    | polling purpose timeout restored p =>
        have hpolls : Call.Serves (.polling purpose timeout restored p)
            (.use (.poll purpose timeout)) := rfl
        cases (Call.step_serves hpolls hc).eq_shutDown hcl.serves
    | asking ps =>
        have hasks : Call.Serves (.asking ps : Call SharedLog) (.use .endOffset) := rfl
        cases (Call.step_serves hasks hc).eq_shutDown hcl.serves

end Closing

section FirstStep

/-- The entry of a command has been added to a partition, and nothing else. -/
def Landed (p : Partition) (id : CommandId) (c : Command) (before after : Log) : Prop :=
  ∃ entry, before.Adds after p entry ∧ CommandSchema.json.key.decode entry.key = .ok id ∧
    ∃ v, entry.value = some v ∧ CommandSchema.json.value.decode v = .ok c

/-- Nothing has been added, and the first rejection that was lined up has been used up. -/
def Rejected (cause : Rejection) (before after : Log) : Prop :=
  before.AddsNothing after ∧ before.failures = cause :: after.failures

/-- Ids and commands can always be encoded, and decoded again. -/
theorem encode_json (topic : String) (id : CommandId) (c : Command) :
    ∃ entry v, Writer.encode CommandSchema.json topic id (some c) = .ok entry ∧
      entry.value = some v ∧ CommandSchema.json.key.decode entry.key = .ok id ∧
      CommandSchema.json.value.decode v = .ok c := by
  obtain ⟨key, hkey, hid⟩ := idCodec_roundTrips id
  obtain ⟨v, hvalue, hc⟩ := commandCodec_roundTrips c
  refine ⟨⟨key, some v⟩, v, ?_, rfl, hid, hc⟩
  unfold Writer.encode
  have hkeyed : CommandSchema.json.key.encode id = .ok key := hkey
  rw [hkeyed]
  change ((CommandSchema.json.value.encode c).mapError
    (Writer.encodingRejection "value" topic)).bind (fun v => .ok (Entry.mk key (some v))) = _
  have hvalued : CommandSchema.json.value.encode c = .ok v := hvalue
  rw [hvalued]
  rfl

/-- What an append to the first partition of a topic through a writer does: it uses up a rejection,
or it lands and will be acknowledged. -/
theorem appendEntry_zero {log : Log} (hs : log.Sound) (topic : String) (entry : Entry) :
    (∃ cause, (Writer.appendEntry log topic (some 0) entry).1 = .known (.error (.failed cause)) ∧
        Rejected cause log (Writer.appendEntry log topic (some 0) entry).2) ∨
      ∃ ack, (Writer.appendEntry log topic (some 0) entry).1 = .ack ack ∧
        log.Adds (Writer.appendEntry log topic (some 0) entry).2 ⟨topic, 0⟩ entry ∧
        (Writer.appendEntry log topic (some 0) entry).2.AckOf ack
          ⟨topic, 0, (log.written ⟨topic, 0⟩).length⟩ := by
  cases hf : log.failures with
  | cons cause later =>
      left
      have happend := Log.append_of_rejection hf topic (some 0) entry
      refine ⟨cause, ?_, ?_, ?_⟩
      · simp [Writer.appendEntry, happend]
      · intro q
        simp [Writer.appendEntry, happend, Log.written, Log.entries]
      · simp [Writer.appendEntry, happend, hf]
  | nil =>
      right
      have hok := Log.append_zero hs.partitions hf topic entry
      have hentries := Log.append_entries log topic (some 0) entry
      obtain ⟨-, -, hheld, hledger⟩ := Log.append_frame log topic (some 0) entry
      have htopics := (Log.appendEntry_topics log topic (some 0) entry).2
      rcases happend : log.append topic (some 0) entry with ⟨result, after⟩
      rw [happend] at hok hentries hheld hledger htopics
      dsimp only at hok
      subst hok
      obtain ⟨-, -, hadds⟩ := hentries
      refine ⟨(after.acknowledge ⟨topic, 0, (log.written ⟨topic, 0⟩).length⟩).1, ?_, ?_, ?_⟩
      · simp [Writer.appendEntry, happend]
      · intro q
        refine Eq.trans ?_ (hadds q)
        unfold Log.written Log.entries
        rw [htopics]
      · have hafter : ∀ id q, (id, q) ∈ after.held → id < after.ledger.size := by
          rw [hheld, hledger]
          exact hs.held
        have hack := Log.ackOf_acknowledge hafter ⟨topic, 0, (log.written ⟨topic, 0⟩).length⟩
        simpa [Writer.appendEntry, happend] using hack

variable {now : Nat} {me : TaskId} {e : Endpoint SharedLog} {topic : String}

/-- The first step of a send: it finds the channel shut down; or it uses up a rejection; or its
entry lands and will be acknowledged. -/
theorem Channel.Call.enter_send (now : Nat) (me : TaskId) (hg : e.Guarded) (hs : e.client.log.Sound)
    (hschema : e.client.schema = .json) (hp : e.channel.partition = ⟨topic, commandPartition⟩)
    (id : CommandId) (c : Command) :
    enter now me e (.send id c) = (.done (.error .closed), e) ∨
      (∃ cause interrupts,
        (enter now me e (.send id c)).1 =
          .waiting (.sent (Log.Wait.known (.error (.failed cause))) interrupts) ∧
        Rejected cause e.client.log (enter now me e (.send id c)).2.client.log) ∨
      ∃ ack interrupts,
        (enter now me e (.send id c)).1 = .waiting (.sent (Log.Wait.ack ack) interrupts) ∧
        Landed ⟨topic, commandPartition⟩ id c e.client.log
          (enter now me e (.send id c)).2.client.log ∧
        (enter now me e (.send id c)).2.client.log.AckOf ack
          ⟨topic, commandPartition, (e.client.log.written ⟨topic, commandPartition⟩).length⟩ := by
  by_cases hshut : e.channel.isShutDown = true
  · left
    simp [enter, hshut]
  · right
    have hopen : e.client.writer.isClosed = false := by
      cases hw : e.client.writer.isClosed with
      | false => rfl
      | true => exact absurd (hg hw) hshut
    obtain ⟨entry, v, hencode, hv, hid, hc⟩ := encode_json topic id c
    have hsend : Client.send now e.client e.channel.partition id c =
        ((Writer.appendEntry e.client.log topic (some 0) entry).1,
          { e.client with log := (Writer.appendEntry e.client.log topic (some 0) entry).2 }) := by
      simp [Client.send, Writer.send, hopen, hschema, hp, hencode, commandPartition]
    rcases appendEntry_zero hs topic entry with ⟨cause, hw, hrej⟩ | ⟨ack, hw, hadds, hack⟩
    · left
      refine ⟨cause, e.channel.interrupts, ?_, ?_⟩
      · simp [enter, hshut, hsend, hw]
      · simpa [enter, hshut, hsend] using hrej
    · right
      refine ⟨ack, e.channel.interrupts, ?_, ⟨entry, ?_, hid, v, hv, hc⟩, ?_⟩
      · simp [enter, hshut, hsend, hw]
      · simpa [enter, hshut, hsend, commandPartition] using hadds
      · simpa [enter, hshut, hsend, commandPartition] using hack

end FirstStep

section Waiting

/-- A call that serves a send has not done anything yet or waits. -/
theorem Channel.Call.Serves.of_send {call : Call SharedLog} {id : CommandId} {c : Command}
    (h : call.Serves (.send id c)) :
    call = .entered (.send id c) ∨ ∃ w interrupts, call = .sent w interrupts := by
  cases call with
  | entered r =>
      cases h
      exact Or.inl rfl
  | sent w interrupts => exact Or.inr ⟨w, interrupts, rfl⟩
  | inLine u => cases h
  | polling purpose timeout restored p => cases h
  | asking ps => cases h
  | closing handle closing => cases h

/-- A send that goes on waiting waits for the same. -/
theorem Channel.Call.awaitAck_waiting {now interrupts : Nat} {e : Endpoint SharedLog} {w : Log.Wait}
    {call : Call SharedLog} (h : (awaitAck now e w interrupts).1 = .waiting call) :
    call = .sent w interrupts := by
  unfold awaitAck at h
  split at h
  · cases h
  · cases h
  · split at h
    · cases h
    · cases h
      rfl

/-- What a result of a send tells about its first step. -/
def SendTells (p : Partition) (id : CommandId) (c : Command) (first : Deed) : Result → Prop
  | .ok reply =>
      reply = .position ⟨p.topic, p.index, (first.before.client.log.written p).length⟩ ∧
        Landed p id c first.before.client.log first.after.client.log
  | .error (.waitCancelled _) => Landed p id c first.before.client.log first.after.client.log
  | .error (.appendFailed cause) =>
      Rejected cause first.before.client.log first.after.client.log
  | .error .closed => first.after = first.before
  | .error (.log _) => False

/-- What a send waits for agrees with what its first step has done. -/
def Awaits (p : Partition) (id : CommandId) (c : Command) (first : Deed) (log : Log) :
    Log.Wait → Prop
  | .known outcome =>
      ∃ cause, outcome = .error (.failed cause) ∧
        Rejected cause first.before.client.log first.after.client.log
  | .ack ack =>
      Landed p id c first.before.client.log first.after.client.log ∧
        log.AckOf ack ⟨p.topic, p.index, (first.before.client.log.written p).length⟩

variable {p : Partition} {id : CommandId} {c : Command} {first : Deed} {log : Log} {w : Log.Wait}

/-- Whatever is done to the log, what is waited for goes on to agree. -/
theorem Awaits.perform (h : Awaits p id c first log w) (op : Log.Operation) :
    Awaits p id c first (log.perform op) w := by
  cases w with
  | known outcome => exact h
  | ack ack => exact ⟨h.1, h.2.perform op⟩

/-- The result of a wait tells what the first step has done. -/
theorem Awaits.tells {now interrupts : Nat} {e : Endpoint SharedLog} {result : Result}
    (h : Awaits p id c first e.client.log w)
    (hr : (Call.awaitAck now e w interrupts).1 = .done result) :
    SendTells p id c first result := by
  cases w with
  | known outcome =>
      obtain ⟨cause, rfl, hrej⟩ := h
      cases hr
      exact hrej
  | ack ack =>
      obtain ⟨hlanded, hack⟩ := h
      have houtcome : Client.outcome now e.client (Log.Wait.ack ack) =
          e.client.log.outcome (.ack ack) := rfl
      unfold Call.awaitAck at hr
      rw [houtcome] at hr
      rcases hack.state with hout | hres | hdrop
      · simp only [Log.outcome, hout] at hr
        split at hr
        · cases hr
          exact hlanded
        · cases hr
      · simp only [Log.outcome, hres] at hr
        cases hr
        exact ⟨rfl, hlanded⟩
      · simp only [Log.outcome, hdrop] at hr
        cases hr
        exact hlanded

end Waiting

namespace Traffic

section Sends

/-- What holds of the sends in the traffic on a channel on the first partition of a topic. -/
structure Sends (topic : String) (t : Traffic) : Prop where
  guarded : t.endpoint.Guarded
  sound : t.endpoint.client.log.Sound
  schema : t.endpoint.client.schema = .json
  partition : t.endpoint.channel.partition = ⟨topic, commandPartition⟩
  closing : ∀ task k, t.tickets task = some k → k.call.Closes →
    t.endpoint.channel.isShutDown = true
  fresh : ∀ task, t.next ≤ task → t.stepsOf task = []
  entered : ∀ task k id c r, t.tickets task = some k → k.request = .send id c →
    k.call = .entered r → t.stepsOf task = []
  waits : ∀ task k id c w interrupts, t.tickets task = some k → k.request = .send id c →
    k.call = .sent w interrupts → ∃ first rest, t.stepsOf task = first :: rest ∧
      (∀ d ∈ rest, d.after = d.before) ∧
      Awaits ⟨topic, commandPartition⟩ id c first t.endpoint.client.log w

variable {topic : String} {t : Traffic} {task : TaskId} {k : Ticket}

/-- What is waited for still agrees after a step of a call. -/
theorem awaits_step {p : Partition} {id : CommandId} {c : Command} {first : Deed} {w : Log.Wait}
    {now : Nat} {me : TaskId} {e : Endpoint SharedLog} {call : Call SharedLog}
    (h : Awaits p id c first e.client.log w) :
    Awaits p id c first (call.step now me e).2.client.log w := by
  rcases Call.step_log now me e call with hsame | ⟨op, hop⟩
  · rw [hsame]
    exact h
  · rw [hop]
    exact h.perform op

/-- The first step of a send in the traffic. -/
theorem Sends.first (h : t.Sends topic) (hk : t.tickets task = some k) (now : Nat)
    {id : CommandId} {c : Command} (hq : k.request = .send id c)
    (hc : k.call = .entered (.send id c)) :
    (t.advance task now k).stepsOf task = [t.deed task now k] ∧
      (∀ result, (t.deed task now k).progress = .done result →
        SendTells ⟨topic, commandPartition⟩ id c (t.deed task now k) result) ∧
      ∀ c', (t.deed task now k).progress = .waiting c' → ∃ w interrupts,
        c' = .sent w interrupts ∧
          Awaits ⟨topic, commandPartition⟩ id c (t.deed task now k)
            (t.deed task now k).after.client.log w := by
  have hsteps : (t.advance task now k).stepsOf task = [t.deed task now k] := by
    rw [stepsOf_advance_self, h.entered task k id c _ hk hq hc]
    rfl
  refine ⟨hsteps, ?_⟩
  obtain ⟨request, call⟩ := k
  cases hc
  have hfirst := Call.enter_send now task h.guarded h.sound h.schema h.partition id c
  have hprogress : (t.deed task now ⟨request, .entered (.send id c)⟩).progress =
      (Call.enter now task t.endpoint (.send id c)).1 := rfl
  rw [hprogress]
  rcases hfirst with hclosed | ⟨cause, interrupts, hw, hrej⟩ | ⟨ack, interrupts, hw, hland, hack⟩
  · rw [hclosed]
    constructor
    · intro result hr
      cases hr
      exact congrArg Prod.snd hclosed
    · intro c' hc'
      cases hc'
  · rw [hw]
    constructor
    · intro result hr
      cases hr
    · intro c' hc'
      cases hc'
      exact ⟨_, _, rfl, cause, rfl, hrej⟩
  · rw [hw]
    constructor
    · intro result hr
      cases hr
    · intro c' hc'
      cases hc'
      exact ⟨_, _, rfl, hland, hack⟩

/-- A later step of a send in the traffic. -/
theorem Sends.later (h : t.Sends topic) (hk : t.tickets task = some k) (now : Nat)
    {id : CommandId} {c : Command} {w : Log.Wait} {interrupts : Nat} (hq : k.request = .send id c)
    (hc : k.call = .sent w interrupts) :
    ∃ first rest, (t.advance task now k).stepsOf task = first :: rest ∧
      (∀ d ∈ rest, d.after = d.before) ∧
      (∀ result, (t.deed task now k).progress = .done result →
        SendTells ⟨topic, commandPartition⟩ id c first result) ∧
      ∀ c', (t.deed task now k).progress = .waiting c' → c' = .sent w interrupts ∧
        Awaits ⟨topic, commandPartition⟩ id c first (t.deed task now k).after.client.log w := by
  obtain ⟨first, rest, hsteps, hrest, hawaits⟩ := h.waits task k id c w interrupts hk hq hc
  obtain ⟨request, call⟩ := k
  cases hc
  have hsame : (t.deed task now ⟨request, .sent w interrupts⟩).after = t.endpoint :=
    Call.awaitAck_endpoint now t.endpoint w interrupts
  refine ⟨first, rest ++ [t.deed task now ⟨request, .sent w interrupts⟩], ?_, ?_, ?_, ?_⟩
  · rw [stepsOf_advance_self, hsteps]
    rfl
  · intro d hd
    rcases List.mem_append.1 hd with hd | hd
    · exact hrest d hd
    · rw [List.mem_singleton] at hd
      subst hd
      exact hsame
  · intro result hr
    exact hawaits.tells hr
  · intro c' hc'
    rw [hsame]
    exact ⟨Call.awaitAck_waiting hc', hawaits⟩

/-- A step of a task keeps what holds of the sends. -/
theorem Sends.advance (h : t.Sends topic) (hs : t.Serving) (ho : t.Ordered)
    (hk : t.tickets task = some k) (now : Nat) : (t.advance task now k).Sends topic := by
  have hf := Call.step_follows now task t.endpoint k.call
  have hlt : ∀ id, t.next ≤ id → id ≠ task := by
    rintro id hle rfl
    rw [ho.fresh id hle] at hk
    cases hk
  refine ⟨?_, ?_, hf.schema.trans h.schema, hf.partition.trans h.partition, ?_, ?_, ?_, ?_⟩
  · intro hclosed
    by_cases hc : k.call.Closes
    · exact Call.step_shutDown k.call (h.closing task k hk hc)
    · have hspares : ∀ closing, k.call ≠ .closing .writer closing := by
        intro closing heq
        rw [heq] at hc
        exact hc trivial
      refine Call.step_shutDown k.call (h.guarded ?_)
      rw [← Call.step_writer now task t.endpoint hspares]
      exact hclosed
  · change (k.call.step now task t.endpoint).2.client.log.Sound
    rcases Call.step_log now task t.endpoint k.call with hsame | ⟨op, hop⟩
    · rw [hsame]
      exact h.sound
    · rw [hop]
      exact Log.perform_sound h.sound op
  · intro id k' hk' hcl
    rcases advance_tickets hk' with ⟨rfl, -, hw⟩ | ⟨-, hold⟩
    · exact Call.step_closes (h.closing id k hk) hw hcl
    · exact Call.step_shutDown k.call (h.closing id k' hold hcl)
  · intro id hle
    rw [stepsOf_advance_of_ne t now k (hlt id hle)]
    exact h.fresh id hle
  · intro id k' cid c r hk' hq hc
    rcases advance_tickets hk' with ⟨rfl, hr, hw⟩ | ⟨hne, hold⟩
    · exfalso
      rw [hr] at hq
      have hserves := hs id k hk
      rw [hq] at hserves
      rcases hserves.of_send with hcall | ⟨w, interrupts, hcall⟩
      · obtain ⟨w, interrupts, hsent, -⟩ := (h.first hk now hq hcall).2.2 _ hw
        rw [hsent] at hc
        cases hc
      · obtain ⟨first, rest, -, -, -, hwait⟩ := h.later hk now hq hcall
        rw [(hwait _ hw).1] at hc
        cases hc
    · rw [stepsOf_advance_of_ne t now k hne]
      exact h.entered id k' cid c r hold hq hc
  · intro id k' cid c w interrupts hk' hq hc
    rcases advance_tickets hk' with ⟨rfl, hr, hw⟩ | ⟨hne, hold⟩
    · rw [hr] at hq
      have hserves := hs id k hk
      rw [hq] at hserves
      rcases hserves.of_send with hcall | ⟨w', interrupts', hcall⟩
      · obtain ⟨hsteps, -, hwait⟩ := h.first hk now hq hcall
        obtain ⟨w', interrupts', hsent, hawaits⟩ := hwait _ hw
        rw [hsent] at hc
        cases hc
        exact ⟨_, [], hsteps, by simp, hawaits⟩
      · obtain ⟨first, rest, hsteps, hrest, -, hwait⟩ := h.later hk now hq hcall
        obtain ⟨hsent, hawaits⟩ := hwait _ hw
        rw [hsent] at hc
        cases hc
        exact ⟨first, rest, hsteps, hrest, hawaits⟩
    · rw [stepsOf_advance_of_ne t now k hne]
      obtain ⟨first, rest, hsteps, hrest, hawaits⟩ := h.waits id k' cid c w interrupts hold hq hc
      exact ⟨first, rest, hsteps, hrest, awaits_step hawaits⟩

/-- What leaves the tickets and the steps, and does nothing or one operation on the log, keeps what
holds of the sends. -/
theorem Sends.of_log {e : Endpoint SharedLog} (h : t.Sends topic)
    (hlog : e.client.log = t.endpoint.client.log ∨
      ∃ op, e.client.log = t.endpoint.client.log.perform op)
    (hwriter : e.client.writer = t.endpoint.client.writer)
    (hschema : e.client.schema = t.endpoint.client.schema)
    (hpartition : e.channel.partition = t.endpoint.channel.partition)
    (hshut : e.channel.isShutDown = t.endpoint.channel.isShutDown) :
    ({ t with endpoint := e } : Traffic).Sends topic := by
  refine ⟨?_, ?_, hschema.trans h.schema, hpartition.trans h.partition, ?_, h.fresh, h.entered, ?_⟩
  · intro hclosed
    rw [hwriter] at hclosed
    exact hshut.trans (h.guarded hclosed)
  · change e.client.log.Sound
    rcases hlog with hsame | ⟨op, hop⟩
    · rw [hsame]
      exact h.sound
    · rw [hop]
      exact Log.perform_sound h.sound op
  · intro task k hk hcl
    exact hshut.trans (h.closing task k hk hcl)
  · intro task k id c w interrupts hk hq hc
    obtain ⟨first, rest, hsteps, hrest, hawaits⟩ := h.waits task k id c w interrupts hk hq hc
    refine ⟨first, rest, hsteps, hrest, ?_⟩
    change Awaits _ id c first e.client.log w
    rcases hlog with hsame | ⟨op, hop⟩
    · rw [hsame]
      exact hawaits
    · rw [hop]
      exact hawaits.perform op

/-- Every move keeps what holds of the sends. -/
theorem Sends.perform (h : t.Sends topic) (hs : t.Serving) (ho : t.Ordered) (m : Move) :
    (t.perform m).Sends topic := by
  cases m with
  | step task now =>
      simp only [Traffic.perform]
      split
      next k hk => exact h.advance hs ho hk now
      next => exact h
  | interrupt now => exact h.of_log (Or.inl rfl) rfl rfl rfl rfl
  | onLog op => exact h.of_log (Or.inr ⟨op, rfl⟩) rfl rfl rfl rfl
  | enter r =>
      refine ⟨h.guarded, h.sound, h.schema, h.partition, ?_, ?_, ?_, ?_⟩
      · intro id k hk hcl
        rcases put_cases hk with ⟨-, hnew⟩ | ⟨-, hold⟩
        · cases hnew
          cases hcl
        · exact h.closing id k hold hcl
      · intro id hle
        exact h.fresh id (Nat.le_of_succ_le hle)
      · intro id k cid c r' hk hq hc
        rcases put_cases hk with ⟨hid, -⟩ | ⟨-, hold⟩
        · exact h.fresh id (Nat.le_of_eq hid.symm)
        · exact h.entered id k cid c r' hold hq hc
      · intro id k cid c w interrupts hk hq hc
        rcases put_cases hk with ⟨-, hnew⟩ | ⟨-, hold⟩
        · cases hnew
          cases hc
        · exact h.waits id k cid c w interrupts hold hq hc
  | abandon task =>
      simp only [Traffic.perform]
      split
      · have hleft := h.of_log (e := t.endpoint.leave task) (Or.inl rfl) rfl rfl rfl rfl
        refine ⟨hleft.guarded, hleft.sound, hleft.schema, hleft.partition, ?_, hleft.fresh, ?_, ?_⟩
        · intro id k hk hcl
          rcases put_cases hk with ⟨-, hnew⟩ | ⟨-, hold⟩
          · cases hnew
          · exact hleft.closing id k hold hcl
        · intro id k cid c r hk hq hc
          rcases put_cases hk with ⟨-, hnew⟩ | ⟨-, hold⟩
          · cases hnew
          · exact hleft.entered id k cid c r hold hq hc
        · intro id k cid c w interrupts hk hq hc
          rcases put_cases hk with ⟨-, hnew⟩ | ⟨-, hold⟩
          · cases hnew
          · exact hleft.waits id k cid c w interrupts hold hq hc
      · exact h

/-- After any moves what holds of the sends on a new channel still does. -/
theorem run_sends (h : t.Sound) (hsends : t.Sends topic) (moves : List Move) :
    (t.run moves).Sends topic := by
  have hall : (t.run moves).Sound ∧ (t.run moves).Sends topic :=
    run_induction (P := fun t => t.Sound ∧ t.Sends topic) ⟨h, hsends⟩
      (fun _ m h => ⟨h.1.perform m, h.2.perform h.1.serving h.1.ordered m⟩) moves
  exact hall.2

theorem sends_opened {log : Log} (h : log.Sound) (topic : String) :
    Sends topic { endpoint := .opened log .json topic } := by
  refine ⟨fun hclosed => ?_, h, rfl, rfl, fun task k hk => ?_, fun _ _ => rfl,
    fun _ _ _ _ _ _ _ _ => rfl, fun task k _ _ _ _ hk => ?_⟩
  · cases hclosed
  · cases hk
  · cases hk

/-- In the traffic on a new channel with commands in JSON, on a log that has been used in any way,
the outcome of a send tells what its first step has done, and no other step of it has done anything:
a position tells where the entry has landed; a cancelled wait that it has landed as well; a failed
append that nothing has been added and which rejection has been used up; and a channel that is shut
down that nothing has been done.  There is no other outcome. -/
theorem send_tells_truth {settings : Log.Settings} {ops : List Log.Operation} {topic : String}
    {now : Nat} {e : Endpoint SharedLog} {client : SharedLog}
    (hmake : Endpoint.make now { log := .ofOperations settings ops, schema := .json } topic =
      (.ok e, client)) (moves : List Move) :
    let t := run { endpoint := e } moves
    ∀ d ∈ t.deeds, ∀ id c result, d.request = .send id c → d.progress = .done result →
      ∃ first rest, t.stepsOf d.task = first :: rest ∧
        (∀ later ∈ rest, later.after = later.before) ∧
        SendTells ⟨topic, commandPartition⟩ id c first result := by
  intro t d hd id c result hq hr
  have hs : Sound { endpoint := e } := sound_of_make hmake
  rw [Endpoint.make_opened] at hmake
  cases hmake
  have hsends := sends_opened (Log.ofOperations_sound settings ops) topic
  obtain ⟨pre, post, hsplit⟩ := List.append_of_mem hd
  have hlast := run_last hs.ordered rfl hsplit hr
  obtain ⟨first, task, now', k, -, hpre, hk, rfl⟩ := run_deeds rfl hsplit
  -- the steps of the task are those before its last one, and that one
  have hsteps : t.stepsOf task =
      ((run { endpoint := .opened (.ofOperations settings ops) .json topic } first).advance
        task now' k).stepsOf task := by
    rw [stepsOf_advance_self, stepsOf, show t.deeds = _ from hsplit, ← hpre, List.filter_append,
      List.filter_cons]
    have hnone : post.filter (fun d => d.task == task) = [] :=
      List.filter_eq_nil_iff.2 fun d' hd' => by
        have hne : d'.task ≠ task := hlast d' hd'
        simpa using hne
    rw [hnone]
    simp [stepsOf, deed]
  have hfirst := run_sends hs hsends first
  have hserves := (run_sound hs first).serving task k hk
  have hrequest : k.request = _ := hq
  rw [hrequest] at hserves
  change ∃ first rest, t.stepsOf task = first :: rest ∧ _
  rw [hsteps]
  rcases hserves.of_send with hcall | ⟨w, interrupts, hcall⟩
  · obtain ⟨hone, htells, -⟩ := hfirst.first hk now' hq hcall
    exact ⟨_, [], hone, by simp, htells result hr⟩
  · obtain ⟨firstStep, rest, hmore, hrest, htells, -⟩ := hfirst.later hk now' hq hcall
    exact ⟨firstStep, rest, hmore, hrest, htells result hr⟩

/-- Before the channel is made a topic of two partitions is, a rejection is lined up, and
acknowledgments are held back. -/
def sendSampleOps : List Log.Operation :=
  [.createTopic "commands" 2, .failNext ⟨"Timeout", "no answer", false⟩, .hold]

/-- Four commands are sent: the first one is rejected, the second one interrupted, the third one
acknowledged, and the last one comes after the shutdown. -/
def sendSampleMoves : List Move :=
  let send : Move := .enter (.send ⟨.table, "users", .create, by decide⟩ { statement := "CREATE" })
  [send, .step 0 0, .step 0 0, send, .step 1 0, .interrupt 0, .step 1 0, send, .step 2 0,
    .onLog .release, .step 2 0, .enter .shutDown, .step 3 0, send, .step 4 0]

/-- The traffic of the sends. -/
def sendSample : Traffic :=
  run { endpoint := .opened (.ofOperations {} sendSampleOps) .json "commands" } sendSampleMoves

/-- What a step has brought, if it was the last one of its task. -/
def result? (d : Deed) : Option Result :=
  match d.progress with
  | .done result => some result
  | .waiting _ => none

/-- In the sample a send comes to each of the four outcomes, and each tells the truth. -/
theorem send_tells_truth_sample :
    sendSample.deeds.filterMap result? =
        [.error (.appendFailed ⟨"Timeout", "no answer", false⟩), .error .interrupted,
          .ok (.position ⟨"commands", 0, 1⟩), .error .closed] ∧
      ∀ d ∈ sendSample.deeds, ∀ id c result, d.request = .send id c →
        d.progress = .done result →
          ∃ first rest, sendSample.stepsOf d.task = first :: rest ∧
            (∀ later ∈ rest, later.after = later.before) ∧
            SendTells ⟨"commands", commandPartition⟩ id c first result := by
  refine ⟨rfl, ?_⟩
  unfold sendSample
  exact send_tells_truth
    (Endpoint.make_opened 0 (.ofOperations {} sendSampleOps) .json "commands") sendSampleMoves

end Sends

end Traffic
end ReplicatedLog
