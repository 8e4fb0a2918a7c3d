import ReplicatedLog.Proofs.Channel.Send
import ReplicatedLog.Proofs.Desk.Failing
import ReplicatedLog.Proofs.Log.Addressing
import ReplicatedLog.Proofs.Log.Outlook

/-!
# The partition of a channel is there

A channel uses the first partition of its topic, and every topic has a first partition.  A send
brings the topic into being if it has to, and a poll finds nothing in a topic that is not there yet.
So no task on a channel is ever told that its partition is not there, unless others line up such a
rejection.

* `Writer.Refuses.linedUp_of_unhosted` and `Reader.stepPoll_ne_unknownPartition`: what holds of one
  send and of one step of a poll;
* `Log.MadeBy`: a log that operations have made, which are all of a given kind;
* `Log.Awaits`: what a send waits for comes to a rejection that tells of a missing partition only if
  operations of this kind may line it up;
* `Traffic.Hosted` is what holds of the traffic on a channel, and `run_hosted`: it still does after
  any moves;
* `partitions_addressable`: every partition of the log can be addressed, and that of a channel is
  there.

This rests on a poll being one step until it waits.  Between the single accesses of `Exchange`, the
topic may come into being after a poll has failed to find the partition and before it looks whether
the topic is there: such a poll is told that the partition is not, though by then it is.
-/

namespace ReplicatedLog

open Channel

section Rejections

/-- The rejection tells of a partition that is not there. -/
def Rejection.IsUnhosted (cause : Rejection) : Prop :=
  cause.kind = "UnknownTopicOrPartition"

namespace Writer

variable {κ ν : Type} {schema : Schema κ ν} {log : Log} {topic : String} {key : κ}
  {value : Option ν} {cause : Rejection}

theorem encode_fails (h : encode schema topic key value = .error cause) :
    ∃ part err, cause = encodingRejection part topic err := by
  unfold encode at h
  cases hkey : schema.key.encode key with
  | error err =>
      rw [hkey] at h
      cases h
      exact ⟨_, _, rfl⟩
  | ok k =>
      rw [hkey] at h
      cases value with
      | none => cases h
      | some v =>
          cases hvalue : schema.value.encode v with
          | error err =>
              simp only [Except.mapError, hvalue, bind, Except.bind] at h
              cases h
              exact ⟨_, _, rfl⟩
          | ok v => simp [Except.mapError, hvalue, bind, Except.bind, pure, Except.pure] at h

/-- A send to the first partition of a topic is told that the partition is not there only if this is
lined up. -/
theorem Refuses.linedUp_of_unhosted {w : Writer} {after : Log} (hlog : log.HasPartitions)
    (h : w.Refuses schema log topic (some 0) key value cause after) (hkind : cause.IsUnhosted) :
    cause ∈ log.failures := by
  cases h with
  | closed shut =>
      have hnot : ¬ closedRejection.kind = "UnknownTopicOrPartition" := by decide
      exact absurd hkind hnot
  | unencodable opened fails =>
      obtain ⟨part, err, rfl⟩ := encode_fails fails
      have hnot : ¬ "Serialization" = "UnknownTopicOrPartition" := by decide
      exact absurd hkind hnot
  | linedUp opened encodes front =>
      rw [front]
      exact List.mem_cons_self
  | @outside e n i opened encodes unfailing sent count beyond =>
      cases sent
      obtain ⟨partitions, hps⟩ := Log.ensureTopic_get?_self log topic
      rw [Log.partitionCount, hps, Option.map_some, Option.some.injEq] at count
      have hnone : partitions = [] := List.length_eq_zero_iff.1 (by omega)
      exact absurd hnone (Log.createTopic_hasPartitions hlog topic _ topic partitions hps)

end Writer

namespace Log

variable {log : Log} {cause : Rejection}

theorem append_failures_subset (log : Log) (topic : String) (index : Option Nat) (e : Entry) :
    (log.append topic index e).2.failures ⊆ log.failures := by
  cases hf : log.failures with
  | cons first later =>
      rw [append_of_rejection hf]
      exact List.subset_cons_self first later
  | nil =>
      have hmade : (log.ensureTopic topic).failures = [] := by
        rw [ensureTopic_rest, hf]
      simp only [append, hf]
      split <;> exact List.subset_nil.2 hmade

theorem acknowledge_failures (log : Log) (q : Position) :
    (log.acknowledge q).2.failures = log.failures := by
  unfold acknowledge
  dsimp only
  split <;> rfl

/-- Only lining one up adds to the rejections that are lined up. -/
theorem perform_failures {op : Operation} (h : cause ∈ (log.perform op).failures) :
    cause ∈ log.failures ∨ op = .failNext cause := by
  cases op with
  | createTopic topic partitions =>
      rw [perform, createTopic] at h
      split at h <;> exact Or.inl h
  | failNext first =>
      rcases List.mem_append.1 h with h | h
      · exact Or.inl h
      · rw [List.mem_singleton.1 h]
        exact Or.inr rfl
  | hold => exact Or.inl h
  | release => exact Or.inl h
  | abandon => exact Or.inl h
  | append topic index e =>
      left
      refine append_failures_subset log topic index e ?_
      rw [perform, Writer.appendEntry] at h
      split at h
      next q after ha =>
        rw [ha]
        exact acknowledge_failures after q ▸ h
      next cause' after ha =>
        rw [ha]
        exact h

theorem foldl_perform_failures {ops : List Operation} :
    ∀ {log : Log}, cause ∈ (ops.foldl perform log).failures →
      cause ∈ log.failures ∨ .failNext cause ∈ ops := by
  induction ops with
  | nil => exact fun h => Or.inl h
  | cons op ops ih =>
      intro log h
      rcases ih h with h | h
      · rcases perform_failures h with h | rfl
        · exact Or.inl h
        · exact Or.inr List.mem_cons_self
      · exact Or.inr (List.mem_cons_of_mem _ h)

/-- The log is what operations that may be done make of a new one. -/
def MadeBy (log : Log) (settings : Settings) (may : Operation → Prop) : Prop :=
  ∃ ops, log = .ofOperations settings ops ∧ ∀ op ∈ ops, may op

namespace MadeBy

variable {settings : Settings} {may : Operation → Prop}

theorem perform (h : log.MadeBy settings may) {op : Operation} (hop : may op) :
    (log.perform op).MadeBy settings may := by
  obtain ⟨ops, rfl, hops⟩ := h
  refine ⟨ops ++ [op], ?_, fun other hother => ?_⟩
  · rw [ofOperations, ofOperations, List.foldl_append]
    rfl
  · rcases List.mem_append.1 hother with hold | hnew
    · exact hops other hold
    · rw [List.mem_singleton.1 hnew]
      exact hop

theorem sound (h : log.MadeBy settings may) : log.Sound := by
  obtain ⟨ops, rfl, -⟩ := h
  exact ofOperations_sound settings ops

theorem failures (h : log.MadeBy settings may) (hcause : cause ∈ log.failures) :
    may (.failNext cause) := by
  obtain ⟨ops, rfl, hops⟩ := h
  exact hops _ ((foldl_perform_failures hcause).resolve_left List.not_mem_nil)

end MadeBy

/-- What a send waits for is the acknowledgment of an entry, or it is known to be a failure that
tells of a partition that is not there only if this may be lined up. -/
def Awaits (log : Log) (may : Operation → Prop) : Wait → Prop
  | .known outcome =>
      ∃ cause, outcome = .error (.failed cause) ∧ (cause.IsUnhosted → may (.failNext cause))
  | .ack id => ∃ q, log.AckOf id q

variable {settings : Settings} {may : Operation → Prop} {w : Wait}

theorem Awaits.perform (h : log.Awaits may w) (op : Operation) : (log.perform op).Awaits may w := by
  cases w with
  | known outcome => exact h
  | ack id =>
      obtain ⟨q, hq⟩ := h
      exact ⟨q, hq.perform op⟩

theorem Awaits.of_failed (h : log.Awaits may w)
    (hfails : log.outcome w = some (.error (.failed cause))) (hkind : cause.IsUnhosted) :
    may (.failNext cause) := by
  cases w with
  | known outcome =>
      obtain ⟨cause', rfl, hlined⟩ := h
      cases hfails
      exact hlined hkind
  | ack id =>
      obtain ⟨q, hq⟩ := h
      rcases hq.state with hout | hres | hdrop
      · simp [outcome, hout] at hfails
      · simp [outcome, hres] at hfails
      · simp [outcome, hdrop, AckError.abandoned] at hfails

/-- What a send to the first partition of a topic waits for. -/
theorem MadeBy.awaits_send {κ ν : Type} (h : log.MadeBy settings may) (w : Writer)
    (schema : Schema κ ν) (topic : String) (key : κ) (value : Option ν) :
    (w.send schema log topic (some 0) key value).2.Awaits may
      (w.send schema log topic (some 0) key value).1 := by
  have hpromises := (Writer.send_lands h.sound w schema topic (some 0) key value).1
  cases hwait : (w.send schema log topic (some 0) key value).1 with
  | known outcome =>
      rw [hwait] at hpromises
      obtain ⟨-, cause, rfl⟩ := hpromises
      have hrefuses := Writer.refuses_of_known h.sound.partitions hwait
      exact ⟨cause, rfl, fun hkind =>
        h.failures (hrefuses.linedUp_of_unhosted h.sound.partitions hkind)⟩
  | ack id =>
      rw [hwait] at hpromises
      obtain ⟨q, -, -, hq⟩ := hpromises
      exact ⟨q, hq⟩

end Log

end Rejections

section Reading

variable {κ ν : Type} {schema : Schema κ ν} {log : Log} {r : Reader} {p : Partition} {n : Nat}

/-- The first partition of a topic is not missing from a log that has the topic. -/
theorem Reader.Unreadable.ne_unknownPartition {err : LogError} (hlog : log.HasPartitions)
    (hp : p.index = 0) (h : Reader.Unreadable schema log p err) (q : Partition) :
    err ≠ .unknownPartition q := by
  cases h with
  | missing topic gone =>
      have hread : log.read p 0 0 = none := by
        rw [Log.read, gone, Option.map_none]
      exact absurd (Log.partitionCount_of_read_eq_none hlog hp hread) topic
  | garbled entry decode => simp

/-- A poll of the first partition of a topic never fails for want of it. -/
theorem Reader.stepPoll_ne_unknownPartition (hlog : log.HasPartitions) (hp : p.index = 0)
    (h : r.At p n) (now : Nat) (poll : Reader.Poll) {err : LogError}
    (hfails : (r.stepPoll schema now log poll).1 = .done (.error err)) (q : Partition) :
    err ≠ .unknownPartition q := by
  rcases Reader.stepPoll_ends schema now log r poll with ⟨poll', hgoes⟩ |
    ⟨result, r', hends, hresult⟩
  · rw [hgoes] at hfails
    cases hfails
  · rw [hends] at hfails
    cases hfails
    rcases hresult.of_error.2 with rfl | rfl | ⟨⟨p', hp', hunreadable⟩, -⟩
    · simp
    · simp
    · have hentries : r.positions.entries = [(p, n)] := h
      have honly : p' = p := by
        simpa [Reader.assignment, SortedMap.keys, hentries] using hp'
      exact hunreadable.ne_unknownPartition hlog (honly ▸ hp) q

end Reading

namespace Channel.Call

variable {e : Endpoint SharedLog} {n : Nat}

/-- A failure of the reader that is not for want of a partition is not told as one. -/
theorem ofLog_ne_unknownPartition {err : LogError} (h : ∀ q, err ≠ .unknownPartition q)
    (q : Partition) : Error.ofLog err ≠ .log (.unknownPartition q) := by
  cases err with
  | unknownPartition p => exact absurd rfl (h p)
  | wakeup => simp [Error.ofLog]
  | closed => simp [Error.ofLog]
  | notAssigned p => simp [Error.ofLog]
  | codec e => simp [Error.ofLog]
  | transport reason => simp [Error.ofLog]

theorem rewind_ne_unknownPartition (now : Nat) (me : TaskId) (hat : e.ReaderAt n)
    (withOffsets : Bool) (timeout : Nat) (q : Partition) :
    (rewind now me e withOffsets timeout).1 ≠ .done (.error (.log (.unknownPartition q))) := by
  simp only [rewind, Client.seekToBeginning]
  rcases Reader.seekToBeginning_at hat with ⟨hok, -⟩ | ⟨hclosed, -⟩
  · rw [hok]
    simp
  · rw [hclosed]
    simp [finish, Error.ofLog]

theorem takeBatch_ne_error (me : TaskId) (e : Endpoint SharedLog) (timeout : Nat)
    (restored : List QueuedCommand) (b : CommandBatch) (purpose : Purpose) (err : Error) :
    (takeBatch me e timeout restored b purpose).1 ≠ .done (.error err) := by
  cases purpose with
  | batch => simp [takeBatch, finish]
  | commands => simp [takeBatch, finish]
  | replay withOffsets =>
      simp only [takeBatch]
      split <;> simp [finish]

/-- A poll or a replay is not told that the partition is not there. -/
theorem step_ne_unknownPartition (now : Nat) (me : TaskId) (hlog : e.client.log.HasPartitions)
    (hp : e.channel.partition.index = 0) (hat : e.ReaderAt n) {c : Call SharedLog}
    {purpose : Purpose} {timeout : Nat} (hs : c.Serves (.use (.poll purpose timeout)))
    (q : Partition) : (c.step now me e).1 ≠ .done (.error (.log (.unknownPartition q))) := by
  cases c with
  | entered r =>
      obtain rfl : r = _ := hs
      simp only [step, enter]
      split <;> simp
  | sent w interrupts =>
      obtain ⟨id, c, hsend⟩ := hs
      cases hsend
  | asking ps => cases hs
  | closing handle closing => cases hs
  | inLine u =>
      cases hs
      simp only [step]
      split
      · cases purpose with
        | batch => simp [useReader]
        | commands => simp [useReader]
        | replay withOffsets => exact rewind_ne_unknownPartition now me hat withOffsets timeout q
      · simp
  | polling purpose' timeout' restored p =>
      have hpoll : ∀ err,
          (e.client.reader.stepPoll e.client.schema now e.client.log p).1 = .done (.error err) →
            ∀ q, err ≠ .unknownPartition q := fun err hfails =>
        Reader.stepPoll_ne_unknownPartition hlog hp hat now p hfails
      simp only [step, Client.stepPoll]
      rcases hstep : e.client.reader.stepPoll e.client.schema now e.client.log p with ⟨progress, r⟩
      rw [hstep] at hpoll
      cases progress with
      | waiting p' => simp
      | done result =>
          cases result with
          | ok b => exact takeBatch_ne_error me _ timeout' restored b purpose' _
          | error err =>
              have hne := ofLog_ne_unknownPartition (hpoll err rfl) q
              simpa [finish] using hne

/-- A send is told that the partition is not there only if it waits for this. -/
theorem step_send_unhosted {may : Log.Operation → Prop} {now : Nat} {me : TaskId}
    {c : Call SharedLog}
    {id : CommandId} {command : Command} {cause : Rejection} (hs : c.Serves (.send id command))
    (hwaits : ∀ w interrupts, c = .sent w interrupts → e.client.log.Awaits may w)
    (h : (c.step now me e).1 = .done (.error (.appendFailed cause))) (hkind : cause.IsUnhosted) :
    may (.failNext cause) := by
  rcases hs.of_send with rfl | ⟨w, interrupts, rfl⟩
  · simp only [step, enter] at h
    split at h <;> cases h
  · have houtcome : Client.outcome now e.client w = e.client.log.outcome w := rfl
    simp only [step, awaitAck, houtcome] at h
    split at h
    · cases h
    next err herr =>
      cases err with
      | interrupted reason => cases h
      | failed cause' =>
          cases h
          exact (hwaits w interrupts rfl).of_failed herr hkind
    · split at h <;> cases h

end Channel.Call

namespace Traffic

section Hosting

/-- What holds of the traffic on a channel on the first partition of a topic. -/
structure Hosted (settings : Log.Settings) (may : Log.Operation → Prop) (t : Traffic) : Prop where
  log : t.endpoint.client.log.MadeBy settings may
  first : t.endpoint.channel.partition.index = 0
  waits : ∀ task k w interrupts, t.tickets task = some k → k.call = .sent w interrupts →
    t.endpoint.client.log.Awaits may w

variable {settings : Log.Settings} {may : Log.Operation → Prop} {t : Traffic} {task : TaskId}
  {k : Ticket}

/-- The first step of a send leaves it waiting. -/
theorem Hosted.enter_awaits (h : t.Hosted settings may) (now : Nat) (task : TaskId) (id : CommandId)
    (c : Command) {w : Log.Wait} {interrupts : Nat}
    (hw : (Call.enter now task t.endpoint (.send id c)).1 = .waiting (.sent w interrupts)) :
    (Call.enter now task t.endpoint (.send id c)).2.client.log.Awaits may w := by
  unfold Call.enter at hw ⊢
  split at hw
  · cases hw
  next hopen =>
    rw [if_neg hopen]
    have hawaits := h.log.awaits_send t.endpoint.client.writer t.endpoint.client.schema
      t.endpoint.channel.partition.topic id (some c)
    rw [← h.first] at hawaits
    cases hw
    exact hawaits

/-- What a call waits for after a step, if it waits for an acknowledgment. -/
theorem Hosted.step_awaits (h : t.Hosted settings may) (hk : t.tickets task = some k)
    (hs : k.call.Serves k.request) (now : Nat) {w : Log.Wait} {interrupts : Nat}
    (hw : (k.call.step now task t.endpoint).1 = .waiting (.sent w interrupts)) :
    (k.call.step now task t.endpoint).2.client.log.Awaits may w := by
  obtain ⟨id, c, hq⟩ : ∃ id c, k.request = .send id c := Call.step_serves hs hw
  rw [hq] at hs
  rcases hs.of_send with hc | ⟨w', interrupts', hc⟩
  · rw [hc] at hw ⊢
    exact h.enter_awaits now task id c hw
  · have hawaits := h.waits task k w' interrupts' hk hc
    rw [hc] at hw ⊢
    have hsame : (Call.step now task t.endpoint (.sent w' interrupts')).2 = t.endpoint :=
      Call.awaitAck_endpoint now t.endpoint w' interrupts'
    rw [hsame]
    cases Call.awaitAck_waiting hw
    exact hawaits

theorem Hosted.advance (h : t.Hosted settings may)
    (happend : ∀ topic index e, may (.append topic index e)) (hs : t.Serving)
    (hk : t.tickets task = some k) (now : Nat) : (t.advance task now k).Hosted settings may := by
  have hpartition := (Call.step_follows now task t.endpoint k.call).partition
  refine ⟨?log, (congrArg Partition.index hpartition).trans h.first, ?waits⟩
  case log =>
    change (k.call.step now task t.endpoint).2.client.log.MadeBy settings may
    rcases Call.step_appends now task t.endpoint k.call with hsame | ⟨topic, index, entry, hop⟩
    · rw [hsame]
      exact h.log
    · rw [hop]
      exact h.log.perform (happend topic index entry)
  case waits =>
    intro id k' w interrupts hk' hc
    change (k.call.step now task t.endpoint).2.client.log.Awaits may w
    rcases advance_tickets hk' with ⟨rfl, -, hown⟩ | ⟨-, hold⟩
    · rw [hc] at hown
      exact h.step_awaits hk (hs id k hk) now hown
    · have hawaits := h.waits id k' w interrupts hold hc
      rcases Call.step_log now task t.endpoint k.call with hsame | ⟨op, hop⟩
      · rw [hsame]
        exact hawaits
      · rw [hop]
        exact hawaits.perform op

theorem Hosted.perform (h : t.Hosted settings may)
    (happend : ∀ topic index e, may (.append topic index e)) (hs : t.Serving) {m : Move}
    (hm : ∀ op, m = .onLog op → may op) : (t.perform m).Hosted settings may := by
  cases m with
  | enter r =>
      refine ⟨h.log, h.first, fun task k w interrupts hk hc => ?_⟩
      rcases put_cases hk with ⟨-, hnew⟩ | ⟨-, hold⟩
      · cases hnew
        cases hc
      · exact h.waits task k w interrupts hold hc
  | step task now =>
      simp only [Traffic.perform]
      split
      next k hk => exact h.advance happend hs hk now
      next => exact h
  | abandon task =>
      simp only [Traffic.perform]
      split
      · refine ⟨h.log, h.first, fun id k w interrupts hk hc => ?_⟩
        rcases put_cases hk with ⟨-, hnew⟩ | ⟨-, hold⟩
        · cases hnew
        · exact h.waits id k w interrupts hold hc
      · exact h
  | interrupt now => exact ⟨h.log, h.first, h.waits⟩
  | onLog op =>
      refine ⟨h.log.perform (hm op rfl), h.first, fun task k w interrupts hk hc => ?_⟩
      exact (h.waits task k w interrupts hk hc).perform op

/-- After any moves what holds of the traffic on a new channel still does, if tasks may append and
others may do what they do. -/
theorem run_hosted (h : t.Hosted settings may)
    (happend : ∀ topic index e, may (.append topic index e)) (hs : t.Sound) {moves : List Move}
    (hm : ∀ op, .onLog op ∈ moves → may op) : (t.run moves).Hosted settings may := by
  induction moves generalizing t with
  | nil => exact h
  | cons m moves ih =>
      have hnext := h.perform happend hs.serving fun op hop => hm op (hop ▸ List.mem_cons_self)
      exact ih hnext (hs.perform m) fun op hop => hm op (List.mem_cons_of_mem m hop)

theorem hosted_of_make {ops : List Log.Operation} (hops : ∀ op ∈ ops, may op) {now : Nat}
    {client client' : SharedLog} {topic : String} {e : Endpoint SharedLog}
    (hlog : client.log = .ofOperations settings ops)
    (hmake : Endpoint.make now client topic = (.ok e, client')) :
    Hosted settings may { endpoint := e } := by
  have hsame : e.client.log = .ofOperations settings ops :=
    (Endpoint.make_client hmake).1.trans hlog
  have hfirst := congrArg Partition.index (Endpoint.make_readerAt hmake).1
  refine ⟨⟨ops, hsame, hops⟩, hfirst, fun task k w interrupts hk => ?_⟩
  cases hk

/-- A step does not end with the news that the partition of the channel is not there, unless others
have lined up a rejection that says so. -/
structure Finds (lined : Rejection → Prop) (d : Deed) : Prop where
  sends : ∀ id c cause, d.request = .send id c →
    d.progress = .done (.error (.appendFailed cause)) → cause.IsUnhosted → lined cause
  polls : ∀ purpose timeout p, d.request = .use (.poll purpose timeout) →
    d.progress ≠ .done (.error (.log (.unknownPartition p)))

theorem Hosted.finds (h : t.Hosted settings may) (hs : t.Sound) (hk : t.tickets task = some k)
    (now : Nat) : Finds (fun cause => may (.failNext cause)) (t.deed task now k) := by
  have hserves := hs.serving task k hk
  constructor
  · intro id c cause hq hfails hkind
    have hrequest : k.request = .send id c := hq
    rw [hrequest] at hserves
    have hwaits := fun w interrupts hc => h.waits task k w interrupts hk hc
    exact Call.step_send_unhosted hserves hwaits hfails hkind
  · intro purpose timeout p hq
    have hrequest : k.request = .use (.poll purpose timeout) := hq
    rw [hrequest] at hserves
    obtain ⟨n, hat⟩ := hs.reads.reader
    exact Call.step_ne_unknownPartition now task h.log.sound.partitions h.first hat hserves p

/-- Someone has lined a rejection up, before the channel was made or since then. -/
def LinedUp (ops : List Log.Operation) (moves : List Move) (cause : Rejection) : Prop :=
  .failNext cause ∈ ops ∨ .onLog (.failNext cause) ∈ moves

/-- On the logs that operations make, every partition can be addressed, whatever numbers of
partitions the settings and the operations ask for, and so it is during all the traffic on a channel
with such a log.  No send there is told that the partition of the channel is not there, unless
someone has lined this up, and no poll or replay is. -/
theorem partitions_addressable {settings : Log.Settings} {ops : List Log.Operation}
    (hsettings : settings.defaultPartitions < 2 ^ 32) (hops : ∀ op ∈ ops, op.InRange) :
    (Log.ofOperations settings ops).Addressable ∧
      ∀ (now : Nat) (client client' : SharedLog) (topic : String) (e : Endpoint SharedLog),
        client.log = .ofOperations settings ops →
        Endpoint.make now client topic = (.ok e, client') →
        ∀ moves, let t := run { endpoint := e } moves
          ((∀ op, .onLog op ∈ moves → op.InRange) → t.endpoint.client.log.Addressable) ∧
            ∀ d ∈ t.deeds, Finds (LinedUp ops moves) d := by
  refine ⟨Log.ofOperations_addressable hsettings hops, ?_⟩
  intro now client client' topic e hlog hmake moves
  have hs : Sound { endpoint := e } := sound_of_make hmake
  constructor
  · intro hmoves
    have hstart : Hosted settings Log.Operation.InRange { endpoint := e } :=
      hosted_of_make hops hlog hmake
    obtain ⟨more, hmore, hall⟩ := (run_hosted hstart (fun _ _ _ => trivial) hs hmoves).log
    rw [hmore]
    exact Log.ofOperations_addressable hsettings hall
  · intro d hd
    -- the operations that others have done; besides them there are only the appends of tasks
    let may : Log.Operation → Prop := fun op =>
      (∀ cause, op ≠ .failNext cause) ∨ op ∈ ops ∨ .onLog op ∈ moves
    obtain ⟨pre, post, hsplit⟩ := List.append_of_mem hd
    obtain ⟨first, task, now', k, hfirst, -, hk, rfl⟩ := run_deeds rfl hsplit
    have hstart : Hosted settings may { endpoint := e } :=
      hosted_of_make (fun op hop => Or.inr (Or.inl hop)) hlog hmake
    have hhosted := run_hosted hstart (fun _ _ _ => Or.inl nofun) hs fun op hop =>
      Or.inr (Or.inr (hfirst.subset hop))
    have hfinds := hhosted.finds (run_sound hs first) hk now'
    refine ⟨fun id c cause hq hfails hkind => ?_, hfinds.polls⟩
    exact (hfinds.sends id c cause hq hfails hkind).resolve_left fun hnot => hnot cause rfl

/-- Topics are made with no partitions, by hand and by default. -/
def hostingOps : List Log.Operation :=
  [.createTopic "a" 0, .append "b" none ⟨[1], none⟩, .append "a" (some (2 ^ 32 - 1)) ⟨[2], none⟩]

/-- The id of the command that is sent. -/
def hostingId : CommandId := ⟨.table, "hosts", .create, by decide⟩

/-- A poll of a topic that is not there yet, a send to it and a replay. -/
def hostingMoves : List Move :=
  [.enter (.poll 0), .step 0 0, .step 0 0, .step 0 0,
    .enter (.send hostingId { statement := "CREATE" }), .step 1 0, .step 1 0,
    .enter (.replay 0), .step 2 0, .step 2 0, .step 2 0, .step 2 0]

/-- In the sample both topics have a partition, and the send brings a third one into being; the poll
has found nothing there, and the replay finds the command. -/
theorem partitions_addressable_sample :
    let log := Log.ofOperations { defaultPartitions := 0 } hostingOps
    let t := run { endpoint := .opened log .json "commands" } hostingMoves
    log.partitionCount "a" = some 1 ∧ log.partitionCount "b" = some 1 ∧ log.Addressable ∧
      log.partitionCount "commands" = none ∧
      t.endpoint.client.log.partitionCount "commands" = some 1 ∧
      t.deeds.filterMap result? = [.ok (.batch .empty), .ok (.position ⟨"commands", 0, 0⟩),
        .ok (.commands [⟨hostingId, { statement := "CREATE" }, none⟩])] ∧
      t.endpoint.client.log.Addressable ∧
        ∀ d ∈ t.deeds, Finds (LinedUp hostingOps hostingMoves) d := by
  have hops : ∀ op ∈ hostingOps, op.InRange := by
    simp [hostingOps, Log.Operation.InRange]
  have hsettings : ({ defaultPartitions := 0 } : Log.Settings).defaultPartitions < 2 ^ 32 := by
    decide
  obtain ⟨haddressable, htraffic⟩ := partitions_addressable hsettings hops
  obtain ⟨hlater, hfinds⟩ := htraffic 0 _ _ "commands" _ rfl
    (Endpoint.make_opened 0 _ .json "commands") hostingMoves
  refine ⟨rfl, rfl, haddressable, rfl, rfl, rfl, hlater ?_, hfinds⟩
  simp [hostingMoves]

end Hosting

end Traffic
end ReplicatedLog
