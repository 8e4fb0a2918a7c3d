import ReplicatedLog.Proofs.Channel.Send
import ReplicatedLog.Proofs.Log.Fetching
import ReplicatedLog.Proofs.Log.Scanning

/-!
# A log that carries commands

A partition that holds nothing but commands that can be read.

* `Log.Carries` says so, and which commands they are; `Carries.send`: a command that is
  sent is carried as the last one;
* `Reader.IsFree`: a reader of the partition that can be used;
* `IsFree.attempt_unread`, `IsFree.attempt_read` and `attempt_woken`: what such a reader
  gets, depending on whether there is something unread.
-/

namespace ReplicatedLog

theorem length_commandsFrom_le (schema : CommandSchema) :
    ∀ (offset : Nat) (es : List Entry), (commandsFrom schema offset es).length ≤ es.length
  | _, [] => Nat.le_refl 0
  | offset, e :: es => by
      have hone : (e.queued? schema offset).toList.length ≤ 1 := by
        cases e.queued? schema offset <;> simp
      have hrest := length_commandsFrom_le schema (offset + 1) es
      rw [commandsFrom, List.length_append, List.length_cons]
      omega

namespace Log

section Carrying

/-- The entries of a partition are readable commands, and these are all. -/
structure Carries (log : Log) (p : Partition) (qs : List QueuedCommand) : Prop where
  tells : log.Tells .json p qs.length qs
  length : (log.written p).length = qs.length
  /-- The partition is there, or its topic is not. -/
  known : log.entries p = none → log.partitionCount p.topic = none
  room : log.settings.maxPollRecords ≠ 0
  accepts : log.failures = []
  partitions : log.HasPartitions

variable {log log' : Log} {p : Partition} {qs : List QueuedCommand} {k : Nat}

theorem carries_empty (p : Partition) : ({} : Log).Carries p [] := by
  refine ⟨.zero _ _ _, rfl, fun _ => rfl, by decide, rfl, fun topic partitions h => ?_⟩
  cases h

/-- A log with the same entries. -/
theorem Carries.of_topics (h : log.Carries p qs) (hs : log'.settings = log.settings)
    (ht : log'.topics = log.topics) (hf : log'.failures = log.failures) : log'.Carries p qs := by
  have hwritten : log'.written p = log.written p := by
    simp only [written, entries, ht]
  refine ⟨h.tells.grows (.of_topics hs ht), hwritten ▸ h.length, ?_, hs ▸ h.room, hf ▸ h.accepts,
    h.partitions.of_topics ht⟩
  simp only [entries, partitionCount, ht]
  exact h.known

theorem Carries.hold (h : log.Carries p qs) : log.hold.Carries p qs :=
  h.of_topics rfl rfl rfl

theorem Carries.release (h : log.Carries p qs) : log.release.2.Carries p qs :=
  h.of_topics rfl rfl rfl

/-- The first entries tell the first commands. -/
theorem Carries.tells_take (h : log.Carries p qs) (hk : k ≤ qs.length) :
    log.Tells .json p k (qs.take k) := by
  have hsplit : qs = commandsFrom .json 0 ((log.written p).take k) ++
      commandsFrom .json (0 + ((log.written p).take k).length) ((log.written p).drop k) := by
    rw [← commandsFrom_append, List.take_append_drop]
    exact h.tells.eq.trans (by rw [← h.length, List.take_length])
  have hfirst := length_commandsFrom_le .json 0 ((log.written p).take k)
  have hlater := length_commandsFrom_le .json (0 + ((log.written p).take k).length)
    ((log.written p).drop k)
  have htotal := congrArg List.length hsplit
  rw [List.length_append] at htotal
  rw [List.length_take, h.length] at hfirst
  rw [List.length_drop, h.length] at hlater
  refine ⟨h.length.symm ▸ hk, fun e he => ?_, ?_⟩
  · refine h.tells.readable e ?_
    rw [← h.length, List.take_length]
    exact List.mem_of_mem_take he
  · have hlen : (commandsFrom .json 0 ((log.written p).take k)).length = k := by omega
    conv => lhs; rw [hsplit]
    exact List.take_left' hlen

/-- What the first entries tell are the first commands. -/
theorem Carries.eq_take (h : log.Carries p qs) {commands : List QueuedCommand}
    (ht : log.Tells .json p k commands) : commands = qs.take k := by
  have hk : k ≤ qs.length := h.length ▸ ht.bound
  rw [ht.eq, (h.tells_take hk).eq]

/-- What is decoded of a carried partition can be decoded. -/
theorem decodeEntries_of_readable {schema : CommandSchema} :
    ∀ (offset : Nat) (es : List Entry), (∀ e ∈ es, e.IsReadable schema) →
      ∃ rs, Reader.decodeEntries schema p offset es = .ok rs
  | _, [], _ => ⟨[], rfl⟩
  | offset, e :: es, h => by
      obtain ⟨⟨id, hid⟩, hvalue⟩ := h e List.mem_cons_self
      obtain ⟨rs, hrs⟩ := decodeEntries_of_readable (offset + 1) es
        fun f hf => h f (List.mem_cons_of_mem e hf)
      have hone : ∃ r, Reader.decodeEntry schema p offset e = .ok r := by
        cases hv : e.value with
        | none => exact ⟨_, Reader.decodeEntry_none hid hv⟩
        | some v =>
            obtain ⟨command, hcommand⟩ := hvalue v hv
            rw [Reader.decodeEntry_some hid hv, hcommand]
            exact ⟨_, rfl⟩
      obtain ⟨r, hr⟩ := hone
      refine ⟨r :: rs, ?_⟩
      simp only [Reader.decodeEntries, hr, hrs]
      rfl

end Carrying

end Log

namespace Reader

section Fetching

variable {log : Log} {p : Partition} {qs : List QueuedCommand} {k now deadline : Nat}
  {r : Reader}

/-- A reader that is at an offset of the partition and can be used. -/
structure IsFree (r : Reader) (p : Partition) (k : Nat) : Prop where
  place : r.At p k
  isOpen : r.isClosed = false
  isQuiet : r.isWoken = false

theorem IsFree.ensureUsable (h : r.IsFree p k) : r.ensureUsable = (.ok (), r) :=
  ensureUsable_of_calm h.isOpen h.isQuiet

theorem scan_carried (hc : log.Carries p qs) (k room : Nat) :
    ∃ found, scan CommandSchema.json log room [(p, k)] = .ok found := by
  by_cases hroom : room = 0
  · exact ⟨_, hroom ▸ scan_zero _⟩
  · cases hread : log.read p k room with
    | none =>
        have hnone : log.partitionCount p.topic = none := by
          refine hc.known ?_
          simpa [Log.read] using hread
        rw [scan_of_none hroom hread, if_pos hnone]
        exact ⟨_, rfl⟩
    | some es =>
        obtain ⟨rs, hrs⟩ := Log.decodeEntries_of_readable (p := p) k es
          fun e he => hc.tells.readable e (by
            rw [Log.read_eq_some hread] at he
            rw [← hc.length, List.take_length]
            exact List.mem_of_mem_drop (List.mem_of_mem_take he))
        rw [scan_of_some hroom hread hrs]
        exact ⟨_, rfl⟩

/-- A reader at an offset of a carried partition fetches commands that follow, and none only at the
end. -/
theorem fetch_carried (hc : log.Carries p qs) (h : r.At p k) (hk : k ≤ qs.length) :
    ∃ b : CommandBatch, (r.fetch CommandSchema.json log).1 = .ok b ∧
      (r.fetch CommandSchema.json log).2.At p (k + b.size) ∧ k + b.size ≤ qs.length ∧
      qs.take k ++ b.commands = qs.take (k + b.size) ∧ (b.isEmpty = true ↔ k = qs.length) := by
  rcases fetch_at CommandSchema.json log h with ⟨b, hb, htakes, hat⟩ | ⟨⟨e, he⟩, -⟩
  · have htold := (hc.tells_take hk).takes htakes
    refine ⟨b, hb, hat, hc.length ▸ htold.bound, hc.eq_take htold, fun hempty => ?_, fun hend => ?_⟩
    · rw [← hc.length]
      exact (hc.tells_take hk).takes_nothing htakes hempty (Nat.pos_of_ne_zero hc.room)
    · have hnone : ((log.written p).drop k).take log.settings.maxPollRecords = [] := by
        rw [List.drop_of_length_le (Nat.le_of_eq (hc.length.trans hend.symm)), List.take_nil]
      have hrecords : decodeEntries CommandSchema.json p k [] = .ok b.records := by
        rw [← hnone]
        exact htakes
      simp [Batch.isEmpty, ← Except.ok.inj hrecords]
  · obtain ⟨found, hfound⟩ := scan_carried hc k log.settings.maxPollRecords
    unfold fetch at he
    rw [show r.positions.entries = _ from h, hfound] at he
    cases he

end Fetching

section Polling

variable {log : Log} {p : Partition} {qs : List QueuedCommand} {k now deadline : Nat}
  {r : Reader}

/-- A poll with something unread brings some of the commands that follow. -/
theorem IsFree.attempt_unread (h : r.IsFree p k) (hc : log.Carries p qs) (hk : k < qs.length)
    (now deadline : Nat) :
    ∃ (b : CommandBatch) (k' : Nat) (r' : Reader),
      attempt CommandSchema.json now log r deadline = (.done (.ok b), r') ∧ r'.IsFree p k' ∧
      k < k' ∧ k' ≤ qs.length ∧ qs.take k ++ b.commands = qs.take k' ∧ b.isEmpty = false := by
  obtain ⟨b, hb, hat, hbound, htake, hempty⟩ := fetch_carried hc h.place (Nat.le_of_lt hk)
  rcases hf : r.fetch CommandSchema.json log with ⟨result, r'⟩
  rw [hf] at hb hat
  cases hb
  have hsome : b.isEmpty = false := by
    rw [Bool.eq_false_iff]
    exact fun hnone => Nat.ne_of_lt hk (hempty.1 hnone)
  have hsize : b.size ≠ 0 := by
    intro hzero
    rw [Batch.size, List.length_eq_zero_iff] at hzero
    simp [Batch.isEmpty, hzero] at hsome
  exact ⟨b, k + b.size, r', attempt_of_some hf hsome now deadline,
    ⟨hat, (fetch_isClosed hf).trans h.isOpen, (fetch_isWoken hf).trans h.isQuiet⟩, by omega,
    hbound, htake, hsome⟩

/-- A fetch that finds nothing leaves the reader. -/
theorem fetch_read (hc : log.Carries p qs) (h : r.At p qs.length) :
    ∃ b : CommandBatch, r.fetch CommandSchema.json log = (.ok b, r) ∧ b.isEmpty = true ∧
      b.commands = [] := by
  obtain ⟨b, hb, -, -, -, hempty⟩ := fetch_carried hc h (Nat.le_refl _)
  rcases hf : r.fetch CommandSchema.json log with ⟨result, r'⟩
  rw [hf] at hb
  cases hb
  have hnone := hempty.2 rfl
  obtain rfl := (fetch_empty hc.room hf hnone).1
  refine ⟨b, rfl, hnone, ?_⟩
  have hrecords : b.records = [] := by simpa [Batch.isEmpty] using hnone
  simp [CommandBatch.commands, hrecords]

/-- A poll with nothing unread waits for its deadline. -/
theorem IsFree.attempt_read (h : r.IsFree p qs.length) (hc : log.Carries p qs)
    (hnow : now < deadline) :
    attempt CommandSchema.json now log r deadline =
      (.waiting (.parked deadline (seenNow log r)), r) := by
  obtain ⟨b, hf, hempty, -⟩ := fetch_read hc h.place
  rw [attempt_of_none hf hempty, h.ensureUsable]
  exact if_neg (Nat.not_le.2 hnow)

/-- A poll with nothing unread comes back empty at its deadline. -/
theorem IsFree.attempt_due (h : r.IsFree p qs.length) (hc : log.Carries p qs)
    (hnow : deadline ≤ now) :
    ∃ b : CommandBatch, attempt CommandSchema.json now log r deadline = (.done (.ok b), r) ∧
      b.isEmpty = true ∧ b.commands = [] := by
  obtain ⟨b, hf, hempty, hcommands⟩ := fetch_read hc h.place
  refine ⟨b, ?_, hempty, hcommands⟩
  rw [attempt_of_none hf hempty, h.ensureUsable]
  exact if_pos hnow

/-- A poll with nothing unread takes a wakeup that is pending. -/
theorem attempt_woken (hplace : r.At p qs.length) (hopen : r.isClosed = false)
    (hwoken : r.isWoken = true) (hc : log.Carries p qs) :
    attempt CommandSchema.json now log r deadline =
      (.done (.error .wakeup), { r with isWoken := false }) := by
  obtain ⟨b, hf, hempty, -⟩ := fetch_read hc hplace
  rcases ensureUsable_of_open hopen with ⟨-, hu⟩ | ⟨hcalm, -⟩
  · rw [attempt_of_none hf hempty, hu]
  · rw [hwoken] at hcalm
    cases hcalm

end Polling

end Reader

namespace Log

section Sending

variable {log : Log} {topic : String} {qs : List QueuedCommand}

/-- What an append that lands counts. -/
theorem append_counts (h : log.HasPartitions) (hf : log.failures = []) (topic : String)
    (e : Entry) :
    (log.append topic (some 0) e).2.appends = log.appends + 1 ∧
      (log.append topic (some 0) e).2.failures = [] := by
  have hmade : (log.ensureTopic topic).appends = log.appends ∧
      (log.ensureTopic topic).failures = [] := by
    unfold ensureTopic createTopic
    split <;> exact ⟨rfl, hf⟩
  obtain ⟨partitions, hps⟩ := ensureTopic_get?_self log topic
  cases partitions with
  | nil => exact absurd rfl (createTopic_hasPartitions h topic _ topic [] hps)
  | cons es rest => simp [append, hf, hps, hmade]

/-- An entry that holds a command is carried as the last one. -/
theorem Carries.adds {log' : Log} {p : Partition} {e : Entry} {v : Bytes} {id : CommandId}
    {c : Command} (h : log.Carries p qs) (ha : log.Adds log' p e)
    (hid : CommandSchema.json.key.decode e.key = .ok id) (hv : e.value = some v)
    (hc : CommandSchema.json.value.decode v = .ok c) (hs : log'.settings = log.settings)
    (hf : log'.failures = []) (hp : log'.HasPartitions) :
    log'.Carries p (qs ++ [⟨id, c, some qs.length⟩]) := by
  have hwritten : log'.written p = log.written p ++ [e] := by
    rw [ha p, if_pos rfl]
  have hlength : (log'.written p).length =
      (qs ++ [(⟨id, c, some qs.length⟩ : QueuedCommand)]).length := by
    rw [hwritten, List.length_append, List.length_append, h.length]
    rfl
  have hqueued : commandsFrom .json (0 + (log.written p).length) [e] =
      [(⟨id, c, some qs.length⟩ : QueuedCommand)] := by
    simp [commandsFrom, Entry.queued?, hid, hv, hc, h.length]
  refine ⟨⟨Nat.le_of_eq hlength.symm, ?_, ?_⟩, hlength, ?_, hs ▸ h.room, hf, hp⟩
  · rw [← hlength, List.take_length, hwritten]
    intro f hmem
    rcases List.mem_append.1 hmem with hold | hnew
    · refine h.tells.readable f ?_
      rw [← h.length, List.take_length]
      exact hold
    · rw [List.mem_singleton.1 hnew]
      refine ⟨⟨id, hid⟩, fun w hw => ?_⟩
      rw [hv] at hw
      cases hw
      exact ⟨c, hc⟩
  · rw [← hlength, List.take_length, hwritten, commandsFrom_append, hqueued]
    congr 1
    exact h.tells.eq.trans (by rw [← h.length, List.take_length])
  · intro hnone
    have hempty : log'.written p = [] := by simp [written, hnone]
    rw [hwritten] at hempty
    exact absurd hempty (by simp)

/-- An acknowledgment is entered for a position, and known at once unless it is held back. -/
theorem acknowledge_known (log : Log) (p : Position) :
    (log.acknowledge p).1 = log.ledger.size ∧
      (log.acknowledge p).2.isHolding = log.isHolding ∧
      (log.acknowledge p).2.outcome (.ack log.ledger.size) =
        if log.isHolding then none else some (.ok p) := by
  unfold acknowledge
  cases log.isHolding <;> simp [outcome]

theorem acknowledge_counts (log : Log) (p : Position) :
    (log.acknowledge p).2.appends = log.appends ∧
      (log.acknowledge p).2.failures = log.failures := by
  unfold acknowledge
  split <;> exact ⟨rfl, rfl⟩

/-- A command that is sent is carried as the last one, and acknowledged unless acknowledgments are
held back. -/
theorem Carries.send (h : log.Carries ⟨topic, 0⟩ qs) (id : CommandId) (c : Command) :
    ∃ log', ({} : Writer).send CommandSchema.json log topic (some 0) id (some c) =
        (.ack log.ledger.size, log') ∧
      log'.Carries ⟨topic, 0⟩ (qs ++ [⟨id, c, some qs.length⟩]) ∧
      log'.appends = log.appends + 1 ∧ log'.isHolding = log.isHolding ∧
      log'.outcome (.ack log.ledger.size) =
        if log.isHolding then none else some (.ok ⟨topic, 0, qs.length⟩) := by
  obtain ⟨e, v, hencode, hv, hid, hc⟩ := encode_json topic id c
  have hok := append_zero h.partitions h.accepts topic e
  obtain ⟨hsettings, hholding, -, hledger⟩ := append_frame log topic (some 0) e
  obtain ⟨happends, hfailures⟩ := append_counts h.partitions h.accepts topic e
  have hentries := append_entries log topic (some 0) e
  have hpartitions := append_hasPartitions h.partitions topic (some 0) e
  rcases happend : log.append topic (some 0) e with ⟨result, after⟩
  rw [happend] at hok hsettings hholding hledger happends hfailures hentries hpartitions
  dsimp only at hok
  rw [h.length] at hok
  subst hok
  have hcarries := h.adds hentries.2.2 hid hv hc hsettings hfailures hpartitions
  have hsend : ({} : Writer).send CommandSchema.json log topic (some 0) id (some c) =
      (.ack (after.acknowledge ⟨topic, 0, qs.length⟩).1,
        (after.acknowledge ⟨topic, 0, qs.length⟩).2) := by
    simp [Writer.send, hencode, Writer.appendEntry, happend]
  obtain ⟨hid', hheld, hknown⟩ := acknowledge_known after ⟨topic, 0, qs.length⟩
  obtain ⟨hcount, hfailed⟩ := acknowledge_counts after ⟨topic, 0, qs.length⟩
  obtain ⟨hset, htopics⟩ := acknowledge_frame after ⟨topic, 0, qs.length⟩
  rw [hledger] at hid' hknown
  rw [hholding] at hheld hknown
  rw [hid'] at hsend
  exact ⟨_, hsend, hcarries.of_topics hset htopics hfailed, hcount.trans happends, hheld, hknown⟩

end Sending

end Log
end ReplicatedLog
