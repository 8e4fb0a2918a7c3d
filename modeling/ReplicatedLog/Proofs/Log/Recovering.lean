import ReplicatedLog.Proofs.Json.Numbers
import ReplicatedLog.Proofs.Log.Carrying
import ReplicatedLog.Proofs.Log.Order

/-!
# Getting back what was sent

What a codec reads back, a log gives back: a command that has landed is found again
at its position, whatever happens to the log in the meantime.

* `Entry.Recovers`: an entry is decoded as a given key and value, wherever it stands;
  `Writer.encode_recovers`: the entries that are written with codecs that round-trip
  are, as the keys and values they were written for;
* `Site.Recoverable`: every entry of a topic is decoded as a command or a tombstone,
  which no move that keeps to the form changes;
* `Reader.IsFree.stepPoll_recovers`: a poll from a place before an entry brings it, if
  there is room for it;
* `Log.Site.commands_read_back`: all of it.
-/

namespace ReplicatedLog

section Entries

variable {κ ν : Type} {schema : Schema κ ν} {e : Entry} {key : κ} {value : Option ν}

/-- Wherever the entry stands, this key and this value are decoded from it. -/
def Entry.Recovers (schema : Schema κ ν) (e : Entry) (key : κ) (value : Option ν) : Prop :=
  ∀ p n, Reader.decodeEntry schema p n e = .ok ⟨p, n, key, value⟩

/-- What is written with codecs that round-trip can be written, and is decoded as it was. -/
theorem Writer.encode_recovers {schema : Schema κ ν} (hkey : schema.key.RoundTrips)
    (hvalue : schema.value.RoundTrips) (topic : String) (key : κ) (value : Option ν) :
    ∃ e, Writer.encode schema topic key value = .ok e ∧ e.Recovers schema key value := by
  obtain ⟨k, hwritten, hread⟩ := hkey key
  cases value with
  | none =>
      refine ⟨⟨k, none⟩, ?_, fun p n => ?_⟩
      · unfold Writer.encode
        rw [hwritten]
        rfl
      · unfold Reader.decodeEntry
        rw [hread]
        rfl
  | some a =>
      obtain ⟨v, hwritten', hread'⟩ := hvalue a
      refine ⟨⟨k, some v⟩, ?_, fun p n => ?_⟩
      · unfold Writer.encode
        rw [hwritten]
        dsimp only
        rw [hwritten']
        rfl
      · unfold Reader.decodeEntry
        rw [hread]
        dsimp only
        rw [hread']
        rfl

/-- What has landed was encoded. -/
theorem Writer.landing?_encode {w : Writer} {log : Log} {topic : String} {index : Option Nat}
    {q : Position} (h : w.landing? schema log topic index key value = some (q, e)) :
    Writer.encode schema topic key value = .ok e := by
  unfold Writer.landing? at h
  split at h
  · cases h
  · split at h
    · cases h
    next f hencode =>
      cases happend : (log.append topic index f).1 with
      | error cause =>
          rw [happend] at h
          cases h
      | ok r =>
          rw [happend] at h
          cases h
          exact hencode

/-- An entry in a row is decoded at its place. -/
theorem Reader.decodeEntries_get {p : Partition} :
    ∀ {n : Nat} {es : List Entry} {rs : List (Record κ ν)} {i : Nat},
      Reader.decodeEntries schema p n es = .ok rs → es[i]? = some e →
        e.Recovers schema key value → rs[i]? = some ⟨p, n + i, key, value⟩
  | n, [], rs, i, h, hi, he => by
      cases hi
  | n, f :: es, rs, i, h, hi, he => by
      obtain ⟨r, rest, rfl, hr, hrs⟩ := Reader.decodeEntries_cons_of_ok h
      cases i with
      | zero =>
          cases hi
          rw [he p n] at hr
          cases hr
          rfl
      | succ i =>
          have hrest := decodeEntries_get hrs hi he
          rwa [show n + 1 + i = n + (i + 1) by omega] at hrest

end Entries

namespace Reader

section Polling

variable {log : Log} {r : Reader} {p : Partition} {n now : Nat} {e : Entry} {id : CommandId}
  {value : Option Command}

/-- An entry that can be recovered can be read. -/
theorem isReadable_of_recovers {schema : CommandSchema} (h : e.Recovers schema id value) :
    e.IsReadable schema :=
  (decodeEntry_ok (h ⟨"", 0⟩ 0)).1

/-- A reader of a partition whose entries can all be read fetches those that follow. -/
theorem fetch_readable {schema : CommandSchema} (h : r.At p n)
    (hthere : log.entries p = some (log.written p))
    (hread : ∀ e ∈ log.written p, e.IsReadable schema) :
    ∃ b, (r.fetch schema log).1 = .ok b ∧ Takes schema log p n b := by
  rcases fetch_at schema log h with ⟨b, hb, htakes, -⟩ | ⟨⟨err, herr⟩, -⟩
  · exact ⟨b, hb, htakes⟩
  · -- a scan of entries that are there and can be decoded does not fail
    obtain ⟨rs, hrs⟩ := Log.decodeEntries_of_readable (p := p) n
      (((log.written p).drop n).take log.settings.maxPollRecords)
      fun e he => hread e (List.mem_of_mem_drop (List.mem_of_mem_take he))
    have hlog : log.read p n log.settings.maxPollRecords =
        some (((log.written p).drop n).take log.settings.maxPollRecords) := by
      rw [Log.read, hthere]
      rfl
    have hscan : ∃ found, scan schema log log.settings.maxPollRecords [(p, n)] = .ok found := by
      by_cases hroom : log.settings.maxPollRecords = 0
      · exact ⟨_, hroom ▸ scan_zero _⟩
      · exact ⟨_, scan_of_some hroom hlog hrs⟩
    obtain ⟨found, hfound⟩ := hscan
    unfold fetch at herr
    rw [show r.positions.entries = _ from h, hfound] at herr
    cases herr

/-- A step of a poll from a place before an entry, if there is room for those in between, brings the
entry as what it was written for. -/
theorem IsFree.stepPoll_recovers {schema : CommandSchema} {offset : Nat} (h : r.IsFree p n)
    (hread : ∀ e ∈ log.written p, e.IsReadable schema)
    (hget : (log.written p)[offset]? = some e) (he : e.Recovers schema id value)
    (hle : n ≤ offset) (hroom : offset < n + log.settings.maxPollRecords) (poll : Poll) :
    ∃ b, (r.stepPoll schema now log poll).1 = .done (.ok b) ∧
      b.records[offset - n]? = some ⟨p, offset, id, value⟩ := by
  have hthere : log.entries p = some (log.written p) := by
    rw [Log.written] at hget ⊢
    cases hentries : log.entries p with
    | none =>
        rw [hentries] at hget
        cases hget
    | some es => rfl
  obtain ⟨b, hb, htakes⟩ := fetch_readable h.place hthere hread
  have hrecord : b.records[offset - n]? = some ⟨p, offset, id, value⟩ := by
    have hwindow : (((log.written p).drop n).take log.settings.maxPollRecords)[offset - n]? =
        some e := by
      rw [List.getElem?_take_of_lt (by omega), List.getElem?_drop, Nat.add_sub_cancel' hle, hget]
    have := decodeEntries_get htakes hwindow he
    rwa [Nat.add_sub_cancel' hle] at this
  have hsome : b.isEmpty = false := by
    rw [Bool.eq_false_iff]
    intro hempty
    rw [Batch.isEmpty, List.isEmpty_iff] at hempty
    rw [hempty] at hrecord
    cases hrecord
  obtain ⟨deadline, hstep⟩ := stepPoll_of_calm h.isOpen h.isQuiet schema now poll
  rcases hf : r.fetch schema log with ⟨result, r'⟩
  rw [hf] at hb
  cases hb
  exact ⟨b, by rw [hstep, attempt_of_some hf hsome], hrecord⟩

end Polling

end Reader

namespace Log
namespace Site

section Sends

/-- The move sends nothing to the topic but commands and tombstones in JSON. -/
inductive Move.KeepsTo (topic : String) : Move → Prop
  | command (writer : Nat) (index : Option Nat) (id : CommandId) (value : Option Command) :
      KeepsTo topic (.send writer CommandSchema.json topic index id value)
  | elsewhere {κ ν : Type} (writer : Nat) (schema : Schema κ ν) (other : String)
      (index : Option Nat) (key : κ) (value : Option ν) (h : other ≠ topic) :
      KeepsTo topic (.send writer schema other index key value)
  | still (m : Move) (h : m.isSend = false) : KeepsTo topic m

/-- A command or a tombstone can be recovered from every entry of the topic. -/
def Recoverable (topic : String) (s : Site) : Prop :=
  ∀ i, ∀ e ∈ s.log.written ⟨topic, i⟩, ∃ id value, e.Recovers CommandSchema.json id value

/-- A command or a tombstone that has landed is recovered from its entry. -/
theorem landed_recovers {w : Writer} {log : Log} {topic : String} {index : Option Nat}
    {id : CommandId} {value : Option Command} {q : Position} {e : Entry}
    (h : w.landing? CommandSchema.json log topic index id value = some (q, e)) :
    e.Recovers CommandSchema.json id value := by
  have hkey : CommandSchema.json.key.RoundTrips := idCodec_roundTrips
  obtain ⟨f, hencode, hf⟩ := Writer.encode_recovers hkey commandCodec_roundTrips topic id value
  rw [Writer.landing?_encode h] at hencode
  cases hencode
  exact hf

variable {s : Site} {topic : String}

theorem Recoverable.perform (h : s.Recoverable topic) (hs : s.log.Sound) {m : Move}
    (hm : m.KeepsTo topic) : (s.perform m).Recoverable topic := by
  -- a send adds the entry that has landed, if any, and it is recovered
  have hsend : ∀ {κ ν : Type} (writer : Nat) (schema : Schema κ ν) (name : String)
      (index : Option Nat) (key : κ) (value : Option ν),
      (∀ q e, (s.writers writer).landing? schema s.log name index key value = some (q, e) →
        name = topic → ∃ id value, e.Recovers CommandSchema.json id value) →
      (s.perform (.send writer schema name index key value)).Recoverable topic := by
    intro κ ν writer schema name index key value hlanded i e he
    obtain ⟨-, hlands⟩ := Writer.send_lands hs (s.writers writer) schema name index key value
    change e ∈ ((s.writers writer).send schema s.log name index key value).2.written _ at he
    cases hland : (s.writers writer).landing? schema s.log name index key value with
    | none =>
        rw [hland] at hlands
        rw [hlands ⟨topic, i⟩] at he
        exact h i e he
    | some l =>
        obtain ⟨q, f⟩ := l
        rw [hland] at hlands
        obtain ⟨htopic, -, -, hadds⟩ := hlands
        rw [hadds ⟨topic, i⟩] at he
        split at he
        next hplace =>
          rcases List.mem_append.1 he with he | he
          · exact h i e he
          · rw [List.mem_singleton] at he
            subst he
            exact hlanded q e hland (htopic.symm.trans (congrArg Partition.topic hplace).symm)
        next => exact h i e he
  cases hm with
  | command writer index id value =>
      exact hsend writer _ topic index id value fun q e hland _ =>
        ⟨id, value, landed_recovers hland⟩
  | elsewhere writer schema other index key value hother =>
      exact hsend writer schema other index key value fun q e _ hname => absurd hname hother
  | still m hstill =>
      intro i e he
      cases perform_stepsTo hs m with
      | still _ _ hlog => exact h i e (hlog ⟨topic, i⟩ ▸ he)
      | rejected hsend => exact absurd (hstill.symm.trans hsend) (by decide)
      | landed hsend => exact absurd (hstill.symm.trans hsend) (by decide)

theorem Recoverable.run (h : s.Recoverable topic) (hk : s.Kept) {moves : List Move}
    (hm : ∀ m ∈ moves, m.KeepsTo topic) : (s.run moves).Recoverable topic := by
  induction moves generalizing s with
  | nil => exact h
  | cons m moves ih =>
      exact ih (h.perform hk.sound (hm m List.mem_cons_self)) (hk.perform m)
        fun l hl => hm l (List.mem_cons_of_mem m hl)

theorem recoverable_new (settings : Settings) (topic : String) :
    (new settings).Recoverable topic := by
  intro i e he
  simp [new, written, entries] at he

/-- What has landed with a send stays at its position. -/
theorem written_of_landing (hk : s.Kept) {κ ν : Type} {writer : Nat} {schema : Schema κ ν}
    {index : Option Nat} {key : κ} {value : Option ν} {q : Position} {e : Entry}
    (h : (s.writers writer).landing? schema s.log topic index key value = some (q, e))
    (later : List Move) :
    q.topic = topic ∧
      ((s.run (.send writer schema topic index key value :: later)).log.written
        q.partition)[q.offset]? = some e := by
  have hkept := hk.perform (.send writer schema topic index key value)
  obtain ⟨htopic, -, hget⟩ := hkept.designates
    ⟨writer, topic, index, _, _⟩ (List.mem_append_right _ List.mem_cons_self) q e h
  refine ⟨htopic, ?_⟩
  obtain ⟨more, hmore⟩ := (run_extends hkept later).entries q.partition
  change ((Site.run _ later).log.written q.partition)[q.offset]? = _
  rw [← hmore, List.getElem?_append_left (List.getElem?_eq_some_iff.1 hget).1]
  exact hget

end Sends

section Promises

/-- Values are read back from what is written for them in JSON.  So is what is sent: at the place
of a command or a tombstone that has landed no reader ever sees anything else, whatever happens
before and after; and as long as nothing else is sent to its topic than such records, a poll from a
place before it brings it, if there is room for it. -/
theorem commands_read_back :
    (JsonForm.idCodec.RoundTrips ∧ JsonForm.commandCodec.RoundTrips ∧
      JsonForm.textCodec.RoundTrips ∧
      (∀ n ≤ Text.maxWord64, JsonForm.wordCodec.ReadsBack n) ∧
      (∀ p : Partition, p.index ≤ Text.maxWord32 → JsonForm.partitionCodec.ReadsBack p) ∧
      ∀ p : Position, p.index ≤ Text.maxWord32 → p.offset ≤ Text.maxWord64 →
        JsonForm.positionCodec.ReadsBack p) ∧
    ∀ (settings : Settings) (before later : List Move) (writer : Nat) (topic : String)
      (index : Option Nat) (id : CommandId) (value : Option Command) (q : Position) (e : Entry),
      (((new settings).run before).writers writer).landing? CommandSchema.json
          ((new settings).run before).log topic index id value = some (q, e) →
      ∀ s, s = (new settings).run
          (before ++ .send writer CommandSchema.json topic index id value :: later) →
        (∀ (r : Reader) (now : Nat) (poll : Reader.Poll) (b : CommandBatch),
          (r.stepPoll CommandSchema.json now s.log poll).1 = .done (.ok b) →
          ∀ record ∈ b.records, record.partition = q.partition → record.offset = q.offset →
            record = ⟨q.partition, q.offset, id, value⟩) ∧
        ((∀ m ∈ before ++ later, m.KeepsTo topic) →
          ∀ (r : Reader) (n now : Nat) (poll : Reader.Poll), r.IsFree q.partition n →
            n ≤ q.offset → q.offset < n + s.log.settings.maxPollRecords →
            ∃ b : CommandBatch, (r.stepPoll CommandSchema.json now s.log poll).1 = .done (.ok b) ∧
              b.records[q.offset - n]? = some ⟨q.partition, q.offset, id, value⟩) := by
  refine ⟨⟨idCodec_roundTrips, commandCodec_roundTrips,
    Codec.json_roundTrips Json.string_reads,
    fun n hn => Codec.json_readsBack (Json.word64_reads hn),
    fun p hp => Codec.json_readsBack (JsonForm.readPartition_reads hp).before,
    fun p hp hp' => Codec.json_readsBack (JsonForm.readPosition_reads hp hp').before⟩, ?_⟩
  intro settings before later writer topic index id value q e hland s hs
  have hkept : ((new settings).run before).Kept := (kept_new settings).run before
  have hrun : s = ((new settings).run before).run
      (.send writer CommandSchema.json topic index id value :: later) := by
    rw [hs, run, List.foldl_append]
    rfl
  obtain ⟨htopic, hget⟩ := written_of_landing hkept hland later
  rw [← hrun] at hget
  have he := landed_recovers hland
  refine ⟨fun r now poll b hb record hrecord hplace hoffset => ?_,
    fun hmoves r n now poll hfree hle hroom => ?_⟩
  · obtain ⟨f, hf, hdecode⟩ := (Reader.stepPoll_shows hb).there record hrecord
    rw [hplace, hoffset, hget] at hf
    cases hf
    rw [hplace, hoffset, he] at hdecode
    exact (Except.ok.inj hdecode).symm
  · have hrecoverable : s.Recoverable topic := by
      rw [hs]
      refine (recoverable_new settings topic).run (kept_new settings) fun m hm => ?_
      rcases List.mem_append.1 hm with hm | hm
      · exact hmoves m (List.mem_append_left _ hm)
      · rcases List.mem_cons.1 hm with rfl | hm
        · exact .command writer index id value
        · exact hmoves m (List.mem_append_right _ hm)
    refine hfree.stepPoll_recovers (fun f hf => ?_) hget he hle hroom poll
    obtain ⟨_, _, hf⟩ := hrecoverable q.index f (by rw [← htopic]; exact hf)
    exact Reader.isReadable_of_recovers hf

/-- The id of a command that runs a statement on a table whose name takes four bytes. -/
def sampleId : CommandId :=
  ⟨.table, "𝛼", .execute, by decide⟩

/-- A command with a quote, a backslash, a control character and a line separator in it. -/
def sampleCommand : Command :=
  { statement := "\"\\\n\u2028", properties := SortedMap.empty.insert "" "" }

/-- In the sample the command lands behind a tombstone, and a poll that goes on there brings it. -/
theorem commands_read_back_sample :
    JsonForm.wordCodec.ReadsBack 18446744073709551615 ∧
      ∃ b : CommandBatch,
        (({ positions := SortedMap.empty.insert ⟨"jobs", 0⟩ 1 } : Reader).stepPoll
          CommandSchema.json 0 ((new {}).run
            [.createTopic "jobs" 1, .send 0 CommandSchema.json "jobs" (some 0) sampleId none,
              .send 1 CommandSchema.json "jobs" (some 0) sampleId (some sampleCommand),
              .closeWriter 1]).log (.started 0)).1 = .done (.ok b) ∧
        b.records[0]? = some ⟨⟨"jobs", 0⟩, 1, sampleId, some sampleCommand⟩ := by
  obtain ⟨⟨-, -, -, hword, -, -⟩, hsent⟩ := commands_read_back
  refine ⟨hword _ (by decide), ?_⟩
  refine (hsent {} [.createTopic "jobs" 1, .send 0 CommandSchema.json "jobs" (some 0) sampleId none]
    [.closeWriter 1] 1 "jobs" (some 0) sampleId (some sampleCommand) ⟨"jobs", 0, 1⟩
    ⟨(JsonForm.ofId sampleId).render, some (JsonForm.ofCommand sampleCommand).render⟩
    (by decide +kernel) _ rfl).2 ?_ _ 1 0 _ ⟨rfl, rfl, rfl⟩ (by decide) (by decide)
  simp only [List.cons_append, List.nil_append, List.mem_cons, List.not_mem_nil, or_false,
    forall_eq_or_imp, forall_eq]
  exact ⟨.still _ rfl, .command _ _ _ _, .still _ rfl⟩

end Promises

end Site
end Log
end ReplicatedLog
