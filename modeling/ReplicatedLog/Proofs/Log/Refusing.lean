import Mathlib.Data.List.Forall2
import ReplicatedLog.Proofs.Channel.Waking
import ReplicatedLog.Proofs.Log.Order

/-!
# Sends that fail

A send whose sender is told a failure has added nothing.  What else it leaves of the log
depends on how far it came.

* `Writer.Refuses`: the four ways in which a send fails, with the log that each leaves;
* `Writer.taken?`: the rejection that a send takes off the line, if it takes one, and
  `Writer.send_takes`: it takes nothing else, and its sender is told it;
* `Log.Spares`: the log is as if the send had not been made, but for what it has taken off
  the line;
* `Log.Founds`: the send was refused at a topic that it has brought into being, so that
  the topic is there without an entry, and a reader of a partition outside of it fails;
* `Site.InOrder`: rejections are used in the order in which they were lined up, and
  `run_inOrder`: they are, whatever is done;
* `refused_sends_spare`: all of it, for every log that can come about.
-/

namespace ReplicatedLog

namespace Log

section Topics

variable {log : Log} {topic : String}

/-- Asking for a topic changes nothing but the topics. -/
theorem ensureTopic_rest (log : Log) (topic : String) :
    log.ensureTopic topic = { log with topics := (log.ensureTopic topic).topics } := by
  unfold ensureTopic createTopic
  split <;> rfl

/-- A topic that is there is left as it is. -/
theorem ensureTopic_of_some {n : Nat} (h : log.partitionCount topic = some n) :
    log.ensureTopic topic = log := by
  have hthere : log.topics.contains topic = true := by
    rw [partitionCount] at h
    cases hget : log.topics.get? topic with
    | none => simp [hget] at h
    | some partitions => simp [SortedMap.contains, hget]
  rw [ensureTopic, createTopic, if_pos hthere]

/-- The partitions that a topic gets when an append brings it into being. -/
theorem ensureTopic_get?_of_none (h : log.partitionCount topic = none) (name : String) :
    (log.ensureTopic topic).topics.get? name =
      if name = topic then some (List.replicate (max log.settings.defaultPartitions 1) [])
      else log.topics.get? name := by
  have hgone : log.topics.get? topic = none := by
    simpa [partitionCount] using h
  rw [ensureTopic, createTopic_get?]
  simp only [hgone, and_true]

end Topics

end Log

namespace Writer

variable {κ ν : Type}

/-- How a send fails, with what its sender is told and the log that it leaves. -/
inductive Refuses (w : Writer) (schema : Schema κ ν) (log : Log) (topic : String)
    (index : Option Nat) (key : κ) (value : Option ν) : Rejection → Log → Prop
  | closed (shut : w.isClosed = true) :
      Refuses w schema log topic index key value closedRejection log
  | unencodable {cause : Rejection} (opened : w.isClosed = false)
      (fails : encode schema topic key value = .error cause) :
      Refuses w schema log topic index key value cause log
  | linedUp {e : Entry} {cause : Rejection} {later : List Rejection} (opened : w.isClosed = false)
      (encodes : encode schema topic key value = .ok e) (front : log.failures = cause :: later) :
      Refuses w schema log topic index key value cause { log with failures := later }
  | outside {e : Entry} {n i : Nat} (opened : w.isClosed = false)
      (encodes : encode schema topic key value = .ok e) (unfailing : log.failures = [])
      (sent : index = some i) (count : (log.ensureTopic topic).partitionCount topic = some n)
      (beyond : n ≤ i) :
      Refuses w schema log topic index key value (Log.Rejection.notHosted ⟨topic, i⟩)
        (log.ensureTopic topic)

/-- The rejection that a send takes off the line: the first one there, if the record gets as far as
the log. -/
def taken? (w : Writer) (schema : Schema κ ν) (log : Log) (topic : String) (key : κ)
    (value : Option ν) : Option Rejection :=
  if w.isClosed then none
  else
    match encode schema topic key value with
    | .error _ => none
    | .ok _ => log.failures.head?

/-- The partition that a key is sent to is one of the partitions. -/
theorem partitionOfKey_lt (key : Bytes) {count : Nat} (h : count ≠ 0) :
    Log.partitionOfKey key count < count :=
  Nat.mod_lt _ (Nat.pos_of_ne_zero h)

/-- An append fails with the rejection at the front of the line or, if nothing is lined up, at a
partition outside of the topic. -/
theorem append_fails {log : Log} (hlog : log.HasPartitions) {topic : String} {index : Option Nat}
    {e : Entry} {cause : Rejection} (h : (log.append topic index e).1 = .error cause) :
    (∃ later, log.failures = cause :: later ∧
        (log.append topic index e).2 = { log with failures := later }) ∨
      ∃ n i, log.failures = [] ∧ index = some i ∧
        (log.ensureTopic topic).partitionCount topic = some n ∧ n ≤ i ∧
        cause = Log.Rejection.notHosted ⟨topic, i⟩ ∧
        (log.append topic index e).2 = log.ensureTopic topic := by
  cases hf : log.failures with
  | cons first later =>
      rw [Log.append_of_rejection hf] at h ⊢
      cases h
      exact Or.inl ⟨later, rfl, rfl⟩
  | nil =>
      obtain ⟨partitions, hps⟩ := Log.ensureTopic_get?_self log topic
      have hne : partitions ≠ [] :=
        Log.createTopic_hasPartitions hlog topic log.settings.defaultPartitions topic partitions hps
      have hcount : (log.ensureTopic topic).partitionCount topic = some partitions.length := by
        rw [Log.partitionCount, hps, Option.map_some]
      simp only [Log.append, hf, hps, Option.getD_some] at h ⊢
      cases hes : partitions[index.getD (Log.partitionOfKey e.key partitions.length)]? with
      | some es =>
          rw [hes] at h
          cases h
      | none =>
          rw [hes] at h
          cases h
          have hbeyond := List.getElem?_eq_none_iff.1 hes
          cases index with
          | none =>
              -- an entry without a partition goes where its key sends it, which is there
              have hlt := partitionOfKey_lt e.key
                (mt List.length_eq_zero_iff.1 hne)
              exact absurd hlt (Nat.not_lt.2 hbeyond)
          | some i => exact Or.inr ⟨_, i, trivial, rfl, hcount, hbeyond, rfl, rfl⟩

/-- A send whose sender is told a failure at once has failed in one of the four ways. -/
theorem refuses_of_known {w : Writer} {schema : Schema κ ν} {log : Log}
    (hlog : log.HasPartitions) {topic : String} {index : Option Nat} {key : κ} {value : Option ν}
    {cause : Rejection}
    (h : (w.send schema log topic index key value).1 = .known (.error (.failed cause))) :
    w.Refuses schema log topic index key value cause
      (w.send schema log topic index key value).2 := by
  unfold send at h ⊢
  cases hclosed : w.isClosed with
  | true =>
      rw [hclosed] at h
      cases h
      exact .closed hclosed
  | false =>
      rw [hclosed] at h
      simp only [Bool.false_eq_true, if_false] at h ⊢
      cases hencode : encode schema topic key value with
      | error cause' =>
          rw [hencode] at h
          cases h
          exact .unencodable hclosed hencode
      | ok e =>
          simp only [hencode, appendEntry] at h ⊢
          rcases happend : log.append topic index e with ⟨result | q, after⟩
          · rw [happend] at h
            cases h
            rcases append_fails hlog (congrArg Prod.fst happend) with
              ⟨later, hfront, hafter⟩ | ⟨n, i, hnone, hindex, hcount, hbeyond, rfl, hafter⟩
            · rw [happend] at hafter
              subst hafter
              exact .linedUp hclosed hencode hfront
            · rw [happend] at hafter
              subst hafter
              exact .outside hclosed hencode hnone hindex hcount hbeyond
          · rw [happend] at h
            cases h

end Writer

namespace Log

section Sparing

/-- The later log is as if nothing had been sent, but for what was taken off the front of the line
of rejections. -/
structure Spares (before after : Log) (taken : Option Rejection) : Prop where
  rest : after = { before with failures := after.failures }
  failures : before.failures = taken.toList ++ after.failures
  counts : ∀ topic, after.partitionCount topic = before.partitionCount topic
  entries : ∀ p, after.entries p = before.entries p
  held : after.held = before.held
  outcomes : ∀ wait, after.outcome wait = before.outcome wait
  /-- The next step of any poll comes to the same. -/
  polls : ∀ {κ ν : Type} (schema : Schema κ ν) (r : Reader) (now : Nat) (poll : Reader.Poll),
    r.stepPoll schema now after poll = r.stepPoll schema now before poll
  /-- No poll that waits is called on to look again. -/
  ready : ∀ (r : Reader) (now : Nat) (poll : Reader.Poll),
    Reader.pollReady now after r poll = Reader.pollReady now before r poll

/-- The later log has one topic more, which has the default number of partitions, all of them empty.
A reader with a partition outside of it is told so. -/
structure Founds (before after : Log) (topic : String) : Prop where
  missing : before.partitionCount topic = none
  rest : after = { before with topics := after.topics }
  counts : ∀ name, after.partitionCount name =
    if name = topic then some (max before.settings.defaultPartitions 1)
    else before.partitionCount name
  entries : ∀ p, after.entries p =
    if p.topic = topic ∧ p.index < max before.settings.defaultPartitions 1 then some []
    else before.entries p
  held : after.held = before.held
  outcomes : ∀ wait, after.outcome wait = before.outcome wait
  polls : ∀ {κ ν : Type} (schema : Schema κ ν) (r : Reader) (now : Nat) (poll : Reader.Poll),
    r.stepPoll schema now after poll = r.stepPoll schema now before poll ∨
      ∃ i, max before.settings.defaultPartitions 1 ≤ i ∧ ⟨topic, i⟩ ∈ r.assignment ∧
        r.stepPoll schema now after poll = (.done (.error (.unknownPartition ⟨topic, i⟩)), r)
  ready : ∀ (r : Reader) (now : Nat) (poll : Reader.Poll),
    Reader.pollReady now after r poll = Reader.pollReady now before r poll

end Sparing

end Log

namespace Reader

variable {κ ν : Type} {before after : Log}

section Polls

/-- What a poll does depends on nothing of the log but what a fetch finds there, and on the number
of appends. -/
theorem stepPoll_of_fetch (schema : Schema κ ν) (happends : after.appends = before.appends)
    (r : Reader) (now : Nat) (poll : Poll)
    (hfetch : r.fetch schema after = r.fetch schema before) :
    r.stepPoll schema now after poll = r.stepPoll schema now before poll := by
  rcases stepPoll_cases schema now r poll with ⟨err, r', -, hstep⟩ | ⟨deadline, hstep⟩
  · rw [hstep, hstep]
  · rw [hstep, hstep]
    simp only [attempt, seenNow, hfetch, happends]

/-- A poll does the same on a log with the same topics, settings and number of appends. -/
theorem stepPoll_of_topics (schema : Schema κ ν) (htopics : after.topics = before.topics)
    (hsettings : after.settings = before.settings) (happends : after.appends = before.appends)
    (r : Reader) (now : Nat) (poll : Poll) :
    r.stepPoll schema now after poll = r.stepPoll schema now before poll := by
  refine stepPoll_of_fetch schema happends r now poll ?_
  rw [fetch, fetch, hsettings, scan_of_topics htopics]

/-- A scan of a log with one topic more finds the same, or comes to a partition outside of the new
topic. -/
theorem scan_founded (schema : Schema κ ν) {topic : String} {count : Nat}
    (hmissing : before.partitionCount topic = none)
    (hcounts : ∀ name, after.partitionCount name =
      if name = topic then some count else before.partitionCount name)
    (hentries : ∀ p, after.entries p =
      if p.topic = topic ∧ p.index < count then some [] else before.entries p)
    (ps : List (Partition × Nat)) :
    ∀ room, scan schema after room ps = scan schema before room ps ∨
      ∃ i n, count ≤ i ∧ (⟨topic, i⟩, n) ∈ ps ∧
        scan schema after room ps = .error (.unknownPartition ⟨topic, i⟩) := by
  have hgone : ∀ p : Partition, p.topic = topic → before.entries p = none := by
    rintro p rfl
    rw [Log.partitionCount, Option.map_eq_none_iff] at hmissing
    rw [Log.entries, hmissing, Option.bind_none]
  induction ps with
  | nil => exact fun room => Or.inl rfl
  | cons a ps ih =>
      obtain ⟨p, n⟩ := a
      intro room
      by_cases hroom : room = 0
      · rw [hroom, scan_zero, scan_zero]
        exact Or.inl rfl
      have hlater : ∀ room, scan schema after room ps = scan schema before room ps ∨
          ∃ i m, count ≤ i ∧ (⟨topic, i⟩, m) ∈ (p, n) :: ps ∧
            scan schema after room ps = .error (.unknownPartition ⟨topic, i⟩) := fun room => by
        rcases ih room with hsame | ⟨i, m, hi, hmem, hfails⟩
        · exact Or.inl hsame
        · exact Or.inr ⟨i, m, hi, List.mem_cons_of_mem _ hmem, hfails⟩
      by_cases hp : p.topic = topic
      · have hbefore : before.read p n room = none := by
          rw [Log.read, hgone p hp, Option.map_none]
        rw [scan_of_none hroom hbefore, hp, if_pos hmissing]
        by_cases hindex : p.index < count
        · -- the partition is there now, and has nothing to be read
          have hafter : after.read p n room = some [] := by
            rw [Log.read, hentries, if_pos ⟨hp, hindex⟩]
            simp
          rw [scan_of_some hroom hafter rfl, List.length_nil, Nat.sub_zero]
          rcases hlater room with hsame | ⟨i, m, hi, hmem, hfails⟩
          · left
            rw [hsame]
            cases scan schema before room ps <;> rfl
          · right
            refine ⟨i, m, hi, hmem, ?_⟩
            rw [hfails]
            rfl
        · have hafter : after.read p n room = none := by
            rw [Log.read, hentries, if_neg fun h => hindex h.2, hgone p hp, Option.map_none]
          have hcount : after.partitionCount p.topic ≠ none := by
            rw [hcounts, if_pos hp]
            exact Option.some_ne_none _
          have heq : p = ⟨topic, p.index⟩ := by rw [← hp]
          right
          refine ⟨p.index, n, Nat.le_of_not_lt hindex, heq ▸ List.mem_cons_self, ?_⟩
          rw [scan_of_none hroom hafter, if_neg hcount, ← heq]
      · have hread : after.read p n room = before.read p n room := by
          rw [Log.read, Log.read, hentries, if_neg fun h => hp h.1]
        cases hbefore : before.read p n room with
        | none =>
            rw [scan_of_none hroom hbefore, scan_of_none hroom (hread.trans hbefore), hcounts,
              if_neg hp]
            split
            · exact hlater room
            · exact Or.inl rfl
        | some es =>
            have hafter := hread.trans hbefore
            cases hrs : decodeEntries schema p n es with
            | error err =>
                left
                rw [scan_of_garbled hroom hafter hrs, scan_of_garbled hroom hbefore hrs]
            | ok rs =>
                rw [scan_of_some hroom hafter hrs, scan_of_some hroom hbefore hrs]
                rcases hlater (room - es.length) with hsame | ⟨i, m, hi, hmem, hfails⟩
                · left
                  rw [hsame]
                · right
                  refine ⟨i, m, hi, hmem, ?_⟩
                  rw [hfails]
                  rfl

/-- A poll of a log with one topic more comes to the same, or fails at a partition outside of the
new topic. -/
theorem stepPoll_founded (schema : Schema κ ν) {topic : String} {count : Nat}
    (happends : after.appends = before.appends) (hsettings : after.settings = before.settings)
    (hmissing : before.partitionCount topic = none)
    (hcounts : ∀ name, after.partitionCount name =
      if name = topic then some count else before.partitionCount name)
    (hentries : ∀ p, after.entries p =
      if p.topic = topic ∧ p.index < count then some [] else before.entries p)
    (r : Reader) (now : Nat) (poll : Poll) :
    r.stepPoll schema now after poll = r.stepPoll schema now before poll ∨
      ∃ i, count ≤ i ∧ ⟨topic, i⟩ ∈ r.assignment ∧
        r.stepPoll schema now after poll = (.done (.error (.unknownPartition ⟨topic, i⟩)), r) := by
  rcases scan_founded schema hmissing hcounts hentries r.positions.entries
      before.settings.maxPollRecords with hsame | ⟨i, n, hi, hmem, hfails⟩
  · left
    refine stepPoll_of_fetch schema happends r now poll ?_
    rw [fetch, fetch, hsettings, hsame]
  · have hfetch : r.fetch schema after = (.error (.unknownPartition ⟨topic, i⟩), r) := by
      rw [fetch, hsettings, hfails]
    rcases stepPoll_cases schema now r poll with ⟨err, r', -, hstep⟩ | ⟨deadline, hstep⟩
    · exact Or.inl ((hstep after).trans (hstep before).symm)
    · refine Or.inr ⟨i, hi, List.mem_map.2 ⟨_, hmem, rfl⟩, ?_⟩
      rw [hstep]
      exact attempt_of_error hfetch now deadline

end Polls

end Reader

namespace Log

section Leaving

variable {log : Log} {topic : String}

theorem Spares.refl (log : Log) : log.Spares log none :=
  ⟨rfl, rfl, fun _ => rfl, fun _ => rfl, rfl, fun _ => rfl, fun _ _ _ _ => rfl,
    fun _ _ _ => rfl⟩

/-- Taking a rejection off the line changes nothing else. -/
theorem spares_of_front {cause : Rejection} {later : List Rejection}
    (h : log.failures = cause :: later) :
    log.Spares { log with failures := later } (some cause) := by
  refine ⟨rfl, h, fun _ => rfl, fun _ => rfl, rfl, fun _ => rfl, fun schema r now poll => ?_,
    fun _ _ _ => rfl⟩
  refine Reader.stepPoll_of_topics schema ?_ ?_ ?_ r now poll <;> rfl

/-- Bringing a topic into being adds it without an entry, and changes nothing else. -/
theorem founds_ensureTopic (h : log.partitionCount topic = none) :
    log.Founds (log.ensureTopic topic) topic := by
  have hrest := ensureTopic_rest log topic
  have hget := ensureTopic_get?_of_none h
  have happends : (log.ensureTopic topic).appends = log.appends := by rw [hrest]
  have hcounts : ∀ name, (log.ensureTopic topic).partitionCount name =
      if name = topic then some (max log.settings.defaultPartitions 1)
      else log.partitionCount name := by
    intro name
    rw [partitionCount, hget]
    split
    · rw [Option.map_some, List.length_replicate]
    · rfl
  have hentries : ∀ p : Partition, (log.ensureTopic topic).entries p =
      if p.topic = topic ∧ p.index < max log.settings.defaultPartitions 1 then some []
      else log.entries p := by
    intro p
    rw [entries, hget]
    by_cases hp : p.topic = topic
    · have hgone : log.entries p = none := by
        rw [partitionCount, ← hp, Option.map_eq_none_iff] at h
        rw [entries, h, Option.bind_none]
      rw [if_pos hp, Option.bind_some, List.getElem?_replicate, hgone]
      simp only [hp, true_and]
    · rw [if_neg hp, if_neg fun hand => hp hand.1]
      rfl
  constructor
  · exact h
  · exact hrest
  · exact hcounts
  · exact hentries
  · rw [hrest]
  · intro wait
    rw [hrest]
    cases wait <;> rfl
  · exact fun schema => Reader.stepPoll_founded schema happends (by rw [hrest]) h hcounts hentries
  · intro r now poll
    cases poll with
    | started timeout => rfl
    | parked deadline seen =>
        have hseen : Reader.seenNow (log.ensureTopic topic) r = Reader.seenNow log r := by
          rw [Reader.seenNow, Reader.seenNow, happends]
        rw [Reader.pollReady, Reader.pollReady, hseen]

end Leaving

end Log

namespace Writer

variable {κ ν : Type}

/-- A send that fails spares the log but for the rejection that it takes off the line, which is then
what it is told; or it founds the topic at which it was refused: then the topic was not there,
nothing was lined up, and the send was to a partition outside of it. -/
theorem Refuses.leaves {w : Writer} {schema : Schema κ ν} {log after : Log} {topic : String}
    {index : Option Nat} {key : κ} {value : Option ν} {cause : Rejection}
    (h : w.Refuses schema log topic index key value cause after) :
    (log.Spares after (w.taken? schema log topic key value) ∧
        ∀ c, w.taken? schema log topic key value = some c → c = cause) ∨
      ∃ i, index = some i ∧ max log.settings.defaultPartitions 1 ≤ i ∧ log.failures = [] ∧
        cause = Log.Rejection.notHosted ⟨topic, i⟩ ∧ log.Founds after topic := by
  have hnothing : w.taken? schema log topic key value = none →
      log.Spares log (w.taken? schema log topic key value) ∧
        ∀ c, w.taken? schema log topic key value = some c → c = cause := by
    intro hnone
    rw [hnone]
    exact ⟨.refl log, fun c hc => by cases hc⟩
  cases h with
  | closed shut => exact Or.inl (hnothing (by simp [taken?, shut]))
  | unencodable opened fails => exact Or.inl (hnothing (by simp [taken?, opened, fails]))
  | linedUp opened encodes front =>
      have htaken : w.taken? schema log topic key value = some cause := by
        simp [taken?, opened, encodes, front]
      rw [htaken]
      exact Or.inl ⟨Log.spares_of_front front, fun c hc => (Option.some.inj hc).symm⟩
  | @outside e n i opened encodes unfailing sent count beyond =>
      cases hthere : log.partitionCount topic with
      | some m =>
          rw [Log.ensureTopic_of_some hthere]
          exact Or.inl (hnothing (by simp [taken?, opened, encodes, unfailing]))
      | none =>
          have hfounds := Log.founds_ensureTopic hthere
          have hcount : n = max log.settings.defaultPartitions 1 := by
            rw [hfounds.counts topic, if_pos rfl] at count
            exact (Option.some.inj count).symm
          exact Or.inr ⟨i, sent, hcount ▸ beyond, unfailing, rfl, hfounds⟩

/-- An append with nothing lined up leaves nothing lined up. -/
theorem appendEntry_failures {log : Log} (h : log.failures = []) (topic : String)
    (index : Option Nat) (e : Entry) : (appendEntry log topic index e).2.failures = [] := by
  have hmade : (log.ensureTopic topic).failures = [] := by
    rw [Log.ensureTopic_rest, h]
  have happend : (log.append topic index e).2.failures = [] := by
    simp only [Log.append, h]
    split <;> exact hmade
  unfold appendEntry
  split
  next p after hlands =>
    rw [hlands] at happend
    unfold Log.acknowledge
    dsimp only
    split <;> exact happend
  next cause after hfails =>
    rw [hfails] at happend
    exact happend

/-- A send takes off the line what it is to take, and its sender is told it. -/
theorem send_takes (w : Writer) (schema : Schema κ ν) (log : Log) (topic : String)
    (index : Option Nat) (key : κ) (value : Option ν) :
    log.failures = (w.taken? schema log topic key value).toList ++
        (w.send schema log topic index key value).2.failures ∧
      ∀ cause, w.taken? schema log topic key value = some cause →
        (w.send schema log topic index key value).1 = .known (.error (.failed cause)) := by
  unfold taken? send
  split
  · exact ⟨rfl, fun cause hc => by cases hc⟩
  · cases encode schema topic key value with
    | error cause => exact ⟨rfl, fun cause hc => by cases hc⟩
    | ok e =>
      dsimp only
      cases hf : log.failures with
      | nil =>
          rw [appendEntry_failures hf]
          exact ⟨rfl, fun cause hc => by cases hc⟩
      | cons first later =>
          have hfails : appendEntry log topic index e =
              (.known (.error (.failed first)), { log with failures := later }) := by
            rw [appendEntry, Log.append_of_rejection hf]
          rw [hfails]
          refine ⟨rfl, fun cause hc => ?_⟩
          rw [Option.some.inj hc]

end Writer

namespace Log.Sent

section Telling

/-- The failure that a sender is told at once. -/
def told? (d : Sent) : Option Rejection :=
  match d.wait with
  | .known (.error (.failed cause)) => some cause
  | _ => none

theorem told?_of_wait {d : Sent} {cause : Rejection}
    (h : d.wait = .known (.error (.failed cause))) : d.told? = some cause := by
  rw [told?, h]

/-- The sender of what has taken a rejection off the line is told it. -/
def Hears (taken : Option Rejection) (d : Sent) : Prop :=
  ∀ cause, taken = some cause → d.told? = some cause

end Telling

end Log.Sent

namespace Log.Site

section Rejections

/-- The rejections that moves line up. -/
def linedUp (moves : List Move) : List Rejection :=
  moves.filterMap fun
    | .failNext cause => some cause
    | _ => none

/-- What a move takes off the line, if it is a send. -/
def takesWith (s : Site) : Move → List (Option Rejection)
  | .send i schema topic _ key value => [(s.writers i).taken? schema s.log topic key value]
  | _ => []

/-- What each send of moves takes off the line, one after the other. -/
def takes (s : Site) : List Move → List (Option Rejection)
  | [] => []
  | m :: moves => s.takesWith m ++ (s.perform m).takes moves

/-- Moves use rejections in the order in which they were lined up. -/
structure InOrder (s : Site) (moves : List Move) : Prop where
  /-- What was in line and what has joined it is what the sends have taken, one after the other, and
  behind that what is in line now. -/
  line : s.log.failures ++ linedUp moves =
    (s.takes moves).filterMap id ++ (s.run moves).log.failures
  /-- Each send that has taken a rejection is told it. -/
  told : ∃ sends, (s.run moves).sends = s.sends ++ sends ∧
    List.Forall₂ Sent.Hears (s.takes moves) sends

/-- One move uses rejections in order. -/
theorem perform_inOrder (s : Site) (m : Move) :
    s.log.failures ++ linedUp [m] = (s.takesWith m).filterMap id ++ (s.perform m).log.failures ∧
      ∃ sends, (s.perform m).sends = s.sends ++ sends ∧
        List.Forall₂ Sent.Hears (s.takesWith m) sends := by
  have hstill : ∀ {s' : Site}, s'.sends = s.sends → s'.log.failures = s.log.failures →
      s.log.failures ++ [] = [] ++ s'.log.failures ∧
        ∃ sends, s'.sends = s.sends ++ sends ∧ List.Forall₂ Sent.Hears [] sends := by
    intro s' hsends hfailures
    exact ⟨by rw [hfailures, List.append_nil, List.nil_append],
      [], by rw [hsends, List.append_nil], .nil⟩
  cases m with
  | send i schema topic index key value =>
      obtain ⟨hline, htold⟩ := (s.writers i).send_takes schema s.log topic index key value
      refine ⟨?_, _, rfl, .cons (fun cause hc => ?_) .nil⟩
      · rw [show linedUp [.send i schema topic index key value] = [] from rfl, List.append_nil,
          hline]
        simp only [takesWith, Site.perform]
        cases (s.writers i).taken? schema s.log topic key value <;> rfl
      · exact Sent.told?_of_wait (htold cause hc)
  | failNext cause => exact ⟨rfl, [], (List.append_nil _).symm, .nil⟩
  | createTopic topic n =>
      refine hstill rfl ?_
      simp only [Site.perform, createTopic]
      split <;> rfl
  | hold => exact hstill rfl rfl
  | release => exact hstill rfl rfl
  | abandon => exact hstill rfl rfl
  | closeWriter i => exact hstill rfl rfl
  | assign i ps => exact hstill rfl rfl
  | seek i ps => exact hstill rfl rfl
  | poll i schema now p => exact hstill rfl rfl
  | endOffsets i ps => exact hstill rfl rfl
  | wake i => exact hstill rfl rfl
  | closeReader i => exact hstill rfl rfl

/-- Rejections are used in the order in which they were lined up, whatever is done. -/
theorem run_inOrder (s : Site) (moves : List Move) : s.InOrder moves := by
  induction moves generalizing s with
  | nil => exact ⟨by simp [linedUp, takes, run], [], by simp [run], .nil⟩
  | cons m moves ih =>
      obtain ⟨hline, sends, hsends, hheard⟩ := s.perform_inOrder m
      obtain ⟨hlines, later, hlater, hhears⟩ := ih (s.perform m)
      have hsplit : linedUp (m :: moves) = linedUp [m] ++ linedUp moves := by
        rw [linedUp, linedUp, linedUp, ← List.filterMap_append, List.singleton_append]
      have hrun : s.run (m :: moves) = (s.perform m).run moves := rfl
      refine ⟨?_, sends ++ later, ?_, List.rel_append hheard hhears⟩
      · calc s.log.failures ++ linedUp (m :: moves)
            = (s.takesWith m).filterMap id ++
                ((s.perform m).log.failures ++ linedUp moves) := by
              rw [hsplit, ← List.append_assoc, hline, List.append_assoc]
          _ = (s.takes (m :: moves)).filterMap id ++ (s.run (m :: moves)).log.failures := by
              rw [hlines, takes, List.filterMap_append, List.append_assoc, hrun]
      · rw [hrun, hlater, hsends, List.append_assoc]

end Rejections

section Refusals

variable {κ ν : Type}

/-- A sender that is told a failure, now or later, was told at once. -/
theorem known_of_failed {s : Site} (hs : s.Kept) (i : Nat) (schema : Schema κ ν) (topic : String)
    (index : Option Nat) (key : κ) (value : Option ν) (later : List Move) {cause : Rejection}
    (h : ((s.perform (.send i schema topic index key value)).run later).log.outcome
      ((s.writers i).send schema s.log topic index key value).1 = some (.error (.failed cause))) :
    ((s.writers i).send schema s.log topic index key value).1 =
      .known (.error (.failed cause)) := by
  cases hwait : ((s.writers i).send schema s.log topic index key value).1 with
  | known outcome =>
      rw [hwait, Log.outcome] at h
      rw [Option.some.inj h]
  | ack id =>
      -- the wait is for an entry that has landed, and no such wait comes to this failure
      have hkept := hs.perform (.send i schema topic index key value)
      have hmem : (⟨i, topic, index, ((s.writers i).send schema s.log topic index key value).1,
          (s.writers i).landing? schema s.log topic index key value⟩ : Sent) ∈
            ((s.perform (.send i schema topic index key value)).run later).sends :=
        (run_extends hkept later).sends.subset (List.mem_append_right _ List.mem_cons_self)
      have hpromises := (hkept.run later).promising _ hmem
      have htold := hpromises.told
      rw [h] at htold
      rw [hwait] at hpromises
      obtain ⟨q, e, hlanded, -⟩ := hpromises
      rw [hlanded] at htold
      rcases htold with hout | hout | hout <;> cases hout

/-- A send whose sender is told a failure, now or later, has left the log as if it had not been
made, but for the rejection that it has taken off the front of the line, if it got that far with one
there; and that is what its sender is told.  Only if it was sent to a partition outside of a topic
that was not there yet has it founded that topic.  Up to then rejections have been used in the order
in which they were lined up. -/
theorem refused_sends_spare (settings : Settings) (moves : List Move) (i : Nat)
    (schema : Schema κ ν) (topic : String) (index : Option Nat) (key : κ) (value : Option ν)
    (later : List Move) (cause : Rejection)
    (hfailed : ((((new settings).run moves).perform
        (.send i schema topic index key value)).run later).log.outcome
      ((((new settings).run moves).writers i).send schema ((new settings).run moves).log topic index
        key value).1 = some (.error (.failed cause))) :
    let s := (new settings).run moves
    let after := (s.perform (.send i schema topic index key value)).log
    let taken := (s.writers i).taken? schema s.log topic key value
    ((s.writers i).send schema s.log topic index key value).1 = .known (.error (.failed cause)) ∧
      ((s.log.Spares after taken ∧ ∀ c, taken = some c → c = cause) ∨
        ∃ n, index = some n ∧ max s.log.settings.defaultPartitions 1 ≤ n ∧ s.log.failures = [] ∧
          cause = Rejection.notHosted ⟨topic, n⟩ ∧ s.log.Founds after topic) ∧
      (new settings).InOrder moves := by
  have hkept : ((new settings).run moves).Kept := (kept_new settings).run moves
  have hwait := known_of_failed hkept i schema topic index key value later hfailed
  exact ⟨hwait, (Writer.refuses_of_known hkept.sound.partitions hwait).leaves,
    run_inOrder (new settings) moves⟩

/-- A send to a partition that the topic does not have is told the first of the two rejections that
are lined up, and leaves the log but for that. -/
theorem refused_sends_spare_sample :
    let s := (new {}).run [.createTopic "jobs" 1, .failNext ⟨"Timeout", "no answer", false⟩,
      .failNext ⟨"Fenced", "too late", false⟩]
    let after := (s.perform (.send 0 .texts "jobs" (some 7) "a" (some "b"))).log
    s.log.Spares after (some ⟨"Timeout", "no answer", false⟩) ∧
      after.failures = [⟨"Fenced", "too late", false⟩] := by
  obtain ⟨-, hleaves, -⟩ := refused_sends_spare {}
    [.createTopic "jobs" 1, .failNext ⟨"Timeout", "no answer", false⟩,
      .failNext ⟨"Fenced", "too late", false⟩]
    0 .texts "jobs" (some 7) "a" (some "b") [.hold] ⟨"Timeout", "no answer", false⟩ rfl
  refine ⟨?_, rfl⟩
  rcases hleaves with ⟨hspares, -⟩ | ⟨n, -, -, hnone, -⟩
  · exact hspares
  · cases hnone

/-- A send to partition 5 of a topic that is not there is refused, and a poll of that partition,
which has brought nothing so far, fails from then on. -/
theorem refused_send_founds :
    let log : Log := (new {}).log
    let after := ((new {}).perform (.send 0 .texts "t" (some 5) "k" none)).log
    let r := (({} : Reader).assign [⟨"t", 5⟩]).2
    after.outcome (({} : Writer).send .texts log "t" (some 5) "k" none).1 =
        some (.error (.failed (Rejection.notHosted ⟨"t", 5⟩))) ∧
      log.partitionCount "t" = none ∧ after.partitionCount "t" = some 1 ∧
      (r.stepPoll .texts 0 log (.started 0)).1 = .done (.ok .empty) ∧
      (r.stepPoll .texts 0 after (.started 0)).1 =
        .done (.error (.unknownPartition ⟨"t", 5⟩)) ∧
      ¬ ∃ taken, log.Spares after taken := by
  refine ⟨rfl, rfl, rfl, rfl, rfl, ?_⟩
  rintro ⟨taken, hspares⟩
  have hcount := hspares.counts "t"
  cases hcount

end Refusals

end Log.Site
end ReplicatedLog
