import ReplicatedLog.Proofs.Channel.Waking
import ReplicatedLog.Proofs.Log.Settling

/-!
# What a reader of one partition sees

A reader that has the first partition of a topic sees the entries there and how many of them it may
take at once, and nothing else of its log.

* `Log.Resembles`: two logs look the same to such a reader;
* `Reader.fetch_eq`, `attempt_of_nothing` and `attempt_of_ahead`: what it does, told by the entries
  ahead of it;
* `Log.Brings`: whatever others do to the log brings one entry to the partition at most, and counts
  it;
* `stepPoll_resembles`: on two logs that look the same a poll does the same, but for the counts that
  it notes;
* `Reader.Watches`: what a poll that waits can rely on, and `Watches.waits`: while it has no reason
  to go on, it waits until its time is up.
-/

namespace ReplicatedLog

namespace Log

section Looks

/-- The entries that a fetch takes from an offset on. -/
def ahead (log : Log) (p : Partition) (n : Nat) : List Entry :=
  ((log.written p).drop n).take log.settings.maxPollRecords

/-- The two logs look the same to a reader of one partition. -/
structure Resembles (a b : Log) (p : Partition) : Prop where
  written : b.written p = a.written p
  room : b.settings.maxPollRecords = a.settings.maxPollRecords

variable {a b c : Log} {p : Partition}

theorem Resembles.symm (h : a.Resembles b p) : b.Resembles a p :=
  ⟨h.written.symm, h.room.symm⟩

theorem Resembles.trans (h : a.Resembles b p) (h' : b.Resembles c p) : a.Resembles c p :=
  ⟨h'.written.trans h.written, h'.room.trans h.room⟩

theorem Resembles.ahead (h : a.Resembles b p) (n : Nat) : b.ahead p n = a.ahead p n := by
  rw [Log.ahead, Log.ahead, h.written, h.room]

/-- Where the first partition of a topic cannot be read, there is no such topic. -/
theorem partitionCount_of_read_eq_none {log : Log} (h : log.HasPartitions) (hp : p.index = 0)
    {start max : Nat} (hread : log.read p start max = none) :
    log.partitionCount p.topic = none := by
  rw [read, entries, hp, Option.map_eq_none_iff] at hread
  rw [partitionCount]
  cases htopic : log.topics.get? p.topic with
  | none => rfl
  | some partitions =>
      rw [htopic, Option.bind_some] at hread
      cases partitions with
      | nil => exact absurd rfl (h _ _ htopic)
      | cons es rest => cases hread

end Looks

section Bringing

/-- The later log has perhaps one entry more in the partition, which is counted. -/
structure Brings (before after : Log) (p : Partition) (new : Option Entry) : Prop where
  written : after.written p = before.written p ++ new.toList
  room : after.settings.maxPollRecords = before.settings.maxPollRecords
  appends : before.appends ≤ after.appends
  counted : new ≠ none → before.appends < after.appends

variable {before after : Log} {p : Partition} {new : Option Entry}

theorem Brings.refl (log : Log) (p : Partition) : log.Brings log p none :=
  ⟨(List.append_nil _).symm, rfl, Nat.le_refl _, fun h => absurd rfl h⟩

/-- What the log brings can be told from its entries. -/
theorem Brings.new_eq (h : before.Brings after p new) :
    (after.written p)[(before.written p).length]? = new := by
  rw [h.written, List.getElem?_append_right (Nat.le_refl _), Nat.sub_self]
  cases new <;> rfl

/-- A log that brings nothing looks the same. -/
theorem Brings.resembles (h : before.Brings after p none) : before.Resembles after p :=
  ⟨h.written.trans (List.append_nil _), h.room⟩

/-- Two logs that look the same and bring the same look the same. -/
theorem Brings.both {a b a' b' : Log} (h : a.Brings a' p new) (h' : b.Brings b' p new)
    (hab : a.Resembles b p) : a'.Resembles b' p := by
  refine ⟨?_, ?_⟩
  · rw [h'.written, hab.written, h.written]
  · rw [h'.room, hab.room, h.room]

theorem ensureTopic_appends (log : Log) (topic : String) :
    (log.ensureTopic topic).appends = log.appends := by
  unfold ensureTopic createTopic
  split <;> rfl

/-- An append that lands is counted, and no other one. -/
theorem append_appends (log : Log) (topic : String) (index : Option Nat) (e : Entry) :
    (log.append topic index e).2.appends =
      match (log.append topic index e).1 with
      | .ok _ => log.appends + 1
      | .error _ => log.appends := by
  have hmade := ensureTopic_appends log topic
  unfold append
  split
  · rfl
  · dsimp only
    split <;> simp only [hmade]

theorem acknowledge_appends (log : Log) (q : Position) :
    (log.acknowledge q).2.appends = log.appends := by
  unfold acknowledge
  dsimp only
  split <;> rfl

theorem appendEntry_appends (log : Log) (topic : String) (index : Option Nat) (e : Entry) :
    (Writer.appendEntry log topic index e).2.appends = (log.append topic index e).2.appends := by
  unfold Writer.appendEntry
  split
  next q after h =>
    rw [h]
    exact acknowledge_appends after q
  next cause after h => rw [h]

theorem written_of_topics {a b : Log} (h : b.topics = a.topics) (p : Partition) :
    b.written p = a.written p := by
  rw [written, written, entries, entries, h]

/-- An append brings its entry to the partition where it lands. -/
theorem appendEntry_brings (log : Log) (topic : String) (index : Option Nat) (e : Entry)
    (p : Partition) :
    ∃ new, log.Brings (Writer.appendEntry log topic index e).2 p new := by
  obtain ⟨hsettings, htopics⟩ := appendEntry_topics log topic index e
  have hcount := (appendEntry_appends log topic index e).trans (append_appends log topic index e)
  have hroom := congrArg Settings.maxPollRecords
    (hsettings.trans (append_frame log topic index e).1)
  have hentries := append_entries log topic index e
  have hwritten := written_of_topics htopics p
  cases hok : (log.append topic index e).1 with
  | ok q =>
      rw [hok] at hcount hentries
      have hmore : log.appends < (Writer.appendEntry log topic index e).2.appends :=
        Nat.lt_of_lt_of_eq (Nat.lt_succ_self _) hcount.symm
      have hadds := hentries.2.2 p
      by_cases hp : p = q.partition
      · rw [if_pos hp] at hadds
        exact ⟨some e, hwritten.trans hadds, hroom, Nat.le_of_lt hmore, fun _ => hmore⟩
      · rw [if_neg hp] at hadds
        exact ⟨none, (hwritten.trans hadds).trans (List.append_nil _).symm, hroom,
          Nat.le_of_lt hmore, fun h => absurd rfl h⟩
  | error cause =>
      rw [hok] at hcount hentries
      exact ⟨none, (hwritten.trans (hentries p)).trans (List.append_nil _).symm, hroom,
        Nat.le_of_eq hcount.symm, fun h => absurd rfl h⟩

/-- Whatever is done to a log brings one entry at most. -/
theorem perform_brings (log : Log) (op : Operation) (p : Partition) :
    ∃ new, log.Brings (log.perform op) p new := by
  have hstill : ∀ {after : Log}, after.topics = log.topics → after.settings = log.settings →
      after.appends = log.appends → ∃ new, log.Brings after p new := by
    intro after htopics hsettings happends
    exact ⟨none, (written_of_topics htopics p).trans (List.append_nil _).symm,
      congrArg Settings.maxPollRecords hsettings, Nat.le_of_eq happends.symm,
      fun h => absurd rfl h⟩
  cases op with
  | createTopic topic n =>
      refine ⟨none, ?_, congrArg Settings.maxPollRecords (createTopic_settings log topic n), ?_,
        fun h => absurd rfl h⟩
      · exact (createTopic_addsNothing log topic n p).trans (List.append_nil _).symm
      · rw [perform, createTopic]
        split <;> exact Nat.le_refl _
  | failNext cause => exact hstill rfl rfl rfl
  | hold => exact hstill rfl rfl rfl
  | release => exact hstill rfl rfl rfl
  | abandon => exact hstill rfl rfl rfl
  | append topic index e => exact appendEntry_brings log topic index e p

theorem brings_of_perform {log after : Log}
    (h : after = log ∨ ∃ op : Operation, after = log.perform op) (p : Partition) :
    ∃ new, log.Brings after p new := by
  rcases h with rfl | ⟨op, rfl⟩
  · exact ⟨none, .refl after p⟩
  · exact perform_brings log op p

end Bringing

end Log

namespace Reader

section Fetching

variable (schema : CommandSchema) {log : Log} {r : Reader} {p : Partition} {n : Nat}

/-- The reader after it has taken records from its only partition. -/
def past (r : Reader) (p : Partition) (n : Nat) (rs : List CommandRecord) : Reader :=
  { r with positions := r.positions.insert p (n + rs.length) }

/-- A fetch takes what is ahead of the reader, if it can be decoded. -/
theorem fetch_eq (hlog : log.HasPartitions) (hp : p.index = 0) (h : r.At p n) :
    r.fetch schema log =
      match decodeEntries schema p n (log.ahead p n) with
      | .error e => (.error e, r)
      | .ok rs => (.ok ⟨rs⟩, if rs.isEmpty then r else r.past p n rs) := by
  unfold fetch
  have hentries : r.positions.entries = _ := h
  rw [hentries]
  by_cases hroom : log.settings.maxPollRecords = 0
  · have hahead : log.ahead p n = [] := by rw [Log.ahead, hroom, List.take_zero]
    rw [hahead]
    simp [hroom, scan_zero, decodeEntries]
  · cases hread : log.read p n log.settings.maxPollRecords with
    | none =>
        have hahead : log.ahead p n = [] := by
          rw [Log.ahead, Log.read_eq_none hread, List.drop_nil, List.take_nil]
        rw [hahead, scan_of_none hroom hread,
          if_pos (Log.partitionCount_of_read_eq_none hlog hp hread)]
        rfl
    | some es =>
        have hahead : log.ahead p n = es := (Log.read_eq_some hread).symm
        rw [hahead]
        cases hd : decodeEntries schema p n es with
        | error e => rw [scan_of_garbled hroom hread hd]
        | ok rs =>
            have hlen := (decodeEntries_ok hd).2.1
            rw [scan_of_some hroom hread hd, ← hlen]
            cases rs with
            | nil =>
                obtain rfl := List.length_eq_zero_iff.1 hlen.symm
                simp [scan, Except.map]
            | cons record rs =>
                have hne : es.isEmpty = false := by
                  cases es with
                  | nil => cases hlen
                  | cons e es => rfl
                simp [scan, Except.map, hne, past]

/-- With nothing ahead a poll looks at its flags, and waits if its time is not up. -/
theorem attempt_of_nothing (hlog : log.HasPartitions) (hp : p.index = 0) (h : r.At p n)
    (hnothing : log.ahead p n = []) (now deadline : Nat) :
    attempt schema now log r deadline =
      match r.ensureUsable with
      | (.error e, r) => (.done (.error e), r)
      | (.ok (), _) =>
          if deadline ≤ now then (.done (.ok ⟨[]⟩), r)
          else (.waiting (.parked deadline (seenNow log r)), r) := by
  have hfetch := fetch_eq schema hlog hp h
  rw [hnothing] at hfetch
  simp only [decodeEntries, List.isEmpty_nil, if_true] at hfetch
  rw [attempt_of_none hfetch rfl]
  rcases hu : r.ensureUsable with ⟨_ | ⟨⟨⟩⟩, r'⟩
  · rfl
  · obtain ⟨rfl, -⟩ := ensureUsable_ok hu
    rfl

/-- With something ahead a poll brings it, or fails to decode it. -/
theorem attempt_of_ahead (hlog : log.HasPartitions) (hp : p.index = 0) (h : r.At p n)
    (hahead : log.ahead p n ≠ []) (now deadline : Nat) :
    attempt schema now log r deadline =
      match decodeEntries schema p n (log.ahead p n) with
      | .error e => (.done (.error e), r)
      | .ok rs => (.done (.ok ⟨rs⟩), r.past p n rs) := by
  have hfetch := fetch_eq schema hlog hp h
  cases hd : decodeEntries schema p n (log.ahead p n) with
  | error e =>
      rw [hd] at hfetch
      exact attempt_of_error hfetch now deadline
  | ok rs =>
      have hlen := (decodeEntries_ok hd).2.1
      have hne : rs.isEmpty = false := by
        cases rs with
        | nil => exact absurd (List.length_eq_zero_iff.1 hlen.symm) hahead
        | cons record rs => rfl
      rw [hd] at hfetch
      simp only [hne, Bool.false_eq_true, if_false] at hfetch
      exact attempt_of_some hfetch hne now deadline

end Fetching

section Likeness

variable (schema : CommandSchema) {a b log : Log} {r : Reader} {p : Partition} {n : Nat}

/-- A poll without the counts that it has noted. -/
def Poll.blank : Poll → Poll
  | .started timeout => .started timeout
  | .parked deadline _ => .parked deadline ⟨0, 0⟩

/-- On logs that look the same an attempt comes to the same, but for the counts that it notes. -/
theorem attempt_resembles (hab : a.Resembles b p) (ha : a.HasPartitions) (hb : b.HasPartitions)
    (hp : p.index = 0) (h : r.At p n) (now deadline : Nat) :
    (attempt schema now b r deadline).1.map Poll.blank id =
        (attempt schema now a r deadline).1.map Poll.blank id ∧
      (attempt schema now b r deadline).2 = (attempt schema now a r deadline).2 := by
  by_cases hnothing : a.ahead p n = []
  · have hnothing' : b.ahead p n = [] := (hab.ahead n).trans hnothing
    rw [attempt_of_nothing schema ha hp h hnothing, attempt_of_nothing schema hb hp h hnothing']
    rcases r.ensureUsable with ⟨_ | ⟨⟨⟩⟩, r'⟩
    · exact ⟨rfl, rfl⟩
    · by_cases hover : deadline ≤ now
      · rw [if_pos hover, if_pos hover]
        exact ⟨rfl, rfl⟩
      · rw [if_neg hover, if_neg hover]
        exact ⟨rfl, rfl⟩
  · have hahead' : b.ahead p n ≠ [] := (hab.ahead n).symm ▸ hnothing
    rw [attempt_of_ahead schema ha hp h hnothing, attempt_of_ahead schema hb hp h hahead',
      hab.ahead n]
    exact ⟨rfl, rfl⟩

/-- A poll goes on waiting if nothing is ahead, nobody calls and its time is not up. -/
theorem attempt_waits (hlog : log.HasPartitions) (hp : p.index = 0) (h : r.At p n)
    (hnothing : log.ahead p n = []) (hclosed : r.isClosed = false) (hwoken : r.isWoken = false)
    {now deadline : Nat} (htime : now < deadline) :
    attempt schema now log r deadline = (.waiting (.parked deadline (seenNow log r)), r) := by
  rw [attempt_of_nothing schema hlog hp h hnothing, ensureUsable_of_calm hclosed hwoken]
  exact if_neg (Nat.not_le.2 htime)

/-- Only then does a poll go on waiting. -/
theorem of_attempt_waits (hlog : log.HasPartitions) (hp : p.index = 0) (h : r.At p n)
    {now deadline : Nat} {poll : Poll}
    (hwaits : (attempt schema now log r deadline).1 = .waiting poll) :
    log.ahead p n = [] ∧ r.isClosed = false ∧ r.isWoken = false ∧ now < deadline := by
  by_cases hnothing : log.ahead p n = []
  · rw [attempt_of_nothing schema hlog hp h hnothing] at hwaits
    rcases hu : r.ensureUsable with ⟨_ | ⟨⟨⟩⟩, r'⟩
    · rw [hu] at hwaits
      cases hwaits
    · rw [hu] at hwaits
      obtain ⟨-, hopened, hcalm⟩ := ensureUsable_ok hu
      by_cases hover : deadline ≤ now
      · simp only [if_pos hover] at hwaits
        cases hwaits
      · exact ⟨hnothing, hopened, hcalm, Nat.lt_of_not_le hover⟩
  · rw [attempt_of_ahead schema hlog hp h hnothing] at hwaits
    split at hwaits <;> cases hwaits

/-- On logs that look the same a step of a poll comes to the same, but for the counts that it has
noted. -/
theorem stepPoll_resembles (hab : a.Resembles b p) (ha : a.HasPartitions) (hb : b.HasPartitions)
    (hp : p.index = 0) (h : r.At p n) (now : Nat) {poll poll' : Poll}
    (hblank : poll'.blank = poll.blank) :
    (stepPoll schema now b r poll').1.map Poll.blank id =
        (stepPoll schema now a r poll).1.map Poll.blank id ∧
      (stepPoll schema now b r poll').2 = (stepPoll schema now a r poll).2 := by
  cases poll with
  | started timeout =>
      cases poll' with
      | parked deadline' seen' => cases hblank
      | started timeout' =>
          cases hblank
          simp only [stepPoll]
          rcases hu : r.ensureUsable with ⟨_ | ⟨⟨⟩⟩, r'⟩
          · exact ⟨rfl, rfl⟩
          · obtain ⟨rfl, -⟩ := ensureUsable_ok hu
            exact attempt_resembles schema hab ha hb hp h now (now + timeout)
  | parked deadline seen =>
      cases poll' with
      | started timeout' => cases hblank
      | parked deadline' seen' =>
          cases hblank
          exact attempt_resembles schema hab ha hb hp h now deadline

end Likeness

section Watching

variable {schema : CommandSchema} {log after : Log} {r : Reader} {p : Partition} {n : Nat}
  {seen : Seen} {new : Option Entry}

/-- What a poll that waits can rely on: while neither of its counts has gone on, nothing is ahead
and nobody calls. -/
structure Watches (r : Reader) (log : Log) (p : Partition) (seen : Seen) : Prop where
  appends : seen.appends ≤ log.appends
  calls : seen.calls ≤ r.calls
  nothing : seen.appends = log.appends → ∀ n, r.At p n → log.ahead p n = []
  calm : seen.calls = r.calls → r.isClosed = false ∧ r.isWoken = false

/-- What others do to the log is counted if it brings something. -/
theorem Watches.brings (h : r.Watches log p seen) (hb : log.Brings after p new) :
    r.Watches after p seen := by
  refine ⟨Nat.le_trans h.appends hb.appends, h.calls, fun hsame n hat => ?_, h.calm⟩
  have hlow := h.appends
  have hhigh := hb.appends
  cases new with
  | some e =>
      have hmore := hb.counted (Option.some_ne_none e)
      omega
  | none =>
      have hstill : seen.appends = log.appends := by omega
      rw [hb.resembles.ahead n]
      exact h.nothing hstill n hat

/-- A wakeup is counted. -/
theorem Watches.wake (h : r.Watches log p seen) : r.wake.Watches log p seen := by
  refine ⟨h.appends, Nat.le_succ_of_le h.calls, fun hsame n hat => ?_, fun hcalls => ?_⟩
  · exact h.nothing hsame n (hat.of_positions rfl)
  · have hlow := h.calls
    have hmore : seen.calls = r.calls + 1 := hcalls
    omega

/-- A poll that begins to wait has looked at everything. -/
theorem attempt_watches (hlog : log.HasPartitions) (hp : p.index = 0) (h : r.At p n)
    {now deadline : Nat} {poll : Poll}
    (hwaits : (attempt schema now log r deadline).1 = .waiting poll) :
    ∃ seen, poll = .parked deadline seen ∧ (attempt schema now log r deadline).2 = r ∧
      r.Watches log p seen := by
  obtain ⟨hnothing, hclosed, hwoken, htime⟩ := of_attempt_waits schema hlog hp h hwaits
  rw [attempt_waits schema hlog hp h hnothing hclosed hwoken htime] at hwaits ⊢
  cases hwaits
  refine ⟨seenNow log r, rfl, rfl, ?_⟩
  refine ⟨Nat.le_refl _, Nat.le_refl _, fun _ m hm => ?_, fun _ => ⟨hclosed, hwoken⟩⟩
  have hsame : m = n := by
    have := hm.symm.trans h
    simpa using this
  rw [hsame]
  exact hnothing

theorem stepPoll_watches (hlog : log.HasPartitions) (hp : p.index = 0) (h : r.At p n)
    {now : Nat} {poll poll' : Poll}
    (hwaits : (stepPoll schema now log r poll).1 = .waiting poll') :
    ∃ deadline seen, poll' = .parked deadline seen ∧
      (stepPoll schema now log r poll).2 = r ∧ r.Watches log p seen := by
  rcases stepPoll_cases schema now r poll with ⟨err, r', -, hstep⟩ | ⟨deadline, hstep⟩
  · rw [hstep] at hwaits
    cases hwaits
  · rw [hstep] at hwaits ⊢
    exact ⟨deadline, attempt_watches hlog hp h hwaits⟩

/-- A poll that has no reason to go on waits until its time is up. -/
theorem Watches.waits (schema : CommandSchema) (h : r.Watches log p seen)
    (hlog : log.HasPartitions) (hp : p.index = 0) (hat : r.At p n) {now deadline : Nat}
    (hready : pollReady now log r (.parked deadline seen) = false) {t : Nat} (ht : t < deadline) :
    attempt schema t log r deadline = (.waiting (.parked deadline (seenNow log r)), r) := by
  have hseen : seen = seenNow log r := by
    by_contra hne
    simp [pollReady, hne] at hready
  obtain ⟨hclosed, hwoken⟩ := h.calm (congrArg Seen.calls hseen)
  have hnothing := h.nothing (congrArg Seen.appends hseen) n hat
  exact attempt_waits schema hlog hp hat hnothing hclosed hwoken ht

end Watching

end Reader
end ReplicatedLog
