import ReplicatedLog.Proofs.Channel.Rounds
import ReplicatedLog.Proofs.Desk.Failing
import Mathlib.Algebra.Order.BigOperators.Group.List

/-!
# Settings under which readers get on

A poll brings no more records than the settings of the log allow.  If they allow one, a reader gets
to the end of everything that is assigned to it; if they allow none, it never gets anywhere, and
cannot tell this from the end of the log.

* `Settings.made?`: how settings come to be: the standard ones or those of a document, and updates
  after that; `maxPollRecords_eq_zero_iff` says when they allow no record;
* `Reader.unread` counts what is left to be read, and `fetch_gets_on`: a fetch that may take
  something leaves less;
* `Reader.pollEach` polls again and again, and `pollEach_reaches`: that comes to the end;
* `Traffic.replay_alone`: what a replay brings that is left to itself;
* `Settings.made_settings_get_on`: readers get on under all settings but those of a document that
  allows no record.
-/

namespace ReplicatedLog

open Channel

namespace Log.Settings

section Making

/-- An update of settings. -/
inductive Update
  | defaultPartitions (n : Nat)
  | maxPollRecords (n : Nat)

/-- The settings after an update. -/
def update (s : Settings) : Update → Settings
  | .defaultPartitions n => s.withDefaultPartitions n
  | .maxPollRecords n => s.withMaxPollRecords n

/-- Where settings come from. -/
inductive Origin
  | standard
  | document (text : Bytes)

/-- The settings of an origin, if its document can be read. -/
def Origin.settings? : Origin → Option Settings
  | standard => some {}
  | document text => (ofJson text).toOption

/-- The settings of an origin after updates. -/
def made? (origin : Origin) (updates : List Update) : Option Settings :=
  origin.settings?.map fun s => updates.foldl update s

theorem maxPollRecords_updates (updates : List Update) (s : Settings) :
    (updates.foldl update s).maxPollRecords = 0 ↔
      s.maxPollRecords = 0 ∧ ∀ n, .maxPollRecords n ∉ updates := by
  induction updates generalizing s with
  | nil => simp
  | cons u updates ih =>
      rw [List.foldl_cons, ih]
      cases u with
      | defaultPartitions n => simp [update, withDefaultPartitions]
      | maxPollRecords n =>
          have hraised : max n 1 ≠ 0 := by omega
          constructor
          · rintro ⟨hzero, -⟩
            exact absurd hzero hraised
          · rintro ⟨-, hnone⟩
            exact absurd List.mem_cons_self (hnone n)

/-- Settings allow no record only if their document says so and no update has set the limit. -/
theorem maxPollRecords_eq_zero_iff {origin : Origin} {updates : List Update} {s : Settings}
    (h : made? origin updates = some s) :
    s.maxPollRecords = 0 ↔
      (∃ text s₀, origin = .document text ∧ ofJson text = .ok s₀ ∧ s₀.maxPollRecords = 0) ∧
        ∀ n, .maxPollRecords n ∉ updates := by
  obtain ⟨s₀, horigin, rfl⟩ := Option.map_eq_some_iff.1 h
  rw [maxPollRecords_updates]
  refine and_congr_left' ?_
  cases origin with
  | standard =>
      cases horigin
      simp
  | document text =>
      have hread : ofJson text = .ok s₀ := by
        rw [Origin.settings?] at horigin
        cases hdoc : ofJson text with
        | error err => simp [hdoc, Except.toOption] at horigin
        | ok s₁ =>
            rw [hdoc] at horigin
            cases horigin
            rfl
      constructor
      · exact fun hzero => ⟨text, s₀, rfl, hread, hzero⟩
      · rintro ⟨text', s₁, heq, hread', hzero⟩
        cases heq
        rw [hread] at hread'
        cases hread'
        exact hzero

end Making

end Log.Settings

namespace Reader

variable {κ ν : Type} {schema : Schema κ ν} {log : Log} {r : Reader}

section Progress

/-- Nothing keeps the reader from reading: it is open, no wakeup is pending, its partitions are
there and all entries can be decoded. -/
structure CanRead (schema : Schema κ ν) (log : Log) (r : Reader) : Prop where
  opened : r.isClosed = false
  calm : r.isWoken = false
  hosted : ∀ p ∈ r.assignment, log.entries p ≠ none
  readable : ∀ p offset e, (log.written p)[offset]? = some e →
    ∃ record, decodeEntry schema p offset e = .ok record

/-- How many entries are past the positions of the reader. -/
def unread (log : Log) (r : Reader) : Nat :=
  (r.assignment.map fun p => (log.written p).length - (r.position p).getD 0).sum

theorem hasUnread_iff : r.HasUnread log ↔ 0 < r.unread log := by
  have hiff : r.HasUnread log ↔
      ∃ p ∈ r.assignment, 0 < (log.written p).length - (r.position p).getD 0 := by
    constructor
    · rintro ⟨p, n, hmem, hlt⟩
      have hget : r.position p = some n := SortedMap.get?_eq_some_iff.2 hmem
      refine ⟨p, List.mem_map.2 ⟨_, hmem, rfl⟩, ?_⟩
      rw [hget, Option.getD_some]
      omega
    · rintro ⟨p, hp, hlt⟩
      obtain ⟨n, hn⟩ := SortedMap.mem_keys_iff.1 hp
      refine ⟨p, n, SortedMap.get?_eq_some_iff.1 hn, ?_⟩
      rw [show r.position p = some n from hn, Option.getD_some] at hlt
      omega
  rw [hiff, unread, Nat.pos_iff_ne_zero, Ne, List.sum_eq_zero_iff]
  constructor
  · rintro ⟨p, hp, hlt⟩ hzero
    have hnone := hzero _ (List.mem_map.2 ⟨p, hp, rfl⟩)
    omega
  · intro hnot
    by_contra hnone
    refine hnot fun x hx => ?_
    obtain ⟨p, hp, rfl⟩ := List.mem_map.1 hx
    by_contra hne
    exact hnone ⟨p, hp, Nat.pos_of_ne_zero hne⟩

theorem CanRead.not_unreadable (h : CanRead schema log r) {p : Partition} {err : LogError}
    (hp : p ∈ r.assignment) : ¬ Unreadable schema log p err := by
  intro hfails
  cases hfails with
  | missing topic gone => exact h.hosted p hp gone
  | garbled entry decode =>
      obtain ⟨record, hok⟩ := h.readable p _ _ entry
      rw [decode] at hok
      cases hok

/-- A reader that has fetched can read on. -/
theorem CanRead.fetch (h : CanRead schema log r) {b : Batch κ ν} {r' : Reader}
    (hf : r.fetch schema log = (.ok b, r')) : CanRead schema log r' := by
  have hadvances := (fetch_advances hf).2
  have hassigned : r'.assignment = r.assignment := hadvances.keys
  refine ⟨(fetch_isClosed hf).trans h.opened, (fetch_isWoken hf).trans h.calm, fun p hp => ?_,
    h.readable⟩
  rw [hassigned] at hp
  exact h.hosted p hp

/-- A poll ends with the records that its fetch brings. -/
theorem stepPoll_of_some (h : CanRead schema log r) {b : Batch κ ν} {r' : Reader}
    (hf : r.fetch schema log = (.ok b, r')) (hsome : b.isEmpty = false) (now : Nat) (poll : Poll) :
    r.stepPoll schema now log poll = (.done (.ok b), r') := by
  obtain ⟨deadline, hstep⟩ := stepPoll_of_calm h.opened h.calm schema now poll
  rw [hstep]
  exact attempt_of_some hf hsome now deadline

/-- A fetch that may take something brings records and leaves less unread, or there is nothing to be
read. -/
theorem fetch_gets_on (h : CanRead schema log r) (hroom : log.settings.maxPollRecords ≠ 0) :
    (∃ b r', r.fetch schema log = (.ok b, r') ∧ b.isEmpty = false ∧
        r'.unread log < r.unread log) ∨
      (r.fetch schema log = (.ok .empty, r) ∧ r.unread log = 0) := by
  rcases fetch_cases schema log r with ⟨err, p, hp, hfails, -⟩ | ⟨b, r', hsome, hf⟩ | hf
  · exact absurd hfails (h.not_unreadable hp)
  · left
    refine ⟨b, r', hf, hsome, ?_⟩
    have hadvances := (fetch_advances hf).2
    have hshows := fetch_shows hf
    have hassigned : r'.assignment = r.assignment := hadvances.keys
    -- each position moves on by the records of its partition, and one of them does move
    have hposition : ∀ p ∈ r.assignment, (r'.position p).getD 0 =
        (r.position p).getD 0 + (b.offsets p).length := by
      intro p hp
      obtain ⟨n, hn⟩ := SortedMap.mem_keys_iff.1 hp
      rw [show r'.position p = some _ from hadvances.moved p n hn,
        show r.position p = some n from hn, Option.getD_some, Option.getD_some]
    rw [unread, unread, hassigned]
    refine List.sum_lt_sum _ _ (fun p hp => ?_) ?_
    · rw [hposition p hp]
      omega
    · obtain ⟨record, hrecord⟩ : ∃ record, record ∈ b.records := by
        rw [Batch.isEmpty, List.isEmpty_eq_false_iff_exists_mem] at hsome
        exact hsome
      have hp := hadvances.assigned record hrecord
      obtain ⟨n, hn⟩ := SortedMap.mem_keys_iff.1 hp
      obtain ⟨e, he, -⟩ := hshows.there record hrecord
      have hlt := (List.getElem?_eq_some_iff.1 he).1
      have hoffset : record.offset ∈ b.offsets record.partition :=
        Batch.mem_offsets.2 ⟨record, hrecord, rfl, rfl⟩
      have hpos := List.length_pos_of_mem hoffset
      rw [hadvances.runs _ n hn, List.mem_range'_1] at hoffset
      refine ⟨record.partition, hp, ?_⟩
      rw [hposition _ hp, show r.position record.partition = some n from hn, Option.getD_some]
      omega
  · right
    refine ⟨hf, ?_⟩
    have hnone := (fetch_empty hroom hf rfl).2
    rw [hasUnread_iff] at hnone
    omega

/-- A poll that may take something brings records if there are any. -/
theorem stepPoll_gets_on (h : CanRead schema log r) (hroom : log.settings.maxPollRecords ≠ 0)
    (hunread : r.HasUnread log) (now : Nat) (poll : Poll) :
    ∃ b r', r.stepPoll schema now log poll = (.done (.ok b), r') ∧ b.isEmpty = false := by
  rw [hasUnread_iff] at hunread
  rcases fetch_gets_on h hroom with ⟨b, r', hf, hsome, -⟩ | ⟨-, hzero⟩
  · exact ⟨b, r', stepPoll_of_some h hf hsome now poll, hsome⟩
  · omega

/-- A poll whose fetch finds nothing ends without a record or waits, and leaves the reader. -/
theorem stepPoll_of_empty (hopened : r.isClosed = false) (hcalm : r.isWoken = false)
    (hf : r.fetch schema log = (.ok .empty, r)) (now : Nat) (poll : Poll) :
    (r.stepPoll schema now log poll).2 = r ∧
      ((r.stepPoll schema now log poll).1 = .done (.ok .empty) ∨
        ∃ deadline seen,
          (r.stepPoll schema now log poll).1 = .waiting (.parked deadline seen)) := by
  obtain ⟨deadline, hstep⟩ := stepPoll_of_calm hopened hcalm schema now poll
  rw [hstep, attempt_of_none hf rfl, ensureUsable_of_calm hopened hcalm]
  dsimp only
  split
  · exact ⟨rfl, Or.inl rfl⟩
  · exact ⟨rfl, Or.inr ⟨_, _, rfl⟩⟩

/-- A fetch that may take nothing takes nothing. -/
theorem fetch_of_no_room (schema : Schema κ ν) (r : Reader)
    (hroom : log.settings.maxPollRecords = 0) : r.fetch schema log = (.ok .empty, r) := by
  rw [fetch, hroom, scan_zero]
  rfl

end Progress

section Repeating

/-- Polls one after the other, each given up if it has to wait: the batches that they bring, and the
reader after them. -/
def pollEach (schema : Schema κ ν) (log : Log) :
    List (Nat × Nat) → Reader → List (Batch κ ν) × Reader
  | [], r => ([], r)
  | (now, timeout) :: polls, r =>
      match r.stepPoll schema now log (.started timeout) with
      | (.done (.ok b), r') =>
          let (later, last) := pollEach schema log polls r'
          (b :: later, last)
      | (_, r') => pollEach schema log polls r'

/-- Polls that end without a record, or are given up, leave everything where it is. -/
theorem pollEach_of_empty (hopened : r.isClosed = false) (hcalm : r.isWoken = false)
    (hf : r.fetch schema log = (.ok .empty, r)) (polls : List (Nat × Nat)) :
    (∀ b ∈ (r.pollEach schema log polls).1, b = .empty) ∧ (r.pollEach schema log polls).2 = r := by
  induction polls with
  | nil => exact ⟨nofun, rfl⟩
  | cons poll polls ih =>
      obtain ⟨now, timeout⟩ := poll
      obtain ⟨hstill, hends⟩ := stepPoll_of_empty hopened hcalm hf now (.started timeout)
      cases hstep : r.stepPoll schema now log (.started timeout) with
      | mk progress r' =>
          rw [hstep] at hstill hends
          obtain rfl : r' = r := hstill
          rcases hends with hdone | ⟨deadline, seen, hwaits⟩
          · obtain rfl : progress = .done (.ok .empty) := hdone
            rw [pollEach, hstep]
            refine ⟨fun b hb => ?_, ih.2⟩
            rcases List.mem_cons.1 hb with rfl | hb
            · rfl
            · exact ih.1 b hb
          · obtain rfl : progress = .waiting (.parked deadline seen) := hwaits
            rw [pollEach, hstep]
            exact ih

/-- The records of one partition in batches, in their order. -/
def recordsOf (batches : List (Batch κ ν)) (p : Partition) : List (Record κ ν) :=
  batches.flatMap fun b => b.ofPartition p

theorem recordsOf_eq_nil {batches : List (Batch κ ν)} (h : ∀ b ∈ batches, b = .empty)
    (p : Partition) : recordsOf batches p = [] := by
  rw [recordsOf, List.flatMap_eq_nil_iff]
  rintro b hb
  rw [h b hb]
  rfl

/-- The batches bring everything of the assigned partitions that is past the positions of the
reader, and the positions of the last reader are at the ends. -/
def ReadsAll (schema : Schema κ ν) (log : Log) (r : Reader) (batches : List (Batch κ ν))
    (last : Reader) : Prop :=
  ∀ p n, r.position p = some n →
    Continues schema log p n (recordsOf batches p) ∧
      n + (recordsOf batches p).length = max n (log.written p).length ∧
      last.position p = some (max n (log.written p).length)

theorem readsAll_of_end (hend : r.unread log = 0) {batches : List (Batch κ ν)}
    (hnone : ∀ b ∈ batches, b = .empty) : ReadsAll schema log r batches r := by
  intro p n hn
  have hle : (log.written p).length ≤ n := by
    by_contra hlt
    have hunread : r.HasUnread log :=
      ⟨p, n, SortedMap.get?_eq_some_iff.1 hn, Nat.lt_of_not_le hlt⟩
    rw [hasUnread_iff, hend] at hunread
    exact absurd hunread (Nat.lt_irrefl 0)
  rw [recordsOf_eq_nil hnone, Nat.max_eq_left hle]
  exact ⟨.nil schema log p n, rfl, hn⟩

/-- Records that continue from an offset are within the partition. -/
theorem Continues.max_eq {p : Partition} {n : Nat} {rs : List (Record κ ν)}
    (h : Continues schema log p n rs) :
    max (n + rs.length) (log.written p).length = max n (log.written p).length := by
  cases hrs : rs.length with
  | zero => rfl
  | succ k =>
      have hmem : n + k ∈ rs.map Record.offset := by
        rw [h.offsets, hrs, List.mem_range'_1]
        omega
      obtain ⟨record, hrecord, hoffset⟩ := List.mem_map.1 hmem
      obtain ⟨entry, hentry, -⟩ := h.there record hrecord
      have hlt := (List.getElem?_eq_some_iff.1 hentry).1
      omega

/-- Enough polls that may take something read everything. -/
theorem pollEach_reaches (h : CanRead schema log r) (hroom : log.settings.maxPollRecords ≠ 0)
    (polls : List (Nat × Nat)) (henough : r.unread log ≤ polls.length) :
    ReadsAll schema log r (r.pollEach schema log polls).1 (r.pollEach schema log polls).2 := by
  induction polls generalizing r with
  | nil => exact readsAll_of_end (Nat.le_zero.1 henough) nofun
  | cons poll polls ih =>
      rcases fetch_gets_on h hroom with ⟨b, r', hf, hsome, hless⟩ | ⟨hf, hzero⟩
      · obtain ⟨now, timeout⟩ := poll
        have hstep := stepPoll_of_some h hf hsome now (.started timeout)
        rw [List.length_cons] at henough
        have hlater := ih (h.fetch hf) (by omega)
        rw [pollEach, hstep]
        intro p n hn
        have hadvances := (fetch_advances hf).2
        obtain ⟨hfirst, hmoved⟩ := hadvances.continues (fetch_shows hf) hn
        obtain ⟨hrest, hlen, hlast⟩ := hlater p _ hmoved
        rw [hfirst.max_eq] at hlen hlast
        refine ⟨hfirst.append hrest, ?_, hlast⟩
        rw [← hlen, Nat.add_assoc, ← List.length_append]
        rfl
      · obtain ⟨hempty, hstill⟩ := pollEach_of_empty h.opened h.calm hf (poll :: polls)
        rw [hstill]
        exact readsAll_of_end hzero hempty

end Repeating

end Reader

namespace Rounds

section Alone

variable {j : Rounds} {t : Traffic} {late steps now : Nat} {ds : List Deed}

/-- A replay that makes steps in time stands somewhere after them. -/
theorem Stands.run_own (h : j.Stands t late ds steps) (hs : t.Sound)
    (htime : now + j.timeout ≤ late) (n : Nat) :
    ∃ more, (t.run (List.replicate n (.step j.task now))).deeds = t.deeds ++ more ∧
      j.Stands (t.run (List.replicate n (.step j.task now))) late (ds ++ more) (steps + n) := by
  induction n with
  | zero =>
      refine ⟨[], (List.append_nil _).symm, ?_⟩
      rw [List.append_nil]
      exact h
  | succ n ih =>
      obtain ⟨more, hdeeds, hstands⟩ := ih
      obtain ⟨last, hlast, hnext⟩ := hstands.perform_own (Traffic.run_sound hs _) htime
      have hrun : t.run (List.replicate (n + 1) (.step j.task now)) =
          (t.run (List.replicate n (.step j.task now))).perform (.step j.task now) := by
        rw [List.replicate_succ', Traffic.run, List.foldl_append]
        rfl
      rw [hrun]
      refine ⟨more ++ last, by rw [hlast, hdeeds, List.append_assoc], ?_⟩
      rw [← List.append_assoc]
      exact hnext

/-- When it has taken enough steps and its time is up, the next step finds it ended, or ends it. -/
theorem Stands.finishes (h : j.Stands t late ds steps) (hsteps : j.full + 2 ≤ steps)
    (hlate : late ≤ now) :
    ∃ more, (t.perform (.step j.task now)).deeds = t.deeds ++ more ∧
      ∃ d ∈ ds ++ more, d.task = j.task ∧ d.progress = .done j.result := by
  cases h with
  | @going k ticket finds stage unended =>
      have hstep : t.perform (.step j.task now) = t.advance j.task now k := by
        simp only [Traffic.perform, ticket]
      rw [hstep]
      refine ⟨[t.deed j.task now k], Traffic.deeds_advance t j.task now k, _,
        List.mem_append_right _ List.mem_cons_self, rfl, ?_⟩
      exact congrArg Prod.fst (stage.ends finds hsteps hlate)
  | @finished before after d ended split own progress position polls unended others =>
      have hstill : t.perform (.step j.task now) = t := by
        simp only [Traffic.perform, ended.1]
      rw [hstill, split]
      exact ⟨[], (List.append_nil _).symm, d, by simp, own, progress⟩

/-- No more polls bring something than there are entries. -/
theorem full_le (h : 0 < j.room) : j.full ≤ j.entries.length := by
  have hle : j.full ≤ j.entries.length ↔ j.entries.length ≤ j.room * j.entries.length :=
    ceilDiv_le_iff_le_mul h
  exact hle.2 (Nat.le_mul_of_pos_left _ h)

end Alone

end Rounds

namespace Traffic

section Replaying

variable {t : Traffic}

/-- A replay has come to have the reading handle, and no wakeup is pending. -/
structure AtReplay (t : Traffic) (task : TaskId) (withOffsets : Bool) (timeout : Nat) : Prop where
  ticket : ∃ k, t.tickets task = some k ∧
    k.call = .inLine (.poll (.replay withOffsets) timeout)
  head : t.endpoint.channel.hasReader task = true
  calm : t.endpoint.client.reader.isWoken = false

/-- A replay that is left to itself, with enough steps at one time and one more when its time is up,
brings the commands of these entries. -/
def BringsAlone (t : Traffic) (task : TaskId) (withOffsets : Bool) (timeout : Nat)
    (schema : CommandSchema) (entries : List Entry) : Prop :=
  ∀ steps now, entries.length + 2 ≤ steps →
    ∃ ds, (t.run (List.replicate steps (.step task now) ++ [.step task (now + timeout)])).deeds =
        t.deeds ++ ds ∧
      ∃ d ∈ ds, d.task = task ∧ d.progress =
        .done (.ok (.commands (Channel.Call.shown withOffsets (commandsFrom schema 0 entries))))

theorem bringsAlone_of_stands {j : Rounds} (h : ∀ late, j.Stands t late [] 0) (hs : t.Sound)
    (hroom : 0 < j.room) :
    t.BringsAlone j.task j.withOffsets j.timeout j.schema j.entries := by
  intro steps now hsteps
  have hfull := Rounds.full_le hroom
  obtain ⟨ds, hdeeds, hstands⟩ := (h (now + j.timeout)).run_own hs (Nat.le_refl _) steps
  obtain ⟨more, hmore, hends⟩ := hstands.finishes (by omega) (Nat.le_refl (now + j.timeout))
  have hrun : t.run (List.replicate steps (.step j.task now) ++ [.step j.task (now + j.timeout)]) =
      (t.run (List.replicate steps (.step j.task now))).perform
        (.step j.task (now + j.timeout)) := by
    rw [run, List.foldl_append]
    rfl
  rw [hrun]
  refine ⟨ds ++ more, by rw [hmore, hdeeds, List.append_assoc], ?_⟩
  rw [List.nil_append] at hends
  exact hends

/-- What a replay of a channel with any history brings when it is left to itself. -/
theorem replay_alone {made : Nat} {client client' : SharedLog} {topic : String}
    {e : Endpoint SharedLog} (hmake : Endpoint.make made client topic = (.ok e, client'))
    (hsound : client.log.Sound) (before : List Move) {task : TaskId} {withOffsets : Bool}
    {timeout : Nat} (h : (run { endpoint := e } before).AtReplay task withOffsets timeout)
    {entries : List Entry} {room : Nat} (hroom : 0 < room)
    (hreadable : ∀ x ∈ entries, x.IsReadable client.schema)
    (hahead : ∀ n, (run { endpoint := e } before).endpoint.client.log.ahead
      ⟨topic, commandPartition⟩ n = (entries.drop n).take room) :
    (run { endpoint := e } before).BringsAlone task withOffsets timeout client.schema entries := by
  obtain ⟨k, hticket, hcall⟩ := h.ticket
  let j : Rounds :=
    { task, withOffsets, timeout, schema := client.schema, partition := ⟨topic, commandPartition⟩
      entries, room }
  exact bringsAlone_of_stands (j := j)
    (stands_of_replay hmake hsound before rfl rfl hticket hcall h.head h.calm hroom hreadable
      hahead)
    (run_sound (sound_of_make hmake) before) hroom

end Replaying

end Traffic

namespace Log.Settings

section GettingOn

/-- The settings let readers get on: a poll of a reader that can read brings records if there are
any, enough polls bring everything that is assigned to it, and a replay brings all commands. -/
structure GetOn (s : Settings) : Prop where
  poll : ∀ {κ ν : Type} {schema : Schema κ ν} {log : Log} {r : Reader}, log.settings = s →
    r.CanRead schema log → r.HasUnread log → ∀ now poll,
      ∃ b r', r.stepPoll schema now log poll = (.done (.ok b), r') ∧ b.isEmpty = false
  polls : ∀ {κ ν : Type} {schema : Schema κ ν} {log : Log} {r : Reader}, log.settings = s →
    r.CanRead schema log → ∀ polls : List (Nat × Nat), r.unread log ≤ polls.length →
      r.ReadsAll schema log (r.pollEach schema log polls).1 (r.pollEach schema log polls).2
  replay : ∀ {made : Nat} {client client' : SharedLog} {topic : String} {e : Endpoint SharedLog},
    Endpoint.make made client topic = (.ok e, client') → client.log.Sound →
      client.log.settings = s → ∀ before task withOffsets timeout,
        let t := Traffic.run { endpoint := e } before
        let entries := t.endpoint.client.log.written ⟨topic, commandPartition⟩
        t.AtReplay task withOffsets timeout → (∀ x ∈ entries, x.IsReadable client.schema) →
          t.BringsAlone task withOffsets timeout client.schema entries

/-- The settings keep readers where they are: whatever there is to be read, polls bring nothing, and
replays bring no command. -/
structure Stall (s : Settings) : Prop where
  poll : ∀ {κ ν : Type} (schema : Schema κ ν) {log : Log} {r : Reader}, log.settings = s →
    r.isClosed = false → r.isWoken = false → ∀ now poll,
      (r.stepPoll schema now log poll).2 = r ∧
        ((r.stepPoll schema now log poll).1 = .done (.ok .empty) ∨
          ∃ deadline seen, (r.stepPoll schema now log poll).1 = .waiting (.parked deadline seen))
  polls : ∀ {κ ν : Type} (schema : Schema κ ν) {log : Log} {r : Reader}, log.settings = s →
    r.isClosed = false → r.isWoken = false → ∀ polls,
      (∀ b ∈ (r.pollEach schema log polls).1, b = .empty) ∧ (r.pollEach schema log polls).2 = r
  replay : ∀ {made : Nat} {client client' : SharedLog} {topic : String} {e : Endpoint SharedLog},
    Endpoint.make made client topic = (.ok e, client') → client.log.Sound →
      client.log.settings = s → ∀ before task withOffsets timeout,
        let t := Traffic.run { endpoint := e } before
        t.AtReplay task withOffsets timeout →
          t.BringsAlone task withOffsets timeout client.schema []

theorem getOn_of_room {s : Settings} (hroom : s.maxPollRecords ≠ 0) : s.GetOn where
  poll := by
    rintro κ ν schema log r rfl hcan hunread now poll
    exact Reader.stepPoll_gets_on hcan hroom hunread now poll
  polls := by
    rintro κ ν schema log r rfl hcan polls henough
    exact Reader.pollEach_reaches hcan hroom polls henough
  replay := by
    rintro made client client' topic e hmake hsound rfl before task withOffsets timeout t entries
      hreplay hreadable
    refine Traffic.replay_alone hmake hsound before hreplay (Nat.pos_of_ne_zero hroom) hreadable ?_
    intro n
    rw [Log.ahead, (Traffic.run_follows { endpoint := e } before).log.settings,
      (Endpoint.make_client hmake).1]

theorem stall_of_no_room {s : Settings} (hroom : s.maxPollRecords = 0) : s.Stall where
  poll := by
    rintro κ ν schema log r rfl hopened hcalm now poll
    exact Reader.stepPoll_of_empty hopened hcalm (Reader.fetch_of_no_room schema r hroom) now poll
  polls := by
    rintro κ ν schema log r rfl hopened hcalm polls
    exact Reader.pollEach_of_empty hopened hcalm (Reader.fetch_of_no_room schema r hroom) polls
  replay := by
    rintro made client client' topic e hmake hsound rfl before task withOffsets timeout t hreplay
    refine Traffic.replay_alone hmake hsound before hreplay Nat.one_pos (by simp) ?_
    intro n
    rw [Log.ahead, (Traffic.run_follows { endpoint := e } before).log.settings,
      (Endpoint.make_client hmake).1, hroom, List.take_zero, List.drop_nil, List.take_nil]

/-- The settings come from a document that allows no record, and no update has set the limit. -/
def NoRoom (origin : Origin) (updates : List Update) : Prop :=
  (∃ text s, origin = .document text ∧ ofJson text = .ok s ∧ s.maxPollRecords = 0) ∧
    ∀ n, .maxPollRecords n ∉ updates

/-- Readers get on under all settings that can come to be, but for those of a document that allows
no record as long as no update has set the limit.  Under those they stall. -/
theorem made_settings_get_on {origin : Origin} {updates : List Update} {s : Settings}
    (h : made? origin updates = some s) :
    (¬ NoRoom origin updates → s.GetOn) ∧ (NoRoom origin updates → s.Stall) := by
  have hroom := maxPollRecords_eq_zero_iff h
  exact ⟨fun hnot => getOn_of_room (mt hroom.1 hnot), fun hno => stall_of_no_room (hroom.2 hno)⟩

/-- A document that allows no record. -/
def nothingAtOnce : Bytes :=
  Bytes.ofString "\x7b\"default_partitions\":1,\"max_poll_records\":0\x7d"

/-- With an update that asks for no record, readers get on. -/
theorem made_settings_get_on_sample :
    ∃ s, made? (.document nothingAtOnce) [.maxPollRecords 0] = some s ∧ s.maxPollRecords = 1 ∧
      s.GetOn := by
  have hmade : made? (.document nothingAtOnce) [.maxPollRecords 0] =
      some { maxPollRecords := 1 } := by
    decide +kernel
  refine ⟨_, hmade, rfl, (made_settings_get_on hmade).1 ?_⟩
  rintro ⟨-, hnone⟩
  exact hnone 0 List.mem_cons_self

/-- A log under the settings of the document, with one entry. -/
def stuckLog : Log :=
  (({ settings := { maxPollRecords := 0 } } : Log).append "t" (some 0) ⟨[107], some [118]⟩).2

/-- Under the settings of the document a poll finds nothing, though there is an entry to be read. -/
theorem made_settings_stall :
    ¬ ∀ (origin : Origin) (updates : List Update) (s : Settings),
      made? origin updates = some s →
        ∀ (log : Log) (r : Reader), log.settings = s → log.Sound →
          r.CanRead Schema.texts log → r.HasUnread log →
            ∃ b r', r.stepPoll Schema.texts 0 log (.started 0) = (.done (.ok b), r') ∧
              b.isEmpty = false := by
  intro h
  have hmade : made? (.document nothingAtOnce) [] = some stuckLog.settings := by
    decide +kernel
  let r : Reader := (({} : Reader).assign [⟨"t", 0⟩]).2
  have hsound : stuckLog.Sound :=
    ⟨append_hasPartitions (sound_new _).partitions "t" (some 0) _, nofun⟩
  have hwritten : ∀ p e, e ∈ stuckLog.written p → e = ⟨[107], some [118]⟩ := by
    intro p e he
    have hadds : ({ settings := { maxPollRecords := 0 } } : Log).Adds stuckLog ⟨"t", 0⟩
        ⟨[107], some [118]⟩ :=
      (append_entries { settings := { maxPollRecords := 0 } } "t" (some 0) _).2.2
    have hnew : ({ settings := { maxPollRecords := 0 } } : Log).written p = [] := rfl
    rw [hadds p] at he
    split at he
    · exact List.mem_singleton.1 he
    · rw [hnew] at he
      cases he
  have hcan : r.CanRead Schema.texts stuckLog := by
    constructor
    · rfl
    · rfl
    · intro p hp
      have hassigned : p = ⟨"t", 0⟩ := List.mem_singleton.1 hp
      subst hassigned
      nofun
    · intro p offset e he
      rw [hwritten p e (List.mem_of_getElem? he)]
      exact ⟨_, rfl⟩
  have hunread : r.HasUnread stuckLog := ⟨⟨"t", 0⟩, 0, by decide, by decide⟩
  obtain ⟨b, r', hpoll, hsome⟩ := h _ _ _ hmade stuckLog r rfl hsound hcan hunread
  cases hpoll
  cases hsome

end GettingOn

end Log.Settings
end ReplicatedLog
