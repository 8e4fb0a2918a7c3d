import ReplicatedLog.Proofs.Channel.Replay
import ReplicatedLog.Proofs.Channel.Send
import ReplicatedLog.Proofs.Channel.Shutting
import ReplicatedLog.Proofs.Log.Carrying
import ReplicatedLog.Proofs.Log.Outlook
import Mathlib.Algebra.Order.Floor.Div

/-!
# A replay poll by poll

A replay that nobody interrupts, of a partition to which nothing is appended meanwhile.  The other
tasks of the channel go on, and others use the log.

* `Rounds` is what such a replay has before it: the entries of its partition, and how many of them a
  poll brings;
* `Rounds.Finds`: what it finds whenever it takes a step;
* `Rounds.Stage`: how far it is, and `Stage.step`: a step of it takes it to the next stage, or ends
  it with all the commands;
* `Rounds.Stands`: how it stands among the others, which is kept by every move;
* `Traffic.replay_terminates`: it ends with the first poll that brings nothing, and how many polls
  it takes and what it brings depends on nothing but the entries and the size of a poll.
-/

namespace ReplicatedLog

open Channel

namespace Reader

section Fetching

variable {schema : CommandSchema} {log : Log} {r : Reader} {p : Partition} {n : Nat}

theorem seekToBeginning_of_open (h : r.At p n) (hopened : r.isClosed = false) :
    r.seekToBeginning [p] = (.ok (), { r with positions := r.positions.insert p 0 }) := by
  have hcontains : r.positions.contains p = true := by
    have hposition := h.position
    rw [Reader.position] at hposition
    rw [SortedMap.contains, hposition, Option.isSome_some]
  simp [seekToBeginning, hopened, rewind, hcontains]

/-- A poll of a reader that is open and not woken takes what is ahead, if that can be decoded. -/
theorem stepPoll_takes_ahead (hlog : log.HasPartitions) (hp : p.index = 0) (h : r.At p n)
    (hopened : r.isClosed = false) (hcalm : r.isWoken = false) (hahead : log.ahead p n ≠ [])
    (hreadable : ∀ e ∈ log.ahead p n, e.IsReadable schema) (now timeout : Nat) :
    ∃ b : CommandBatch, r.stepPoll schema now log (.started timeout) =
        (.done (.ok b), r.past p n b.records) ∧
      b.isEmpty = false ∧ b.size = (log.ahead p n).length ∧
      b.commands = commandsFrom schema n (log.ahead p n) := by
  obtain ⟨rs, hrs⟩ := Log.decodeEntries_of_readable (p := p) n (log.ahead p n) hreadable
  obtain ⟨-, hlen, hcommands⟩ := decodeEntries_ok hrs
  refine ⟨⟨rs⟩, ?_, ?_, hlen, hcommands⟩
  · simp only [stepPoll, ensureUsable_of_calm hopened hcalm]
    rw [attempt_of_ahead schema hlog hp h hahead, hrs]
  · cases rs with
    | nil => exact absurd (List.length_eq_zero_iff.1 hlen.symm) hahead
    | cons record rs => rfl

/-- With nothing ahead such a poll waits until its deadline. -/
theorem attempt_of_end (schema : CommandSchema) (hlog : log.HasPartitions) (hp : p.index = 0)
    (h : r.At p n)
    (hopened : r.isClosed = false) (hcalm : r.isWoken = false) (hahead : log.ahead p n = [])
    (now deadline : Nat) :
    attempt schema now log r deadline =
      if deadline ≤ now then (.done (.ok .empty), r)
      else (.waiting (.parked deadline (seenNow log r)), r) := by
  rw [attempt_of_nothing schema hlog hp h hahead, ensureUsable_of_calm hopened hcalm]
  rfl

end Fetching

end Reader

namespace Channel.Call

/-- What a call that is in line wants the reading handle for. -/
def wants? : Call SharedLog → Option Use
  | .inLine u => some u
  | _ => none

theorem eq_inLine_of_wants? {c : Call SharedLog} {u : Use} (h : c.wants? = some u) :
    c = .inLine u := by
  cases c with
  | inLine u' => rw [Option.some.inj h]
  | entered r => cases h
  | sent w interrupts => cases h
  | asking ps => cases h
  | closing handle closing => cases h
  | polling purpose timeout restored p => cases h

/-- Whether a step of the call begins a poll. -/
def beginsPoll : Call SharedLog → Bool
  | .polling _ _ _ (Reader.Poll.started _) => true
  | _ => false

end Channel.Call

/-- What a replay has before it: the entries of its partition, how many of them a poll may bring,
and which task asks for the commands in what way. -/
structure Rounds where
  task : TaskId
  withOffsets : Bool
  timeout : Nat
  schema : CommandSchema
  partition : Partition
  entries : List Entry
  room : Nat

namespace Rounds

section Stages

/-- The number of polls that bring something. -/
def full (j : Rounds) : Nat :=
  j.entries.length ⌈/⌉ j.room

/-- The offset behind the entries that so many polls have brought. -/
def reached (j : Rounds) (polls : Nat) : Nat :=
  min (polls * j.room) j.entries.length

/-- The commands that so many polls have brought. -/
def restored (j : Rounds) (polls : Nat) : List QueuedCommand :=
  commandsFrom j.schema 0 (j.entries.take (polls * j.room))

/-- What the reading handle is used for. -/
def use (j : Rounds) : Use :=
  .poll (.replay j.withOffsets) j.timeout

/-- What the replay brings in the end. -/
def result (j : Rounds) : Result :=
  .ok (.commands (Call.shown j.withOffsets (commandsFrom j.schema 0 j.entries)))

/-- What the replay finds whenever it takes a step. -/
structure Finds (j : Rounds) (e : Endpoint SharedLog) : Prop where
  schema : e.client.schema = j.schema
  partition : e.channel.partition = j.partition
  index : j.partition.index = 0
  ahead : ∀ n, e.client.log.ahead j.partition n = (j.entries.drop n).take j.room
  some_room : 0 < j.room
  readable : ∀ x ∈ j.entries, x.IsReadable j.schema
  sound : e.client.log.Sound
  head : e.channel.line.head? = some j.task
  opened : e.client.reader.isClosed = false
  calm : e.client.reader.isWoken = false

/-- How far the replay is, with the number of polls that it has begun and of steps that it has
taken. A poll that waits does so no longer than until `late`. -/
inductive Stage (j : Rounds) (e : Endpoint SharedLog) (late : Nat) :
    Call SharedLog → (polls steps : Nat) → Prop
  | waits : Stage j e late (.inLine j.use) 0 0
  | reads {polls : Nat} (more : polls ≤ j.full) (reader : e.ReaderAt (j.reached polls)) :
      Stage j e late
        (.polling (.replay j.withOffsets) j.timeout (j.restored polls)
          (Reader.Poll.started j.timeout))
        polls (polls + 1)
  | rests {deadline steps : Nat} {seen : Reader.Seen} (due : deadline ≤ late)
      (reader : e.ReaderAt j.entries.length) :
      Stage j e late
        (.polling (.replay j.withOffsets) j.timeout (commandsFrom j.schema 0 j.entries)
          (Reader.Poll.parked deadline seen))
        (j.full + 1) steps

variable {j : Rounds} {e : Endpoint SharedLog}

theorem lt_full_iff (h : 0 < j.room) {polls : Nat} :
    polls < j.full ↔ polls * j.room < j.entries.length := by
  have hle : j.full ≤ polls ↔ j.entries.length ≤ j.room * polls := ceilDiv_le_iff_le_mul h
  rw [Nat.mul_comm] at hle
  omega

theorem reached_of_lt (h : 0 < j.room) {polls : Nat} (hp : polls < j.full) :
    j.reached polls = polls * j.room := by
  rw [reached, Nat.min_eq_left (Nat.le_of_lt ((lt_full_iff h).1 hp))]

theorem reached_full (h : 0 < j.room) : j.reached j.full = j.entries.length := by
  have hnot := mt (lt_full_iff h).2 (Nat.lt_irrefl j.full)
  rw [reached, Nat.min_eq_right (Nat.le_of_not_lt hnot)]

theorem restored_full (h : 0 < j.room) :
    j.restored j.full = commandsFrom j.schema 0 j.entries := by
  have hnot := mt (lt_full_iff h).2 (Nat.lt_irrefl j.full)
  rw [restored, List.take_of_length_le (Nat.le_of_not_lt hnot)]

/-- What a poll brings follows what the polls before it have brought. -/
theorem restored_succ (h : 0 < j.room) {polls : Nat} (hp : polls < j.full) :
    j.restored (polls + 1) = j.restored polls ++
      commandsFrom j.schema (j.reached polls) ((j.entries.drop (j.reached polls)).take j.room) := by
  have hlt := (lt_full_iff h).1 hp
  have hlen : (j.entries.take (polls * j.room)).length = polls * j.room := by
    rw [List.length_take, Nat.min_eq_left (Nat.le_of_lt hlt)]
  rw [restored, restored, reached_of_lt h hp, Nat.add_one_mul, List.take_add, commandsFrom_append,
    hlen, Nat.zero_add]

theorem reached_succ (h : 0 < j.room) {polls : Nat} (hp : polls < j.full) :
    j.reached polls + ((j.entries.drop (j.reached polls)).take j.room).length =
      j.reached (polls + 1) := by
  have hlt := (lt_full_iff h).1 hp
  rw [reached_of_lt h hp, List.length_take, List.length_drop, reached, Nat.add_one_mul]
  omega

theorem Finds.ahead_ne_nil (hf : j.Finds e) {polls : Nat} (hp : polls < j.full) :
    e.client.log.ahead j.partition (j.reached polls) ≠ [] := by
  have hlt := (lt_full_iff hf.some_room).1 hp
  have hroom := hf.some_room
  rw [hf.ahead, reached_of_lt hf.some_room hp, ← List.length_pos_iff, List.length_take,
    List.length_drop]
  omega

theorem Finds.ahead_end (hf : j.Finds e) :
    e.client.log.ahead j.partition j.entries.length = [] := by
  rw [hf.ahead, List.drop_length, List.take_nil]

end Stages

section Steps

variable {j : Rounds} {e e' : Endpoint SharedLog} {late now : Nat} {c : Call SharedLog}
  {polls steps : Nat}

/-- A change of the reader's positions, and of nothing else that the replay finds. -/
theorem Finds.of_positions (hf : j.Finds e) (r : Reader)
    (hopened : r.isClosed = e.client.reader.isClosed)
    (hcalm : r.isWoken = e.client.reader.isWoken) :
    j.Finds { e with client := { e.client with reader := r } } :=
  { hf with opened := hopened.trans hf.opened, calm := hcalm.trans hf.calm }

/-- With the reading handle the replay goes back to the first entry. -/
theorem step_waits (hf : j.Finds e) {n : Nat} (hat : e.ReaderAt n) (now : Nat) :
    ∃ e', Call.step now j.task e (.inLine j.use) =
        (.waiting (.polling (.replay j.withOffsets) j.timeout []
          (Reader.Poll.started j.timeout)), e') ∧
      j.Finds e' ∧ e'.ReaderAt 0 := by
  have hhead : e.channel.hasReader j.task = true := by
    simp [hasReader, hf.head]
  have hseek := Reader.seekToBeginning_of_open hat hf.opened
  refine ⟨_, ?_,
    hf.of_positions (e.client.reader.seekToBeginning [e.channel.partition]).2 ?_ ?_, ?_⟩
  · simp only [Call.step, hhead, if_true, use, Call.useReader, Call.rewind,
      Client.seekToBeginning, hseek]
    rfl
  · rw [hseek]
  · rw [hseek]
  · have hzero := Reader.At.entries_insert hat 0
    rw [hseek]
    exact hzero

/-- A poll with something ahead brings the next commands. -/
theorem step_reads (hf : j.Finds e) (hat : e.ReaderAt (j.reached polls)) (hmore : polls < j.full)
    (now : Nat) :
    ∃ e', Call.step now j.task e
        (.polling (.replay j.withOffsets) j.timeout (j.restored polls)
          (Reader.Poll.started j.timeout)) =
        (.waiting (.polling (.replay j.withOffsets) j.timeout (j.restored (polls + 1))
          (Reader.Poll.started j.timeout)), e') ∧
      j.Finds e' ∧ e'.ReaderAt (j.reached (polls + 1)) := by
  have hat' : e.client.reader.At j.partition (j.reached polls) := hf.partition ▸ hat
  have hreadable : ∀ x ∈ e.client.log.ahead j.partition (j.reached polls),
      x.IsReadable e.client.schema := by
    intro x hx
    rw [hf.ahead] at hx
    rw [hf.schema]
    exact hf.readable x (List.mem_of_mem_drop (List.mem_of_mem_take hx))
  obtain ⟨b, hpoll, hsome, hsize, hcommands⟩ :=
    Reader.stepPoll_takes_ahead hf.sound.partitions hf.index hat' hf.opened hf.calm
      (hf.ahead_ne_nil hmore) hreadable now j.timeout
  rw [hf.ahead] at hsize hcommands
  rw [hf.schema] at hcommands
  refine ⟨_, ?_, hf.of_positions (e.client.reader.past j.partition (j.reached polls) b.records)
    rfl rfl, ?_⟩
  · rw [Call.step_polling hpoll]
    simp only [Call.takeBatch, hsome, Bool.false_eq_true, if_false]
    rw [hcommands, ← restored_succ hf.some_room hmore]
    rfl
  · have hmoved : (e.client.reader.past j.partition (j.reached polls) b.records).At j.partition
        (j.reached polls + b.size) := Reader.At.entries_insert hat' _
    rw [hsize, reached_succ hf.some_room hmore] at hmoved
    rw [← hf.partition] at hmoved ⊢
    exact hmoved

/-- With nothing ahead a poll ends the replay if its time is up, and waits otherwise. -/
theorem step_rests (hf : j.Finds e) (hat : e.ReaderAt j.entries.length) {poll : Reader.Poll}
    (now deadline : Nat) (hpoll : poll = .started j.timeout ∧ deadline = now + j.timeout ∨
      ∃ seen, poll = .parked deadline seen) :
    Call.step now j.task e
        (.polling (.replay j.withOffsets) j.timeout (commandsFrom j.schema 0 j.entries) poll) =
      if deadline ≤ now then (.done j.result, e.leave j.task)
      else (.waiting (.polling (.replay j.withOffsets) j.timeout (commandsFrom j.schema 0 j.entries)
        (Reader.Poll.parked deadline (Reader.seenNow e.client.log e.client.reader))), e) := by
  have hat' : e.client.reader.At j.partition j.entries.length := hf.partition ▸ hat
  have hattempt := Reader.attempt_of_end e.client.schema hf.sound.partitions hf.index hat'
    hf.opened hf.calm hf.ahead_end now deadline
  have hstep : e.client.reader.stepPoll e.client.schema now e.client.log poll =
      e.client.reader.attempt e.client.schema now e.client.log deadline := by
    rcases hpoll with ⟨rfl, rfl⟩ | ⟨seen, rfl⟩
    · simp only [Reader.stepPoll, Reader.ensureUsable_of_calm hf.opened hf.calm]
    · rfl
  rw [hattempt] at hstep
  by_cases hover : deadline ≤ now
  · rw [if_pos hover] at hstep ⊢
    rw [Call.step_polling hstep]
    rfl
  · rw [if_neg hover] at hstep ⊢
    rw [Call.step_polling hstep]

/-- A step of the replay takes it to the next stage, or ends it: then it has begun one poll more
than brought something. -/
theorem Stage.step (h : j.Stage e late c polls steps) (hf : j.Finds e)
    (hreader : ∃ n, e.ReaderAt n) (htime : now + j.timeout ≤ late) :
    (∃ c' e', c.step now j.task e = (.waiting c', e') ∧ j.Finds e' ∧
        j.Stage e' late c' (polls + if c.beginsPoll then 1 else 0) (steps + 1)) ∨
      (c.step now j.task e = (.done j.result, e.leave j.task) ∧ e.ReaderAt j.entries.length ∧
        (polls + if c.beginsPoll then 1 else 0) = j.full + 1) := by
  cases h with
  | waits =>
      obtain ⟨n, hat⟩ := hreader
      obtain ⟨e', hstep, hfinds, hzero⟩ := step_waits hf hat now
      refine Or.inl ⟨_, e', hstep, hfinds, ?_⟩
      have hstart : j.reached 0 = 0 := by simp [reached]
      have hnone : j.restored 0 = [] := by simp [restored, commandsFrom]
      rw [← hnone]
      exact .reads (Nat.zero_le _) (hstart.symm ▸ hzero)
  | reads more reader =>
      rcases Nat.lt_or_eq_of_le more with hmore | rfl
      · obtain ⟨e', hstep, hfinds, hat⟩ := step_reads hf reader hmore now
        exact Or.inl ⟨_, e', hstep, hfinds, .reads hmore hat⟩
      · rw [reached_full hf.some_room] at reader
        rw [restored_full hf.some_room]
        have hstep := step_rests hf reader now (now + j.timeout) (Or.inl ⟨rfl, rfl⟩)
        by_cases hover : now + j.timeout ≤ now
        · rw [if_pos hover] at hstep
          exact Or.inr ⟨hstep, reader, rfl⟩
        · rw [if_neg hover] at hstep
          exact Or.inl ⟨_, e, hstep, hf, .rests htime reader⟩
  | @rests deadline _ seen due reader =>
      have hstep := step_rests hf reader now deadline (Or.inr ⟨seen, rfl⟩)
      by_cases hover : deadline ≤ now
      · rw [if_pos hover] at hstep
        exact Or.inr ⟨hstep, reader, rfl⟩
      · rw [if_neg hover] at hstep
        exact Or.inl ⟨_, e, hstep, hf, .rests due reader⟩

/-- When it has taken enough steps and its time is up, the next step ends it. -/
theorem Stage.ends (h : j.Stage e late c polls steps) (hf : j.Finds e)
    (hsteps : j.full + 2 ≤ steps) (hlate : late ≤ now) :
    c.step now j.task e = (.done j.result, e.leave j.task) := by
  cases h with
  | waits => omega
  | reads more reader => omega
  | @rests deadline _ seen due reader =>
      rw [step_rests hf reader now deadline (Or.inr ⟨seen, rfl⟩), if_pos (Nat.le_trans due hlate)]

/-- It has begun no more polls than one more than bring something. -/
theorem Stage.polls_le (h : j.Stage e late c polls steps) : polls ≤ j.full + 1 := by
  cases h with
  | waits => exact Nat.zero_le _
  | reads more reader => exact Nat.le_succ_of_le more
  | rests due reader => exact Nat.le_refl _

/-- What leaves the reader in its place leaves the replay at its stage. -/
theorem Stage.keeps (h : j.Stage e late c polls steps) (hk : e.Keeps e') :
    j.Stage e' late c polls steps := by
  cases h with
  | waits => exact .waits
  | reads more reader => exact .reads more (hk.readerAt reader)
  | rests due reader => exact .rests due (hk.readerAt reader)

end Steps

end Rounds

namespace Channel.Call

section Others

variable {me other : TaskId} {e : Endpoint SharedLog} {c : Call SharedLog}

/-- A step of a task that does not have the reading handle leaves the reader as it is. -/
theorem step_reader (now : Nat) (hs : c.StandsIn e.channel.line me)
    (hhead : e.channel.line.head? = some other) (hne : other ≠ me) :
    (c.step now me e).2.client.reader = e.client.reader := by
  have hnot : e.channel.line.head? ≠ some me := by
    rw [hhead]
    exact fun h => hne (Option.some.inj h)
  cases c with
  | entered r =>
      simp only [step, enter]
      split
      · split <;> rfl
      · split <;> rfl
  | sent w interrupts =>
      rw [show (Call.step now me e (.sent w interrupts)).2 = e from
        awaitAck_endpoint now e w interrupts]
  | asking ps => exact absurd hs hnot
  | closing handle closing =>
      cases handle with
      | reader => exact absurd hs hnot
      | writer => rfl
  | inLine u =>
      have hhas : e.channel.hasReader me = false := by
        simp [hasReader, hnot]
      simp [step, hhas]
  | polling purpose timeout restored p => exact absurd hs hnot

end Others

end Channel.Call

namespace Rounds

section Others

variable {j : Rounds} {t : Traffic} {late polls steps : Nat} {k : Ticket}

/-- The move is not made by the replay, does not give it up, and does not interrupt the channel. -/
def Spares (j : Rounds) : Traffic.Move → Prop
  | .step task _ => task ≠ j.task
  | .abandon task => task ≠ j.task
  | .interrupt _ => False
  | _ => True

/-- A move of others changes nothing that the replay finds, as long as its partition gets no entry,
nor the place of the reader. -/
theorem Finds.perform (hf : j.Finds t.endpoint) (ho : t.Ordered) {m : Traffic.Move}
    (hm : j.Spares m)
    (hwritten : (t.perform m).endpoint.client.log.written j.partition =
      t.endpoint.client.log.written j.partition) :
    j.Finds (t.perform m).endpoint ∧ t.endpoint.Keeps (t.perform m).endpoint := by
  have hfollows := Traffic.perform_follows t m
  have hfinds : (t.perform m).endpoint.client.log.Sound →
      (t.perform m).endpoint.channel.line.head? = some j.task →
      (t.perform m).endpoint.client.reader = t.endpoint.client.reader →
      j.Finds (t.perform m).endpoint ∧ t.endpoint.Keeps (t.perform m).endpoint := by
    intro hsound hhead hreader
    refine ⟨?_, hfollows, congrArg Reader.positions hreader⟩
    constructor
    · exact hfollows.schema.trans hf.schema
    · exact hfollows.partition.trans hf.partition
    · exact hf.index
    · intro n
      rw [Log.ahead, hwritten, hfollows.log.settings]
      exact hf.ahead n
    · exact hf.some_room
    · exact hf.readable
    · exact hsound
    · exact hhead
    · rw [hreader]
      exact hf.opened
    · rw [hreader]
      exact hf.calm
  cases m with
  | enter r => exact hfinds hf.sound hf.head rfl
  | interrupt now => exact hm.elim
  | onLog op => exact hfinds (Log.perform_sound hf.sound op) hf.head rfl
  | abandon task =>
      have hne : j.task ≠ task := fun h => hm h.symm
      unfold Traffic.perform at hfinds ⊢
      dsimp only at hfinds ⊢
      split at hfinds
      · exact hfinds hf.sound (Call.head?_erase_of_ne hf.head hne) rfl
      · exact hfinds hf.sound hf.head rfl
  | step task now =>
      have hne : j.task ≠ task := fun h => hm h.symm
      cases hk : t.tickets task with
      | none =>
          have hstill : t.perform (.step task now) = t := by
            simp only [Traffic.perform, hk]
          rw [hstill] at hfinds ⊢
          exact hfinds hf.sound hf.head rfl
      | some k =>
          have hstep : t.perform (.step task now) = t.advance task now k := by
            simp only [Traffic.perform, hk]
          rw [hstep] at hfinds ⊢
          have hstands := ho.stands task k hk
          refine hfinds ?_ ?_ (Call.step_reader now hstands hf.head hne)
          · rcases Call.step_log now task t.endpoint k.call with hsame | ⟨op, hop⟩
            · rw [show (t.advance task now k).endpoint.client.log = _ from hsame]
              exact hf.sound
            · rw [show (t.advance task now k).endpoint.client.log = _ from hop]
              exact Log.perform_sound hf.sound op
          · exact (Call.step_lined now ho.nodup hstands).1.head? hne hf.head

/-- A move of others leaves the ticket of the replay. -/
theorem tickets_perform (ho : t.Ordered) (hk : t.tickets j.task = some k) {m : Traffic.Move}
    (hm : j.Spares m) : (t.perform m).tickets j.task = some k := by
  cases m with
  | enter r =>
      have hne : j.task ≠ t.next := fun heq => by
        rw [ho.fresh j.task (Nat.le_of_eq heq.symm)] at hk
        cases hk
      exact (Traffic.put_of_ne t _ hne).trans hk
  | step task now =>
      have hne : j.task ≠ task := fun h => hm h.symm
      simp only [Traffic.perform]
      split
      · exact (Traffic.put_of_ne t _ hne).trans hk
      · exact hk
  | abandon task =>
      have hne : j.task ≠ task := fun h => hm h.symm
      simp only [Traffic.perform]
      split
      · exact (Traffic.put_of_ne t _ hne).trans hk
      · exact hk
  | interrupt now => exact hm.elim
  | onLog op => exact hk

/-- A move of others adds no step of the replay. -/
theorem deeds_perform (t : Traffic) {m : Traffic.Move} (hm : j.Spares m) :
    ∃ more, (t.perform m).deeds = t.deeds ++ more ∧ ∀ d ∈ more, d.task ≠ j.task := by
  have hstill : (t.perform m).deeds = t.deeds →
      ∃ more, (t.perform m).deeds = t.deeds ++ more ∧ ∀ d ∈ more, d.task ≠ j.task :=
    fun h => ⟨[], h.trans (List.append_nil _).symm, fun d hd => absurd hd List.not_mem_nil⟩
  cases m with
  | step task now =>
      cases hk : t.tickets task with
      | none => exact hstill (by simp only [Traffic.perform, hk])
      | some k =>
          refine ⟨[t.deed task now k],
            by simp only [Traffic.perform, hk, Traffic.deeds_advance], ?_⟩
          intro d hd
          rw [List.mem_singleton.1 hd]
          exact hm
  | abandon task =>
      refine hstill ?_
      simp only [Traffic.perform]
      split <;> rfl
  | enter r => exact hstill rfl
  | interrupt now => exact hstill rfl
  | onLog op => exact hstill rfl

end Others

section Standing

variable {j : Rounds} {t : Traffic} {late steps now : Nat} {ds : List Deed} {m : Traffic.Move}

/-- The polls that a task has begun with some steps. -/
def pollsBy (task : TaskId) (ds : List Deed) : Nat :=
  ds.countP fun d => d.task == task && d.call.beginsPoll

theorem pollsBy_append_others {task : TaskId} (ds : List Deed) {more : List Deed}
    (h : ∀ d ∈ more, d.task ≠ task) :
    pollsBy task (ds ++ more) = pollsBy task ds := by
  have hnone : more.countP (fun d => d.task == task && d.call.beginsPoll) = 0 := by
    refine List.countP_eq_zero.2 fun d hd => ?_
    simp [h d hd]
  rw [pollsBy, List.countP_append, hnone, Nat.add_zero, pollsBy]

theorem pollsBy_append_own {task : TaskId} {d : Deed} (h : d.task = task) :
    pollsBy task (ds ++ [d]) = pollsBy task ds + if d.call.beginsPoll then 1 else 0 := by
  rw [pollsBy, List.countP_append, List.countP_singleton, pollsBy]
  simp [h]

/-- How the replay stands after some steps of all tasks, of which so many are its own. -/
inductive Stands (j : Rounds) (t : Traffic) (late : Nat) (ds : List Deed) (steps : Nat) : Prop
  | going {k : Ticket} (ticket : t.tickets j.task = some k) (finds : j.Finds t.endpoint)
      (stage : j.Stage t.endpoint late k.call (pollsBy j.task ds) steps)
      (unended : ∀ d ∈ ds, d.task = j.task → ∀ result, d.progress ≠ .done result)
  | finished {before after : List Deed} {d : Deed} (ended : t.OverFor j.task)
      (split : ds = before ++ d :: after) (own : d.task = j.task)
      (progress : d.progress = .done j.result) (position : d.after.ReaderAt j.entries.length)
      (polls : pollsBy j.task ds = j.full + 1)
      (unended : ∀ d' ∈ before, d'.task = j.task → ∀ result, d'.progress ≠ .done result)
      (others : ∀ d' ∈ after, d'.task ≠ j.task)

/-- A move of others leaves the replay where it stands. -/
theorem Stands.perform_others (h : j.Stands t late ds steps) (hs : t.Sound) (hm : j.Spares m)
    (hwritten : (t.perform m).endpoint.client.log.written j.partition =
      t.endpoint.client.log.written j.partition) :
    ∃ more, (t.perform m).deeds = t.deeds ++ more ∧
      j.Stands (t.perform m) late (ds ++ more) steps := by
  obtain ⟨more, hdeeds, hothers⟩ := deeds_perform t hm
  refine ⟨more, hdeeds, ?_⟩
  have hpolls := pollsBy_append_others ds hothers
  cases h with
  | going ticket finds stage unended =>
      obtain ⟨hfinds, hkeeps⟩ := finds.perform hs.ordered hm hwritten
      refine .going (tickets_perform hs.ordered ticket hm) hfinds (hpolls ▸ stage.keeps hkeeps) ?_
      intro d hd hown
      rcases List.mem_append.1 hd with hd | hd
      · exact unended d hd hown
      · exact absurd hown (hothers d hd)
  | @finished before after d ended split own progress position polls unended others =>
      subst split
      have hlater : ∀ d' ∈ after ++ more, d'.task ≠ j.task := by
        intro d' hd'
        rcases List.mem_append.1 hd' with hd' | hd'
        · exact others d' hd'
        · exact hothers d' hd'
      exact .finished (ended.perform m) (by simp) own progress position
        (hpolls.trans polls) unended hlater

/-- A step of the replay takes it to the next stage, or ends it. -/
theorem Stands.perform_own (h : j.Stands t late ds steps) (hs : t.Sound)
    (htime : now + j.timeout ≤ late) :
    ∃ more, (t.perform (.step j.task now)).deeds = t.deeds ++ more ∧
      j.Stands (t.perform (.step j.task now)) late (ds ++ more) (steps + 1) := by
  cases h with
  | @going k ticket finds stage unended =>
      have hstep : t.perform (.step j.task now) = t.advance j.task now k := by
        simp only [Traffic.perform, ticket]
      have hcount : pollsBy j.task (ds ++ [t.deed j.task now k]) =
          pollsBy j.task ds + if k.call.beginsPoll then 1 else 0 := pollsBy_append_own rfl
      rw [hstep]
      refine ⟨[t.deed j.task now k], Traffic.deeds_advance t j.task now k, ?_⟩
      rcases stage.step finds hs.reads.reader htime with
        ⟨c', e', hcall, hfinds, hstage⟩ | ⟨hcall, hat, hlast⟩
      · have hprogress : (t.deed j.task now k).progress = .waiting c' := congrArg Prod.fst hcall
        have hendpoint : (t.advance j.task now k).endpoint = e' := congrArg Prod.snd hcall
        have hticket : (t.advance j.task now k).tickets j.task = some { k with call := c' } := by
          rw [Traffic.tickets_advance, Traffic.put_self, hcall]
          rfl
        rw [← hendpoint] at hfinds hstage
        rw [← hcount] at hstage
        refine .going hticket hfinds hstage ?_
        intro d hd hown result
        rcases List.mem_append.1 hd with hd | hd
        · exact unended d hd hown result
        · rw [List.mem_singleton.1 hd, hprogress]
          exact fun hdone => by cases hdone
      · have hprogress : (t.deed j.task now k).progress = .done j.result := congrArg Prod.fst hcall
        have hafter : (t.deed j.task now k).after = t.endpoint.leave j.task :=
          congrArg Prod.snd hcall
        have hlt : j.task < t.next := Nat.lt_of_not_le fun hle => by
          rw [hs.ordered.fresh j.task hle] at ticket
          cases ticket
        have hended : (t.advance j.task now k).OverFor j.task := by
          refine ⟨?_, hlt⟩
          rw [Traffic.tickets_advance, Traffic.put_self, hcall]
          rfl
        have hposition : (t.deed j.task now k).after.ReaderAt j.entries.length := by
          rw [hafter]
          exact (Endpoint.keeps_leave t.endpoint j.task).readerAt hat
        exact .finished hended rfl rfl hprogress hposition (hcount.trans hlast) unended
          fun d hd => absurd hd List.not_mem_nil
  | finished ended split own progress position polls unended others =>
      have hstill : t.perform (.step j.task now) = t := by
        simp only [Traffic.perform, ended.1]
      rw [hstill]
      refine ⟨[], (List.append_nil _).symm, ?_⟩
      rw [List.append_nil]
      exact .finished ended split own progress position polls unended others

/-- The moves neither interrupt the channel nor give the replay up. -/
def Undisturbed (j : Rounds) (m : Traffic.Move) : Prop :=
  (∀ now, m ≠ .interrupt now) ∧ m ≠ .abandon j.task

/-- Whether a move is a step of a task. -/
def isStepOf (task : TaskId) : Traffic.Move → Bool
  | .step id _ => id == task
  | _ => false

theorem Undisturbed.cases (h : j.Undisturbed m) :
    (∃ now, m = .step j.task now) ∨ (j.Spares m ∧ isStepOf j.task m = false) := by
  cases m with
  | enter r => exact Or.inr ⟨trivial, rfl⟩
  | onLog op => exact Or.inr ⟨trivial, rfl⟩
  | interrupt now => exact absurd rfl (h.1 now)
  | abandon task =>
      refine Or.inr ⟨?_, rfl⟩
      rintro rfl
      exact h.2 rfl
  | step task now =>
      by_cases htask : task = j.task
      · exact Or.inl ⟨now, by rw [htask]⟩
      · exact Or.inr ⟨htask, by simp [isStepOf, htask]⟩

/-- What is written in the end was written all along, if it was there at the beginning. -/
theorem written_between {t t' t'' : Traffic} {p : Partition}
    (h : t.endpoint.Follows t'.endpoint) (h' : t'.endpoint.Follows t''.endpoint)
    (hsame : t''.endpoint.client.log.written p = t.endpoint.client.log.written p) :
    t'.endpoint.client.log.written p = t.endpoint.client.log.written p := by
  have hstart := h.log.entries p
  have hend := h'.log.entries p
  rw [hsame] at hend
  exact hend.eq_of_length_le hstart.length_le

/-- Along any moves that do not disturb it, while its partition gets no entry, the replay stands
somewhere. -/
theorem Stands.run (h : j.Stands t late [] 0) (hs : t.Sound) (moves : List Traffic.Move)
    (hquiet : ∀ m ∈ moves, j.Undisturbed m)
    (htime : ∀ now, .step j.task now ∈ moves → now + j.timeout ≤ late)
    (hsame : (t.run moves).endpoint.client.log.written j.partition =
      t.endpoint.client.log.written j.partition) :
    ∃ ds, (t.run moves).deeds = t.deeds ++ ds ∧
      j.Stands (t.run moves) late ds (moves.countP (isStepOf j.task)) := by
  induction moves using List.reverseRecOn with
  | nil => exact ⟨[], (List.append_nil _).symm, h⟩
  | append_singleton moves m ih =>
      have hrun : t.run (moves ++ [m]) = (t.run moves).perform m := by
        rw [Traffic.run, List.foldl_append]
        rfl
      rw [hrun] at hsame ⊢
      have hbetween := written_between (Traffic.run_follows t moves)
        (Traffic.perform_follows (t.run moves) m) hsame
      obtain ⟨ds, hdeeds, hstands⟩ := ih (fun m hm => hquiet m (List.mem_append_left _ hm))
        (fun now hm => htime now (List.mem_append_left _ hm)) hbetween
      have hsound := Traffic.run_sound hs moves
      have hmore : ∃ more, ((t.run moves).perform m).deeds = (t.run moves).deeds ++ more ∧
          j.Stands ((t.run moves).perform m) late (ds ++ more)
            ((moves ++ [m]).countP (isStepOf j.task)) := by
        rw [List.countP_append, List.countP_singleton]
        rcases (hquiet m (List.mem_append_right _ List.mem_cons_self)).cases with
          ⟨now, rfl⟩ | ⟨hspares, hother⟩
        · have hown : isStepOf j.task (.step j.task now) = true := by simp [isStepOf]
          rw [if_pos hown]
          exact hstands.perform_own hsound
            (htime now (List.mem_append_right _ List.mem_cons_self))
        · rw [hother, if_neg Bool.false_ne_true]
          exact hstands.perform_others hsound hspares (hsame.trans hbetween.symm)
      obtain ⟨more, hmore, hnext⟩ := hmore
      exact ⟨ds ++ more, by rw [hmore, hdeeds, List.append_assoc], hnext⟩

/-- A replay that has taken enough steps in time is over after one more at the end of its time. -/
theorem Stands.ends (h : j.Stands t late ds steps) (hs : t.Sound) (hsteps : j.full + 2 ≤ steps)
    (hlate : late ≤ now) : (t.perform (.step j.task now)).OverFor j.task := by
  cases h with
  | @going k ticket finds stage unended =>
      have hcall := stage.ends finds hsteps hlate
      have hlt : j.task < t.next := Nat.lt_of_not_le fun hle => by
        rw [hs.ordered.fresh j.task hle] at ticket
        cases ticket
      simp only [Traffic.perform, ticket]
      refine ⟨?_, hlt⟩
      rw [Traffic.tickets_advance, Traffic.put_self, hcall]
      rfl
  | finished ended split own progress position polls unended others => exact ended.perform _

end Standing

section Ending

/-- With these steps the replay has ended: it has brought all commands, the reader is at the end of
the partition, and it has begun one poll more than brought something. -/
structure HasEnded (j : Rounds) (ds : List Deed) : Prop where
  polls : pollsBy j.task ds = j.full + 1
  last : ∃ before d after, ds = before ++ d :: after ∧ d.task = j.task ∧
    d.progress = .done j.result ∧
    d.after.ReaderAt j.entries.length ∧
    (∀ d' ∈ before, d'.task = j.task → ∀ result, d'.progress ≠ .done result) ∧
    ∀ d' ∈ after, d'.task ≠ j.task

/-- With these steps the replay has not ended, and has not begun more polls than it may. -/
structure GoesOn (j : Rounds) (ds : List Deed) : Prop where
  polls : pollsBy j.task ds ≤ j.full + 1
  unended : ∀ d ∈ ds, d.task = j.task → ∀ result, d.progress ≠ .done result

theorem Stands.told {j : Rounds} {t : Traffic} {late steps : Nat} {ds : List Deed}
    (h : j.Stands t late ds steps) :
    (t.OverFor j.task ∧ j.HasEnded ds) ∨ (¬ t.OverFor j.task ∧ j.GoesOn ds) := by
  cases h with
  | going ticket finds stage unended =>
      refine Or.inr ⟨fun hover => ?_, stage.polls_le, unended⟩
      rw [hover.1] at ticket
      cases ticket
  | finished ended split own progress position polls unended others =>
      exact Or.inl ⟨ended, polls, _, _, _, split, own, progress, position, unended, others⟩

/-- Some time by which all steps of a task are out of time. -/
theorem exists_late (task : TaskId) (timeout : Nat) (moves : List Traffic.Move) :
    ∃ late, ∀ now, .step task now ∈ moves → now + timeout ≤ late := by
  induction moves with
  | nil => exact ⟨0, fun now hm => absurd hm List.not_mem_nil⟩
  | cons m moves ih =>
      obtain ⟨late, hlate⟩ := ih
      cases m with
      | step id at' =>
          refine ⟨max late (at' + timeout), fun now hm => ?_⟩
          rcases List.mem_cons.1 hm with heq | hm
          · cases heq
            exact Nat.le_max_right _ _
          · exact Nat.le_trans (hlate now hm) (Nat.le_max_left _ _)
      | enter r => exact ⟨late, fun now hm => hlate now (by simpa using hm)⟩
      | abandon id => exact ⟨late, fun now hm => hlate now (by simpa using hm)⟩
      | interrupt at' => exact ⟨late, fun now hm => hlate now (by simpa using hm)⟩
      | onLog op => exact ⟨late, fun now hm => hlate now (by simpa using hm)⟩

end Ending

end Rounds

namespace Traffic

section Termination

/-- Whatever happens on a channel keeps its log sound. -/
theorem run_log_sound {t : Traffic} (h : t.endpoint.client.log.Sound) (moves : List Move) :
    (t.run moves).endpoint.client.log.Sound := by
  refine run_induction (P := fun t => t.endpoint.client.log.Sound) h (fun t m h => ?_) moves
  cases m with
  | enter r => exact h
  | interrupt now => exact h
  | onLog op => exact Log.perform_sound h op
  | abandon task =>
      simp only [Traffic.perform]
      split <;> exact h
  | step task now =>
      simp only [Traffic.perform]
      split
      next k _ =>
        rcases Call.step_log now task t.endpoint k.call with hsame | ⟨op, hop⟩
        · rw [show (t.advance task now k).endpoint.client.log = _ from hsame]
          exact h
        · rw [show (t.advance task now k).endpoint.client.log = _ from hop]
          exact Log.perform_sound h op
      next => exact h

/-- A replay that has the reading handle, on a channel with any history and without a wakeup
pending, has all its polls before it. -/
theorem stands_of_replay {made : Nat} {client client' : SharedLog} {topic : String}
    {e : Endpoint SharedLog} (hmake : Endpoint.make made client topic = (.ok e, client'))
    (hsound : client.log.Sound) (before : List Move) {j : Rounds} {k : Ticket}
    (hschema : j.schema = client.schema) (hpartition : j.partition = ⟨topic, commandPartition⟩)
    (hticket : (run { endpoint := e } before).tickets j.task = some k)
    (hcall : k.call = .inLine j.use)
    (hhead : (run { endpoint := e } before).endpoint.channel.hasReader j.task = true)
    (hcalm : (run { endpoint := e } before).endpoint.client.reader.isWoken = false)
    (hroom : 0 < j.room) (hreadable : ∀ x ∈ j.entries, x.IsReadable j.schema)
    (hahead : ∀ n, (run { endpoint := e } before).endpoint.client.log.ahead j.partition n =
      (j.entries.drop n).take j.room) (late : Nat) :
    j.Stands (run { endpoint := e } before) late [] 0 := by
  obtain ⟨hlog, hsame⟩ := Endpoint.make_client hmake
  have hnew : Sound { endpoint := e } := sound_of_make hmake
  have hfollows := run_follows { endpoint := e } before
  have hfront : (run { endpoint := e } before).endpoint.channel.line.head? = some j.task := by
    simpa [hasReader] using hhead
  have hfinds : j.Finds (run { endpoint := e } before).endpoint := by
    constructor
    · rw [hfollows.schema, hsame, hschema]
    · rw [hfollows.partition, (Endpoint.make_readerAt hmake).1, hpartition]
    · rw [hpartition]
      rfl
    · exact hahead
    · exact hroom
    · exact hreadable
    · exact run_log_sound (t := { endpoint := e }) (hlog.symm ▸ hsound) before
    · exact hfront
    · exact (run_vacant (vacant_of_make hmake) hnew.ordered before).opened hfront
    · exact hcalm
  refine .going hticket hfinds ?_ (fun d hd => absurd hd List.not_mem_nil)
  rw [hcall]
  exact .waits

/-- A replay that has the reading handle, on a channel with any history, without a wakeup pending.
While nothing is appended to the partition, nobody interrupts the channel and the replay is not
given up, it begins one poll more than it takes to read the partition, and then ends: it has brought
every command of the partition, and the reader is at its end.  It does end, if it gets enough steps
before its time is up and one more then. -/
theorem replay_terminates {made : Nat} {client client' : SharedLog} {topic : String}
    {e : Endpoint SharedLog} (hmake : Endpoint.make made client topic = (.ok e, client'))
    (hsound : client.log.Sound) (hroom : 1 ≤ client.log.settings.maxPollRecords)
    (before : List Move) {task : TaskId} {k : Ticket} {withOffsets : Bool} {timeout : Nat}
    (hticket : (run { endpoint := e } before).tickets task = some k)
    (hcall : k.call = .inLine (.poll (.replay withOffsets) timeout))
    (hhead : (run { endpoint := e } before).endpoint.channel.hasReader task = true)
    (hcalm : (run { endpoint := e } before).endpoint.client.reader.isWoken = false)
    (hreadable : ∀ x ∈ (run { endpoint := e } before).endpoint.client.log.written
      ⟨topic, commandPartition⟩, x.IsReadable client.schema)
    (moves : List Move) (hquiet : ∀ m ∈ moves, (∀ now, m ≠ .interrupt now) ∧ m ≠ .abandon task)
    (hsame : ((run { endpoint := e } before).run moves).endpoint.client.log.written
        ⟨topic, commandPartition⟩ =
      (run { endpoint := e } before).endpoint.client.log.written ⟨topic, commandPartition⟩) :
    let t := run { endpoint := e } before
    let j : Rounds :=
      { task, withOffsets, timeout, schema := client.schema, partition := ⟨topic, commandPartition⟩
        entries := t.endpoint.client.log.written ⟨topic, commandPartition⟩
        room := client.log.settings.maxPollRecords }
    ∃ ds, (t.run moves).deeds = t.deeds ++ ds ∧
      (((t.run moves).OverFor task ∧ j.HasEnded ds) ∨
        (¬ (t.run moves).OverFor task ∧ j.GoesOn ds)) ∧
      ∀ first late, moves = first ++ [.step task late] →
        j.full + 2 ≤ first.countP (Rounds.isStepOf task) →
        (∀ now, .step task now ∈ first → now + timeout ≤ late) → (t.run moves).OverFor task := by
  intro t j
  have hs : t.Sound := run_sound (sound_of_make hmake) before
  have hahead : ∀ n, t.endpoint.client.log.ahead j.partition n =
      (j.entries.drop n).take j.room := by
    intro n
    rw [Log.ahead, (run_follows { endpoint := e } before).log.settings,
      (Endpoint.make_client hmake).1]
  have hstart : ∀ late, j.Stands t late [] 0 :=
    stands_of_replay hmake hsound before rfl rfl hticket hcall hhead hcalm hroom hreadable hahead
  obtain ⟨late, htime⟩ := Rounds.exists_late task timeout moves
  obtain ⟨ds, hdeeds, hstands⟩ := (hstart late).run hs moves hquiet htime hsame
  refine ⟨ds, hdeeds, hstands.told, ?_⟩
  rintro first last rfl hsteps hearly
  have hrun : t.run (first ++ [.step task last]) = (t.run first).perform (.step task last) := by
    rw [run, List.foldl_append]
    rfl
  have hsame' : ((t.run first).perform (.step task last)).endpoint.client.log.written
      ⟨topic, commandPartition⟩ = t.endpoint.client.log.written ⟨topic, commandPartition⟩ :=
    hrun ▸ hsame
  have hbetween := Rounds.written_between (run_follows t first)
    (perform_follows (t.run first) (.step task last)) hsame'
  obtain ⟨_, -, hbefore⟩ := (hstart last).run hs first
    (fun m hm => hquiet m (List.mem_append_left _ hm)) hearly hbetween
  rw [hrun]
  exact hbefore.ends (run_sound hs first) hsteps (Nat.le_refl last)

/-- A command is sent and a tombstone appended, and a replay is given up after its first poll.  Then
a second replay comes to have the reading handle. -/
def brokenOff : List Move :=
  [.enter (.send (creation "parcels" (by decide)) { statement := "CREATE TABLE parcels" }),
    .step 0 0,
    .onLog (.append "commands" (some 0)
      ⟨(CommandSchema.json.key.encode (creation "parcels" (by decide))).toOption.getD [], none⟩),
    .enter (.replay 0), .step 1 0, .step 1 0, .step 1 0, .abandon 1,
    .enter (.replayWithOffsets 5), .step 2 0]

/-- The log of the sample lets a poll bring one record. -/
def oneByOne : Log := { settings := { maxPollRecords := 1 } }

/-- The second replay takes three polls, one for each entry and one that finds nothing in its
time. -/
theorem replay_terminates_sample :
    let t := run { endpoint := .opened oneByOne .json "commands" } brokenOff
    let moves : List Move := List.replicate 4 (.step 2 0) ++ [.step 2 5]
    (t.run moves).OverFor 2 ∧
      ∃ ds, (t.run moves).deeds = t.deeds ++ ds ∧ Rounds.pollsBy 2 ds = 3 := by
  intro t moves
  have hchecks : (t.tickets 2).bind (·.call.wants?) = some (.poll (.replay true) 5) ∧
      t.endpoint.channel.hasReader 2 = true ∧ t.endpoint.client.reader.isWoken = false ∧
      (Reader.decodeEntries CommandSchema.json ⟨"commands", commandPartition⟩ 0
        (t.endpoint.client.log.written ⟨"commands", commandPartition⟩)).toOption.isSome = true ∧
      (t.run moves).endpoint.client.log.written ⟨"commands", commandPartition⟩ =
        t.endpoint.client.log.written ⟨"commands", commandPartition⟩ ∧
      (t.endpoint.client.log.written ⟨"commands", commandPartition⟩).length ⌈/⌉ 1 = 2 := by
    decide +kernel
  obtain ⟨hwants, hhead, hcalm, hdecodes, hsame, hfull⟩ := hchecks
  simp only [t] at hsame
  obtain ⟨k, hticket, hwant⟩ := Option.bind_eq_some_iff.1 hwants
  have hcall := Call.eq_inLine_of_wants? hwant
  have hreadable : ∀ x ∈ t.endpoint.client.log.written ⟨"commands", commandPartition⟩,
      x.IsReadable .json := by
    obtain ⟨rs, hrs⟩ := Option.isSome_iff_exists.1 hdecodes
    cases hd : Reader.decodeEntries CommandSchema.json ⟨"commands", commandPartition⟩ 0
        (t.endpoint.client.log.written ⟨"commands", commandPartition⟩) with
    | error err =>
        rw [hd] at hrs
        cases hrs
    | ok rs' => exact (decodeEntries_ok hd).1
  obtain ⟨ds, hdeeds, hends, hlive⟩ := replay_terminates
    (Endpoint.make_opened 0 oneByOne .json "commands") (Log.sound_new _) (Nat.le_refl 1) brokenOff
    hticket hcall hhead hcalm hreadable moves (by simp [moves]) hsame
  have hover := hlive (List.replicate 4 (.step 2 0)) 5 rfl (by decide +kernel) (by simp)
  refine ⟨hover, ds, hdeeds, ?_⟩
  rcases hends with ⟨-, hended⟩ | ⟨hnot, -⟩
  · rw [hended.polls]
    exact congrArg (· + 1) hfull
  · exact absurd hover hnot

end Termination

end Traffic

end ReplicatedLog
