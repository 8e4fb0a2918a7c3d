import ReplicatedLog.Proofs.Log.Refusing
import Mathlib.Algebra.Group.Nat.Defs

/-!
# Addressing partitions

A machine takes a partition out of its topic by an index and a stretch out of its entries by two,
sends a key to a partition by a division, and has words for its numbers.  Each of these steps comes
to nothing if what it reaches for is not there.

* `Log.partitionOfKey?`, `Log.append?` and `Log.read?` are made of such steps;
* `Log.Countable`: every topic has a partition, and no more of them than a word can count.  Every
  operation keeps this, also if a topic is asked for without partitions;
* `Log.Addressable`: no step comes to nothing, and all of them together come to what the log does;
* `ofOperations_addressable`: the logs that operations can make are addressable.
-/

namespace ReplicatedLog
namespace Log

section Machine

/-- The partition that a key is sent to.  There is no remainder of a division by zero. -/
def partitionOfKey? (key : Bytes) (count : Nat) : Option Nat :=
  if count = 0 then none else some ((Digest.ofKey key).toNat % count % 2 ^ 32)

/-- Adds an entry to the partition with an index. -/
def land? (log : Log) (topic : String) (partitions : List (List Entry)) (index : Nat) (e : Entry) :
    Option (Except Rejection Position × Log) :=
  partitions[index]?.map fun es =>
    (.ok ⟨topic, index, es.length⟩,
      { log with
        topics := log.topics.insert topic (addEntry e index partitions)
        appends := log.appends + 1 })

/-- Appends an entry.  Partitions are counted in a word of 32 bits, and only an index that was asked
for is compared with their count. -/
def append? (log : Log) (topic : String) (index : Option Nat) (e : Entry) :
    Option (Except Rejection Position × Log) :=
  match log.failures with
  | cause :: later => some (.error cause, { log with failures := later })
  | [] =>
      let log := log.ensureTopic topic
      let partitions := (log.topics.get? topic).getD [[]]
      let count := partitions.length % 2 ^ 32
      match index with
      | some i =>
          if i < count then log.land? topic partitions i e
          else some (.error (Rejection.notHosted ⟨topic, i⟩), log)
      | none => (partitionOfKey? e.key count).bind fun i => log.land? topic partitions i e

/-- The stretch of a list between two indices, which must not be the wrong way round or past the
end. -/
def stretch? {α : Type} (l : List α) (first last : Nat) : Option (List α) :=
  if first ≤ last ∧ last ≤ l.length then some ((l.take last).drop first) else none

/-- Reads a stretch of a partition, or finds that the log does not have it.  A sum that does not fit
in a word of 64 bits is the largest such word. -/
def read? (log : Log) (p : Partition) (start max : Nat) : Option (Option (List Entry)) :=
  match log.topics.get? p.topic with
  | none => some none
  | some partitions =>
      if p.index < partitions.length then
        partitions[p.index]?.bind fun es =>
          let first := min start es.length
          let last := min (min (first + max) (2 ^ 64 - 1)) es.length
          (stretch? es first last).map some
      else some none

end Machine

section Counts

/-- The number of partitions that is asked for is a word of 32 bits. -/
def Operation.InRange : Operation → Prop
  | .createTopic _ partitions => partitions < 2 ^ 32
  | _ => True

/-- The default number of partitions is a word of 32 bits, and every topic has a partition and no
more than such a word can count. -/
structure Countable (log : Log) : Prop where
  default : log.settings.defaultPartitions < 2 ^ 32
  counts : ∀ topic n, log.partitionCount topic = some n → 0 < n ∧ n < 2 ^ 32

variable {log : Log} {topic name : String} {index : Option Nat} {e : Entry} {n : Nat}

/-- A log with the same settings and topics. -/
theorem Countable.of_topics {a b : Log} (h : a.Countable) (hs : b.settings = a.settings)
    (ht : b.topics = a.topics) : b.Countable := by
  constructor
  · rw [hs]
    exact h.default
  · intro topic n hn
    rw [partitionCount, ht] at hn
    exact h.counts topic n hn

theorem Countable.createTopic (h : log.Countable) (name : String) (hn : n < 2 ^ 32) :
    (log.createTopic name n).2.Countable := by
  constructor
  · rw [createTopic_settings]
    exact h.default
  · intro topic k hk
    rw [partitionCount, createTopic_get?] at hk
    split at hk
    · rw [Option.map_some, List.length_replicate, Option.some.injEq] at hk
      omega
    · exact h.counts topic k hk

theorem Countable.ensureTopic (h : log.Countable) (topic : String) :
    (log.ensureTopic topic).Countable :=
  h.createTopic topic h.default

/-- An append makes no more partitions than asking for its topic does. -/
theorem partitionCount_append (log : Log) (topic : String) (index : Option Nat) (e : Entry)
    (name : String) :
    (log.append topic index e).2.partitionCount name = log.partitionCount name ∨
      (log.append topic index e).2.partitionCount name =
        (log.ensureTopic topic).partitionCount name := by
  obtain ⟨partitions, hps⟩ := ensureTopic_get?_self log topic
  cases hf : log.failures with
  | cons cause later =>
      rw [append_of_rejection hf]
      exact Or.inl rfl
  | nil =>
      right
      simp only [append, hf, hps, Option.getD_some]
      generalize index.getD (partitionOfKey e.key partitions.length) = i
      cases partitions[i]? with
      | none => rfl
      | some es =>
          by_cases hname : name = topic
          · subst hname
            simp [partitionCount, hps, length_addEntry]
          · rw [partitionCount, SortedMap.get?_insert_of_ne _ _ hname]
            rfl

theorem Countable.append (h : log.Countable) (topic : String) (index : Option Nat) (e : Entry) :
    (log.append topic index e).2.Countable := by
  constructor
  · rw [(append_frame log topic index e).1]
    exact h.default
  · intro name n hn
    rcases partitionCount_append log topic index e name with hsame | hsame
    · exact h.counts name n (hsame ▸ hn)
    · exact (h.ensureTopic topic).counts name n (hsame ▸ hn)

theorem Countable.perform (h : log.Countable) {op : Operation} (hop : op.InRange) :
    (log.perform op).Countable := by
  cases op with
  | createTopic topic partitions => exact h.createTopic topic hop
  | failNext cause => exact h.of_topics rfl rfl
  | hold => exact h.of_topics rfl rfl
  | release => exact h.of_topics rfl rfl
  | abandon => exact h.of_topics rfl rfl
  | append topic index e =>
      obtain ⟨hsettings, htopics⟩ := appendEntry_topics log topic index e
      exact (h.append topic index e).of_topics hsettings htopics

theorem Countable.foldl_perform {ops : List Operation} (hops : ∀ op ∈ ops, op.InRange) :
    ∀ {log : Log}, log.Countable → (ops.foldl Log.perform log).Countable := by
  induction ops with
  | nil => exact fun h => h
  | cons op ops ih =>
      intro log h
      have hlater : ∀ op ∈ ops, op.InRange := fun op hop => hops op (List.mem_cons_of_mem _ hop)
      exact ih hlater (h.perform (hops op List.mem_cons_self))

theorem ofOperations_countable {settings : Settings} {ops : List Operation}
    (hsettings : settings.defaultPartitions < 2 ^ 32) (hops : ∀ op ∈ ops, op.InRange) :
    (ofOperations settings ops).Countable := by
  have hnew : ({ settings } : Log).Countable := ⟨hsettings, fun _ _ hn => by cases hn⟩
  exact hnew.foldl_perform hops

end Counts

section Steps

variable {log : Log} {topic : String}

theorem Countable.hasPartitions (h : log.Countable) : log.HasPartitions := by
  rintro topic partitions hps rfl
  have hcount : log.partitionCount topic = some 0 := by
    rw [partitionCount, hps]
    rfl
  exact Nat.lt_irrefl 0 (h.counts topic 0 hcount).1

/-- Where a topic has a partition, every key is sent to one of its partitions. -/
theorem partitionOfKey?_eq (key : Bytes) {count : Nat} (hpos : 0 < count) (hlt : count < 2 ^ 32) :
    partitionOfKey? key count = some (partitionOfKey key count) ∧
      partitionOfKey key count < count := by
  have hin := Writer.partitionOfKey_lt key (Nat.ne_of_gt hpos)
  refine ⟨?_, hin⟩
  rw [partitionOfKey?, if_neg (Nat.ne_of_gt hpos)]
  exact congrArg some (Nat.mod_eq_of_lt (Nat.lt_trans hin hlt))

/-- No step of an append comes to nothing. -/
theorem Countable.append?_eq (h : log.Countable) (topic : String) (index : Option Nat) (e : Entry) :
    log.append? topic index e = some (log.append topic index e) := by
  cases hf : log.failures with
  | cons cause later =>
      rw [append_of_rejection hf, append?, hf]
  | nil =>
      obtain ⟨partitions, hps⟩ := ensureTopic_get?_self log topic
      obtain ⟨hpos, hlt⟩ : 0 < partitions.length ∧ partitions.length < 2 ^ 32 := by
        refine (h.ensureTopic topic).counts topic _ ?_
        rw [partitionCount, hps, Option.map_some]
      have hcount : partitions.length % 2 ^ 32 = partitions.length := Nat.mod_eq_of_lt hlt
      -- an index inside of the topic is that of a partition
      have hland : ∀ i < partitions.length,
          (log.ensureTopic topic).land? topic partitions i e =
            some (log.append topic (some i) e) := by
        intro i hi
        have hget := List.getElem?_eq_getElem hi
        simp only [land?, Log.append, hf, hps, hget, Option.map_some, Option.getD_some]
      cases index with
      | some i =>
          simp only [append?, hf, hps, Option.getD_some, hcount]
          by_cases hi : i < partitions.length
          · rw [if_pos hi]
            exact hland i hi
          · have hget : partitions[i]? = none := List.getElem?_eq_none (Nat.le_of_not_lt hi)
            rw [if_neg hi]
            simp only [Log.append, hf, hps, Option.getD_some, hget]
      | none =>
          obtain ⟨hkey, hin⟩ := partitionOfKey?_eq e.key hpos hlt
          simp only [append?, hf, hps, Option.getD_some, hcount, hkey, Option.bind_some]
          rw [hland _ hin]
          simp only [Log.append, hf, hps, Option.getD_some, Option.getD_none]

/-- The two ends of a stretch are in order and inside of the partition. -/
theorem stretch?_isSome {α : Type} (l : List α) {start : Nat} (max : Nat)
    (hstart : start < 2 ^ 64) :
    (stretch? l (min start l.length)
      (min (min (min start l.length + max) (2 ^ 64 - 1)) l.length)).isSome := by
  rw [stretch?, if_pos]
  · rfl
  · omega

/-- The stretch of a partition that fits in memory is the one that was asked for. -/
theorem stretch?_eq {α : Type} {l : List α} {start : Nat} (max : Nat) (hl : l.length < 2 ^ 64) :
    stretch? l (min start l.length)
        (min (min (min start l.length + max) (2 ^ 64 - 1)) l.length) =
      some ((l.drop start).take max) := by
  rw [stretch?, if_pos (by omega), List.drop_take]
  congr 1
  by_cases hstart : start ≤ l.length
  · rw [Nat.min_eq_left hstart]
    have hlength : (l.drop start).length = l.length - start := List.length_drop
    by_cases hmax : start + max ≤ l.length
    · congr 1
      omega
    · rw [List.take_of_length_le (by omega), List.take_of_length_le (by omega)]
  · have hempty : l.drop start = [] := List.drop_of_length_le (by omega)
    have hend : min start l.length = l.length := Nat.min_eq_right (by omega)
    rw [hend, List.drop_length, hempty, List.take_nil, List.take_nil]

/-- What a read comes to: there is no such partition, or it is a stretch of it. -/
theorem read?_cases (log : Log) (p : Partition) (start max : Nat) :
    (log.read? p start max = some none ∧ log.entries p = none) ∨
      ∃ es, log.entries p = some es ∧
        log.read? p start max =
          (stretch? es (min start es.length)
            (min (min (min start es.length + max) (2 ^ 64 - 1)) es.length)).map some := by
  rw [read?, entries]
  cases log.topics.get? p.topic with
  | none => exact Or.inl ⟨rfl, rfl⟩
  | some partitions =>
      by_cases hi : p.index < partitions.length
      · have hget := List.getElem?_eq_getElem hi
        simp only [if_pos hi, hget, Option.bind_some]
        exact Or.inr ⟨_, rfl, rfl⟩
      · have hget : partitions[p.index]? = none := List.getElem?_eq_none (Nat.le_of_not_lt hi)
        simp only [if_neg hi, Option.bind_some, hget]
        exact Or.inl ⟨trivial, trivial⟩

/-- No step of a read comes to nothing, whatever partition, offset and number of entries are asked
for. -/
theorem read?_isSome (log : Log) (p : Partition) {start : Nat} (max : Nat)
    (hstart : start < 2 ^ 64) :
    (log.read? p start max).isSome := by
  rcases read?_cases log p start max with ⟨hnone, -⟩ | ⟨es, -, hread⟩
  · rw [hnone]
    rfl
  · rw [hread, Option.isSome_map]
    exact stretch?_isSome es max hstart

theorem read?_eq (log : Log) (p : Partition) (start max : Nat)
    (hlength : (log.written p).length < 2 ^ 64) :
    log.read? p start max = some (log.read p start max) := by
  rw [read]
  rcases read?_cases log p start max with ⟨hnone, hgone⟩ | ⟨es, hes, hread⟩
  · rw [hnone, hgone, Option.map_none]
  · rw [written, hes, Option.getD_some] at hlength
    rw [hread, hes, stretch?_eq max hlength, Option.map_some, Option.map_some]

end Steps

/-- Every partition of a log can be addressed. -/
structure Addressable (log : Log) : Prop where
  /-- Every topic has a partition, and no more than a word can count. -/
  counts : ∀ topic n, log.partitionCount topic = some n → 0 < n ∧ n < 2 ^ 32
  /-- Every key is sent to a partition of the topic. -/
  keyed : ∀ topic n key, log.partitionCount topic = some n →
    partitionOfKey? key n = some (partitionOfKey key n) ∧ partitionOfKey key n < n
  /-- No step of an append comes to nothing. -/
  append : ∀ topic index e, log.append? topic index e = some (log.append topic index e)
  /-- Without a partition of its own, an entry is only refused if a rejection is lined up. -/
  taken : ∀ topic e cause, (log.append topic none e).1 = .error cause → cause ∈ log.failures
  /-- No step of a read comes to nothing. -/
  read : ∀ p start max, start < 2 ^ 64 → (log.read? p start max).isSome
  /-- A read brings the stretch that was asked for, of a partition whose entries a word can
  count. -/
  brings : ∀ p start max, (log.written p).length < 2 ^ 64 →
    log.read? p start max = some (log.read p start max)

theorem Countable.addressable {log : Log} (h : log.Countable) : log.Addressable := by
  refine ⟨h.counts, ?keyed, h.append?_eq, ?taken, fun p start max => log.read?_isSome p max,
    log.read?_eq⟩
  case keyed =>
    intro topic n key hn
    obtain ⟨hpos, hlt⟩ := h.counts topic n hn
    exact partitionOfKey?_eq key hpos hlt
  case taken =>
    intro topic e cause hfails
    rcases Writer.append_fails h.hasPartitions hfails with ⟨later, hfront, -⟩ | ⟨n, i, -, hi, -⟩
    · rw [hfront]
      exact List.mem_cons_self
    · cases hi

/-- The logs that operations make are addressable, whatever number of partitions the settings and
the operations ask for. -/
theorem ofOperations_addressable {settings : Settings} {ops : List Operation}
    (hsettings : settings.defaultPartitions < 2 ^ 32) (hops : ∀ op ∈ ops, op.InRange) :
    (ofOperations settings ops).Addressable :=
  (ofOperations_countable hsettings hops).addressable

end Log
end ReplicatedLog
