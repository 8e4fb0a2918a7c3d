import ReplicatedLog.Log.Writer

/-!
# A log only grows

What the users of a log do to it is an `Log.Operation`.  No operation takes an
entry away, changes one or puts one in between.

* `Log.written` is the list of entries of a partition, empty as long as the
  partition is not there;
* `Log.Grows before after` says that every partition was extended at its end,
  and `Log.Adds` that one entry was added at the end of one partition;
* `perform_grows`: every operation lets the log grow, and `perform_sound` keeps it sound;
* `append_of_rejection`, `append_zero`: what an append to the first partition of a
  topic comes to;
* `AckOf`: an acknowledgment of an append can only become the position of that
  append, or be dropped.
-/

namespace ReplicatedLog
namespace Log

section Written

/-- The entries of a partition; none as long as it is not there. -/
def written (log : Log) (p : Partition) : List Entry :=
  (log.entries p).getD []

/-- The later log has the settings of the earlier one and extends its partitions. -/
structure Grows (before after : Log) : Prop where
  settings : after.settings = before.settings
  entries : ∀ p, before.written p <+: after.written p

theorem Grows.refl (log : Log) : log.Grows log :=
  ⟨rfl, fun _ => List.prefix_refl _⟩

theorem Grows.trans {a b c : Log} (h : a.Grows b) (h' : b.Grows c) : a.Grows c :=
  ⟨h'.settings.trans h.settings, fun p => (h.entries p).trans (h'.entries p)⟩

/-- A log with the same settings and topics. -/
theorem Grows.of_topics {a b : Log} (hs : b.settings = a.settings) (ht : b.topics = a.topics) :
    a.Grows b := by
  refine ⟨hs, fun p => ?_⟩
  simp [written, Log.entries, ht]

/-- The later log has one entry more, at the end of a partition. -/
def Adds (before after : Log) (p : Partition) (e : Entry) : Prop :=
  ∀ q, after.written q = if q = p then before.written q ++ [e] else before.written q

/-- The later log has the entries of the earlier one. -/
def AddsNothing (before after : Log) : Prop :=
  ∀ q, after.written q = before.written q

/-- The length of a partition is its end offset, and zero as long as it is not there. -/
theorem length_written (log : Log) (p : Partition) :
    (log.written p).length = (log.endOffset p).getD 0 := by
  unfold written endOffset
  cases log.entries p <;> rfl

theorem read_eq_some {log : Log} {p : Partition} {start max : Nat} {es : List Entry}
    (h : log.read p start max = some es) : es = ((log.written p).drop start).take max := by
  unfold read at h
  unfold written
  cases hp : log.entries p with
  | none => simp [hp] at h
  | some all => simpa [hp] using h.symm

theorem read_eq_none {log : Log} {p : Partition} {start max : Nat}
    (h : log.read p start max = none) : log.written p = [] := by
  unfold read at h
  unfold written
  cases hp : log.entries p with
  | none => rfl
  | some all => simp [hp] at h

end Written

section Topics

/-- Every topic has a partition. -/
def HasPartitions (log : Log) : Prop :=
  ∀ topic partitions, log.topics.get? topic = some partitions → partitions ≠ []

/-- A log with the same topics. -/
theorem HasPartitions.of_topics {a b : Log} (h : a.HasPartitions) (ht : b.topics = a.topics) :
    b.HasPartitions := by
  unfold HasPartitions
  rw [ht]
  exact h

/-- What a topic is after one has been made. -/
theorem createTopic_get? (log : Log) (name topic : String) (n : Nat) :
    (log.createTopic name n).2.topics.get? topic =
      if topic = name ∧ log.topics.get? name = none then some (List.replicate (max n 1) [])
      else log.topics.get? topic := by
  unfold createTopic
  cases hn : log.topics.get? name with
  | some ps => simp [SortedMap.contains, hn]
  | none =>
      by_cases ht : topic = name
      · simp [SortedMap.contains, hn, ht]
      · simp [SortedMap.contains, hn, ht, SortedMap.get?_insert_of_ne]

theorem createTopic_settings (log : Log) (name : String) (n : Nat) :
    (log.createTopic name n).2.settings = log.settings := by
  unfold createTopic
  split <;> rfl

/-- A topic that has been made has no entries. -/
theorem createTopic_addsNothing (log : Log) (name : String) (n : Nat) :
    log.AddsNothing (log.createTopic name n).2 := by
  intro p
  unfold written entries
  rw [createTopic_get?]
  split
  next h =>
    rw [h.1, h.2]
    cases hi : (List.replicate (max n 1) ([] : List Entry))[p.index]? with
    | none => simp [hi]
    | some es =>
        have hes : es = [] := by
          have := List.mem_of_getElem? hi
          simpa using (List.mem_replicate.1 this).2
        simp [hi, hes]
  next => rfl

theorem createTopic_hasPartitions {log : Log} (h : log.HasPartitions) (name : String) (n : Nat) :
    (log.createTopic name n).2.HasPartitions := by
  intro topic partitions hget
  rw [createTopic_get?] at hget
  split at hget
  next =>
    have : 0 < max n 1 := by omega
    cases hget
    intro hnil
    rw [List.replicate_eq_nil_iff] at hnil
    omega
  next => exact h topic partitions hget

/-- A topic is there once it has been asked for. -/
theorem ensureTopic_get?_self (log : Log) (topic : String) :
    ∃ partitions, (log.ensureTopic topic).topics.get? topic = some partitions := by
  unfold ensureTopic
  rw [createTopic_get?]
  cases h : log.topics.get? topic with
  | none => exact ⟨_, by rw [if_pos ⟨rfl, rfl⟩]⟩
  | some ps => exact ⟨ps, by simp⟩

end Topics

section Appending

/-- What adding an entry to one of a list of partitions does to each of them. -/
theorem getElem?_addEntry (e : Entry) :
    ∀ (i : Nat) (partitions : List (List Entry)) (j : Nat),
      (addEntry e i partitions)[j]? =
        if j = i then partitions[j]?.map (· ++ [e]) else partitions[j]?
  | _, [], j => by simp [addEntry]
  | 0, es :: rest, j => by
      cases j <;> simp [addEntry]
  | i + 1, es :: rest, j => by
      cases j with
      | zero => simp [addEntry]
      | succ j => simp [addEntry, getElem?_addEntry e i rest j]

theorem addEntry_ne_nil (e : Entry) (i : Nat) {partitions : List (List Entry)}
    (h : partitions ≠ []) : addEntry e i partitions ≠ [] := by
  cases partitions with
  | nil => exact absurd rfl h
  | cons es rest => cases i <;> simp [addEntry]

/-- A rejection that is lined up is taken off the line and given as the reason. -/
theorem append_of_rejection {log : Log} {cause : Rejection} {later : List Rejection}
    (h : log.failures = cause :: later) (topic : String) (index : Option Nat) (e : Entry) :
    log.append topic index e = (.error cause, { log with failures := later }) := by
  unfold append
  rw [h]

/-- What an append leaves as it was. -/
theorem append_frame (log : Log) (topic : String) (index : Option Nat) (e : Entry) :
    (log.append topic index e).2.settings = log.settings ∧
    (log.append topic index e).2.isHolding = log.isHolding ∧
    (log.append topic index e).2.held = log.held ∧
    (log.append topic index e).2.ledger = log.ledger := by
  have hframe : (log.ensureTopic topic).settings = log.settings ∧
      (log.ensureTopic topic).isHolding = log.isHolding ∧
      (log.ensureTopic topic).held = log.held ∧
      (log.ensureTopic topic).ledger = log.ledger := by
    unfold ensureTopic createTopic
    split <;> exact ⟨rfl, rfl, rfl, rfl⟩
  unfold append
  split
  · exact ⟨rfl, rfl, rfl, rfl⟩
  · dsimp only
    split
    · exact hframe
    · exact hframe

/-- What an append does to the entries: one more at the position that it tells, or none. -/
theorem append_entries (log : Log) (topic : String) (index : Option Nat) (e : Entry) :
    match (log.append topic index e).1 with
    | .ok p =>
        p.topic = topic ∧ p.offset = (log.written p.partition).length ∧
          log.Adds (log.append topic index e).2 p.partition e
    | .error _ => log.AddsNothing (log.append topic index e).2 := by
  have hmade := createTopic_addsNothing log topic log.settings.defaultPartitions
  obtain ⟨partitions, hps⟩ := ensureTopic_get?_self log topic
  cases hf : log.failures with
  | cons cause later =>
      rw [append_of_rejection hf]
      exact fun _ => rfl
  | nil =>
      simp only [append, hf, hps, Option.getD_some]
      generalize index.getD (partitionOfKey e.key partitions.length) = i
      cases hes : partitions[i]? with
      | none => exact hmade
      | some es =>
          have hwritten : log.written ⟨topic, i⟩ = es := by
            rw [← hmade ⟨topic, i⟩]
            change ((log.ensureTopic topic).entries ⟨topic, i⟩).getD [] = es
            simp [entries, hps, hes]
          refine ⟨rfl, by simp [Position.partition, hwritten], fun q => ?_⟩
          rw [← hmade q]
          change _ = if q = ⟨topic, i⟩ then (log.ensureTopic topic).written q ++ [e]
            else (log.ensureTopic topic).written q
          by_cases ht : q.topic = topic
          · simp only [written, entries, ht, hps, SortedMap.get?_insert_self, Option.bind_some,
              getElem?_addEntry]
            by_cases hq : q.index = i
            · have : q = ⟨topic, i⟩ := by
                rw [← ht, ← hq]
              rw [if_pos hq, if_pos this, hq, hes]
              rfl
            · have : q ≠ ⟨topic, i⟩ := fun h => hq (by rw [h])
              rw [if_neg hq, if_neg this]
          · have : q ≠ ⟨topic, i⟩ := fun h => ht (by rw [h])
            rw [if_neg this]
            simp [written, entries, SortedMap.get?_insert_of_ne _ _ ht]

theorem append_hasPartitions {log : Log} (h : log.HasPartitions) (topic : String)
    (index : Option Nat) (e : Entry) : (log.append topic index e).2.HasPartitions := by
  have hmade : (log.ensureTopic topic).HasPartitions :=
    createTopic_hasPartitions h topic log.settings.defaultPartitions
  obtain ⟨partitions, hps⟩ := ensureTopic_get?_self log topic
  cases hf : log.failures with
  | cons cause later =>
      rw [append_of_rejection hf]
      exact h.of_topics rfl
  | nil =>
      simp only [append, hf, hps, Option.getD_some]
      generalize index.getD (partitionOfKey e.key partitions.length) = i
      cases hes : partitions[i]? with
      | none => exact hmade
      | some es =>
          intro name ps hget
          by_cases hn : name = topic
          · subst hn
            simp only [SortedMap.get?_insert_self, Option.some.injEq] at hget
            subst hget
            exact addEntry_ne_nil e i (hmade name partitions hps)
          · simp only [SortedMap.get?_insert_of_ne _ _ hn] at hget
            exact hmade name ps hget

/-- An append to the first partition of a topic lands, unless a rejection is lined up. -/
theorem append_zero {log : Log} (h : log.HasPartitions) (hf : log.failures = []) (topic : String)
    (e : Entry) :
    (log.append topic (some 0) e).1 = .ok ⟨topic, 0, (log.written ⟨topic, 0⟩).length⟩ := by
  have hentries := append_entries log topic (some 0) e
  obtain ⟨partitions, hps⟩ := ensureTopic_get?_self log topic
  cases partitions with
  | nil => exact absurd rfl (createTopic_hasPartitions h topic _ topic [] hps)
  | cons es rest =>
      have hok : (log.append topic (some 0) e).1 = .ok ⟨topic, 0, es.length⟩ := by
        simp [append, hf, hps]
      rw [hok] at hentries ⊢
      have hlength : es.length = _ := hentries.2.1
      rw [hlength]
      rfl

end Appending

section Operations

/-- What the users of a log do to it. -/
inductive Operation
  | createTopic (topic : String) (partitions : Nat)
  | failNext (cause : Rejection)
  | hold
  | release
  | abandon
  /-- To append an encoded entry, of any bytes, and to enter its acknowledgment. -/
  | append (topic : String) (index : Option Nat) (e : Entry)

/-- The log after an operation. -/
def perform (log : Log) : Operation → Log
  | .createTopic topic partitions => (log.createTopic topic partitions).2
  | .failNext cause => log.failNext cause
  | .hold => log.hold
  | .release => log.release.2
  | .abandon => log.abandon.2
  | .append topic index e => (Writer.appendEntry log topic index e).2

/-- The log that operations make of a new one. -/
def ofOperations (settings : Settings) (ops : List Operation) : Log :=
  ops.foldl perform { settings }

theorem acknowledge_frame (log : Log) (p : Position) :
    (log.acknowledge p).2.settings = log.settings ∧
    (log.acknowledge p).2.topics = log.topics := by
  unfold acknowledge
  dsimp only
  split <;> exact ⟨rfl, rfl⟩

/-- A writer's append changes the entries as the log's own does. -/
theorem appendEntry_topics (log : Log) (topic : String) (index : Option Nat) (e : Entry) :
    (Writer.appendEntry log topic index e).2.settings =
        (log.append topic index e).2.settings ∧
    (Writer.appendEntry log topic index e).2.topics = (log.append topic index e).2.topics := by
  unfold Writer.appendEntry
  split
  next p after h =>
    have := acknowledge_frame after p
    rw [h]
    exact this
  next cause after h =>
    rw [h]
    exact ⟨rfl, rfl⟩

/-- An entry more, or none, leaves what was there in place. -/
theorem append_grows (log : Log) (topic : String) (index : Option Nat) (e : Entry) :
    log.Grows (log.append topic index e).2 := by
  have h := append_entries log topic index e
  refine ⟨(append_frame log topic index e).1, fun q => ?_⟩
  split at h
  next p _ =>
    rw [h.2.2 q]
    split
    · exact List.prefix_append _ _
    · exact List.prefix_refl _
  next => exact (h q).symm ▸ List.prefix_refl _

/-- Every operation lets the log grow. -/
theorem perform_grows (log : Log) (op : Operation) : log.Grows (log.perform op) := by
  cases op with
  | createTopic topic partitions =>
      refine ⟨createTopic_settings log topic partitions, fun q => ?_⟩
      exact (createTopic_addsNothing log topic partitions q).symm ▸ List.prefix_refl _
  | failNext cause => exact .of_topics rfl rfl
  | hold => exact .of_topics rfl rfl
  | release => exact .of_topics rfl rfl
  | abandon => exact .of_topics rfl rfl
  | append topic index e =>
      have h := appendEntry_topics log topic index e
      exact (append_grows log topic index e).trans (.of_topics h.1 h.2)

/-- What holds of a log from its making on: every topic has a partition, and what is held back is
in the ledger. -/
structure Sound (log : Log) : Prop where
  partitions : log.HasPartitions
  held : ∀ id p, (id, p) ∈ log.held → id < log.ledger.size

/-- A log without entries and acknowledgments. -/
theorem sound_new (settings : Settings) : ({ settings } : Log).Sound := by
  constructor
  · intro topic partitions h
    simp at h
  · intro id p h
    simp at h

theorem acknowledge_held {log : Log} (h : ∀ id p, (id, p) ∈ log.held → id < log.ledger.size)
    (q : Position) :
    ∀ id p, (id, p) ∈ (log.acknowledge q).2.held → id < (log.acknowledge q).2.ledger.size := by
  unfold acknowledge
  dsimp only
  split
  · intro id p hp
    rw [Array.size_push]
    rcases List.mem_append.1 hp with hp | hp
    · exact Nat.lt_succ_of_lt (h id p hp)
    · simp only [List.mem_singleton, Prod.mk.injEq] at hp
      exact hp.1 ▸ Nat.lt_succ_self _
  · intro id p hp
    rw [Array.size_push]
    exact Nat.lt_succ_of_lt (h id p hp)

/-- Every operation keeps a log sound. -/
theorem perform_sound {log : Log} (h : log.Sound) (op : Operation) : (log.perform op).Sound := by
  cases op with
  | createTopic topic partitions =>
      refine ⟨createTopic_hasPartitions h.partitions topic partitions, ?_⟩
      rw [perform, createTopic]
      split <;> exact h.held
  | failNext cause => exact ⟨h.partitions.of_topics rfl, h.held⟩
  | hold => exact ⟨h.partitions.of_topics rfl, h.held⟩
  | release => exact ⟨h.partitions.of_topics rfl, by simp [perform, release]⟩
  | abandon => exact ⟨h.partitions.of_topics rfl, by simp [perform, abandon]⟩
  | append topic index e =>
      refine ⟨(append_hasPartitions h.partitions topic index e).of_topics
        (appendEntry_topics log topic index e).2, ?_⟩
      obtain ⟨-, -, hheld, hledger⟩ := append_frame log topic index e
      have hafter : ∀ id p, (id, p) ∈ (log.append topic index e).2.held →
          id < (log.append topic index e).2.ledger.size := by
        rw [hheld, hledger]
        exact h.held
      rw [perform, Writer.appendEntry]
      split
      next q after ha =>
        rw [ha] at hafter
        exact acknowledge_held hafter q
      next cause after ha =>
        rw [ha] at hafter
        exact hafter

/-- What operations make of a sound log is sound. -/
theorem foldl_perform_sound (ops : List Operation) :
    ∀ {log : Log}, log.Sound → (ops.foldl perform log).Sound := by
  induction ops with
  | nil => exact fun h => h
  | cons op ops ih => exact fun h => ih (perform_sound h op)

theorem ofOperations_sound (settings : Settings) (ops : List Operation) :
    (ofOperations settings ops).Sound :=
  foldl_perform_sound ops (sound_new settings)

end Operations

section Acknowledgments

/-- The acknowledgment with a number belongs to a position: it is held back for it, resolved with
it, or dropped. -/
structure AckOf (log : Log) (id : AckId) (p : Position) : Prop where
  inLedger : id < log.ledger.size
  held : ∀ q, (id, q) ∈ log.held → q = p
  state : log.ledger[id]? = some .outstanding ∨ log.ledger[id]? = some (.resolved (.ok p)) ∨
    log.ledger[id]? = some .dropped

/-- What resolving or dropping held acknowledgments makes of the ledger. -/
theorem getElem?_foldl_modify (become : Position → Ack) (id : AckId) :
    ∀ (held : List (AckId × Position)) (ledger : Array Ack),
      (held.foldl (fun l (h : AckId × Position) => l.modify h.1 fun _ => become h.2) ledger)[id]?
          = ledger[id]? ∨
        ∃ p, (id, p) ∈ held ∧ id < ledger.size ∧
          (held.foldl (fun l (h : AckId × Position) => l.modify h.1 fun _ => become h.2)
            ledger)[id]? = some (become p)
  | [], ledger => Or.inl rfl
  | (other, q) :: held, ledger => by
      simp only [List.foldl_cons]
      have hsize : (ledger.modify other fun _ => become q).size = ledger.size :=
        Array.size_modify
      rcases getElem?_foldl_modify become id held (ledger.modify other fun _ => become q) with
        h | ⟨p, hp, hid, h⟩
      · rw [h, Array.getElem?_modify]
        by_cases ho : other = id
        · subst ho
          cases hl : ledger[other]? with
          | none => simp
          | some a =>
              have hlt := (Array.getElem?_eq_some_iff.1 hl).1
              exact Or.inr ⟨q, by simp, hlt, by simp⟩
        · exact Or.inl (by simp [ho])
      · exact Or.inr ⟨p, List.mem_cons_of_mem _ hp, hsize ▸ hid, h⟩

theorem size_foldl_modify (become : Position → Ack) (held : List (AckId × Position)) :
    ∀ ledger : Array Ack,
      (held.foldl (fun l (h : AckId × Position) => l.modify h.1 fun _ => become h.2)
        ledger).size = ledger.size := by
  induction held with
  | nil => exact fun _ => rfl
  | cons h held ih =>
      intro ledger
      rw [List.foldl_cons, ih, Array.size_modify]

/-- Entering one more acknowledgment leaves those before it as they are. -/
theorem AckOf.acknowledge {log : Log} {id : AckId} {p : Position} (h : log.AckOf id p)
    (q : Position) : (log.acknowledge q).2.AckOf id p := by
  have hne : id ≠ log.ledger.size := Nat.ne_of_lt h.inLedger
  have hpush : ∀ a, (log.ledger.push a)[id]? = log.ledger[id]? := fun a => by
    rw [Array.getElem?_push, if_neg hne]
  unfold Log.acknowledge
  dsimp only
  split
  · refine ⟨?_, ?_, ?_⟩
    · simpa using Nat.lt_succ_of_lt h.inLedger
    · intro q' hq'
      rcases List.mem_append.1 hq' with hq' | hq'
      · exact h.held q' hq'
      · simp only [List.mem_singleton, Prod.mk.injEq] at hq'
        exact absurd hq'.1 hne
    · simpa only [hpush] using h.state
  · refine ⟨?_, h.held, ?_⟩
    · simpa using Nat.lt_succ_of_lt h.inLedger
    · simpa only [hpush] using h.state

/-- A log with the same acknowledgments. -/
theorem AckOf.of_ledger {a b : Log} {id : AckId} {p : Position} (h : a.AckOf id p)
    (hh : b.held = a.held) (hl : b.ledger = a.ledger) : b.AckOf id p := by
  constructor
  · rw [hl]
    exact h.inLedger
  · rw [hh]
    exact h.held
  · rw [hl]
    exact h.state

/-- An acknowledgment goes on belonging to its position, whatever is done to the log. -/
theorem AckOf.perform {log : Log} {id : AckId} {p : Position} (h : log.AckOf id p)
    (op : Operation) : (log.perform op).AckOf id p := by
  cases op with
  | createTopic topic partitions =>
      rw [Log.perform, createTopic]
      split
      · exact h
      · exact h.of_ledger rfl rfl
  | failNext cause => exact h.of_ledger rfl rfl
  | hold => exact h.of_ledger rfl rfl
  | release =>
      refine ⟨?_, by simp [Log.perform, Log.release], ?_⟩
      · rw [Log.perform, Log.release, size_foldl_modify fun q => .resolved (.ok q)]
        exact h.inLedger
      · rcases getElem?_foldl_modify (fun q => .resolved (.ok q)) id log.held log.ledger with
          hs | ⟨q, hq, _, hs⟩
        · rw [Log.perform, Log.release, hs]
          exact h.state
        · rw [Log.perform, Log.release, hs, h.held q hq]
          exact Or.inr (Or.inl rfl)
  | abandon =>
      refine ⟨?_, by simp [Log.perform, Log.abandon], ?_⟩
      · rw [Log.perform, Log.abandon, size_foldl_modify fun _ => .dropped]
        exact h.inLedger
      · rcases getElem?_foldl_modify (fun _ => .dropped) id log.held log.ledger with
          hs | ⟨q, hq, _, hs⟩
        · rw [Log.perform, Log.abandon, hs]
          exact h.state
        · rw [Log.perform, Log.abandon, hs]
          exact Or.inr (Or.inr rfl)
  | append topic index e =>
      obtain ⟨-, -, hheld, hledger⟩ := append_frame log topic index e
      rw [Log.perform, Writer.appendEntry]
      split
      next q after ha =>
        rw [ha] at hheld hledger
        exact (h.of_ledger hheld hledger).acknowledge q
      next cause after ha =>
        rw [ha] at hheld hledger
        exact h.of_ledger hheld hledger

/-- The acknowledgment that is entered for a position belongs to it, if nothing is held back under a
number that the ledger does not have. -/
theorem ackOf_acknowledge {log : Log} (h : ∀ id q, (id, q) ∈ log.held → id < log.ledger.size)
    (p : Position) : (log.acknowledge p).2.AckOf (log.acknowledge p).1 p := by
  unfold Log.acknowledge
  dsimp only
  split
  · refine ⟨by simp, ?_, Or.inl (by simp)⟩
    intro q hq
    rcases List.mem_append.1 hq with hq | hq
    · exact absurd (h _ q hq) (Nat.lt_irrefl _)
    · simpa using hq
  · refine ⟨by simp, ?_, Or.inr (Or.inl (by simp))⟩
    intro q hq
    exact absurd (h _ q hq) (Nat.lt_irrefl _)

end Acknowledgments

end Log
end ReplicatedLog
