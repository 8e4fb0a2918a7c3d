import ReplicatedLog.Proofs.Log.Scanning

/-!
# The order of appends

Any number of writers and readers use one log, with any codecs, on any topics and
partitions.  The entries of a partition are those of the appends that landed there,
in the order in which they were issued.

* `Site` is a log with its writers and readers and an account of all sends;
  `Site.run` makes any moves in their order;
* `Site.StepsTo`: a move adds one entry at the end of one partition if it is a send
  that lands, and none otherwise;
* `Site.Accounts`: each partition is the list of the appends that landed there, their
  offsets are 0, 1, 2 and so on, and an acknowledgment tells the place of its entry;
* `Site.Extends`: what a later state has in common with an earlier one;
* `Reader.Shows`: what readers see of a partition is part of that one list.
-/

namespace ReplicatedLog

namespace Log

section Counting

theorem length_addEntry (e : Entry) :
    ∀ (i : Nat) (partitions : List (List Entry)),
      (addEntry e i partitions).length = partitions.length
  | _, [] => by simp [addEntry]
  | 0, _ :: _ => by simp [addEntry]
  | i + 1, _ :: rest => by simp [addEntry, length_addEntry e i rest]

/-- The topics of the later log have as many partitions as those of the earlier one. -/
def KeepsCounts (before after : Log) : Prop :=
  ∀ topic n, before.partitionCount topic = some n → after.partitionCount topic = some n

theorem KeepsCounts.of_topics {a b : Log} (h : b.topics = a.topics) : a.KeepsCounts b := by
  intro topic n hn
  rw [partitionCount, h]
  exact hn

theorem KeepsCounts.trans {a b c : Log} (h : a.KeepsCounts b) (h' : b.KeepsCounts c) :
    a.KeepsCounts c :=
  fun topic n hn => h' topic n (h topic n hn)

theorem createTopic_keepsCounts (log : Log) (name : String) (n : Nat) :
    log.KeepsCounts (log.createTopic name n).2 := by
  intro topic k hk
  rw [partitionCount, createTopic_get?]
  split
  next h =>
    rw [partitionCount, h.1, h.2] at hk
    cases hk
  next => exact hk

theorem append_keepsCounts (log : Log) (topic : String) (index : Option Nat) (e : Entry) :
    log.KeepsCounts (log.append topic index e).2 := by
  have hmade := createTopic_keepsCounts log topic log.settings.defaultPartitions
  obtain ⟨partitions, hps⟩ := ensureTopic_get?_self log topic
  cases hf : log.failures with
  | cons cause later =>
      rw [append_of_rejection hf]
      exact .of_topics rfl
  | nil =>
      simp only [append, hf, hps, Option.getD_some]
      generalize index.getD (partitionOfKey e.key partitions.length) = i
      cases hes : partitions[i]? with
      | none => exact hmade
      | some es =>
          refine hmade.trans fun name n hn => ?_
          by_cases hname : name = topic
          · subst hname
            have hold : (log.ensureTopic name).partitionCount name = some n := hn
            rw [partitionCount, hps] at hold
            simpa [partitionCount, length_addEntry] using hold
          · have hsame := SortedMap.get?_insert_of_ne (log.ensureTopic topic).topics
              (addEntry e i partitions) hname
            rw [partitionCount, hsame]
            exact hn

/-- Where an append lands is one of the partitions of its topic, and the one asked for if there was
one. -/
theorem append_index {log : Log} {topic : String} {index : Option Nat} {e : Entry} {q : Position}
    (h : (log.append topic index e).1 = .ok q) : ∀ i, index = some i → q.index = i := by
  rintro i rfl
  unfold append at h
  split at h
  · cases h
  · dsimp only at h
    split at h
    · cases h
    · cases h
      rfl

end Counting

end Log

namespace Writer

variable {κ ν : Type}

/-- The position and the entry of a send that lands. -/
def landing? (w : Writer) (schema : Schema κ ν) (log : Log) (topic : String)
    (index : Option Nat) (key : κ) (value : Option ν) : Option (Position × Entry) :=
  if w.isClosed then none
  else
    match encode schema topic key value with
    | .error _ => none
    | .ok e => (log.append topic index e).1.toOption.map fun q => (q, e)

/-- What a wait for a send stands for: the position where it has landed, or a failure. -/
def Promises (log : Log) (landed : Option (Position × Entry)) : Log.Wait → Prop
  | .known outcome => landed = none ∧ ∃ cause, outcome = .error (.failed cause)
  | .ack id => ∃ q e, landed = some (q, e) ∧ log.AckOf id q

theorem Promises.perform {log : Log} {landed : Option (Position × Entry)} {w : Log.Wait}
    (h : Promises log landed w) (op : Log.Operation) : Promises (log.perform op) landed w := by
  cases w with
  | known outcome => exact h
  | ack id =>
      obtain ⟨q, e, hlanded, hack⟩ := h
      exact ⟨q, e, hlanded, hack.perform op⟩

/-- What a sender is told: the cause of the failure or, in case of an entry, nothing yet, its
position, or that the acknowledgment was dropped. -/
def Told (outcome : Option Outcome) : Option (Position × Entry) → Prop
  | none => ∃ cause, outcome = some (.error (.failed cause))
  | some (q, _) => outcome = none ∨ outcome = some (.ok q) ∨ outcome = some (.error .abandoned)

theorem Promises.told {log : Log} {landed : Option (Position × Entry)} {w : Log.Wait}
    (h : Promises log landed w) : Told (log.outcome w) landed := by
  cases w with
  | known outcome =>
      obtain ⟨rfl, cause, rfl⟩ := h
      exact ⟨cause, rfl⟩
  | ack id =>
      obtain ⟨q, e, rfl, hack⟩ := h
      rcases hack.state with hout | hres | hdrop
      · exact Or.inl (by simp [Log.outcome, hout])
      · exact Or.inr (Or.inl (by simp [Log.outcome, hres]))
      · exact Or.inr (Or.inr (by simp [Log.outcome, hdrop]))

/-- What a send has done to a log: it has landed where it should, or has added nothing. -/
def Lands (before after : Log) (topic : String) (index : Option Nat) :
    Option (Position × Entry) → Prop
  | none => before.AddsNothing after
  | some (q, e) => q.topic = topic ∧ (∀ i, index = some i → q.index = i) ∧
      q.offset = (before.written q.partition).length ∧ before.Adds after q.partition e

theorem appendEntry_lands {log : Log} (hs : log.Sound) (topic : String) (index : Option Nat)
    (e : Entry) {landed : Option (Position × Entry)}
    (hl : landed = (log.append topic index e).1.toOption.map fun q => (q, e)) :
    Promises (appendEntry log topic index e).2 landed (appendEntry log topic index e).1 ∧
      Lands log (appendEntry log topic index e).2 topic index landed := by
  have hentries := Log.append_entries log topic index e
  obtain ⟨-, -, hheld, hledger⟩ := Log.append_frame log topic index e
  have htopics := (Log.appendEntry_topics log topic index e).2
  have hwritten : ∀ p, (appendEntry log topic index e).2.written p =
      (log.append topic index e).2.written p := fun p => by
    unfold Log.written Log.entries
    rw [htopics]
  have hindex := fun q => @Log.append_index log topic index e q
  rcases happend : log.append topic index e with ⟨result, after⟩
  rw [happend] at hl hentries hheld hledger hwritten hindex
  cases result with
  | error cause =>
      subst hl
      have hwait : (appendEntry log topic index e).1 = .known (.error (.failed cause)) := by
        simp [appendEntry, happend]
      refine ⟨?_, fun p => (hwritten p).trans (hentries p)⟩
      rw [hwait]
      exact ⟨rfl, cause, rfl⟩
  | ok q =>
      subst hl
      obtain ⟨htopic, hoffset, hadds⟩ := hentries
      have hafter : ∀ id p, (id, p) ∈ after.held → id < after.ledger.size := by
        rw [hheld, hledger]
        exact hs.held
      have hentered : appendEntry log topic index e =
          (.ack (after.acknowledge q).1, (after.acknowledge q).2) := by
        simp [appendEntry, happend]
      refine ⟨?_, htopic, hindex q rfl, hoffset, fun p => (hwritten p).trans (hadds p)⟩
      rw [hentered]
      exact ⟨q, e, rfl, Log.ackOf_acknowledge hafter q⟩

/-- A send lands, and its sender is told so; or it adds nothing, and its sender is told why. -/
theorem send_lands {log : Log} (hs : log.Sound) (w : Writer) (schema : Schema κ ν)
    (topic : String) (index : Option Nat) (key : κ) (value : Option ν) :
    Promises (w.send schema log topic index key value).2
        (w.landing? schema log topic index key value)
        (w.send schema log topic index key value).1 ∧
      Lands log (w.send schema log topic index key value).2 topic index
        (w.landing? schema log topic index key value) := by
  unfold send landing?
  split
  · exact ⟨⟨rfl, _, rfl⟩, fun _ => rfl⟩
  · cases encode schema topic key value with
    | error cause => exact ⟨⟨rfl, _, rfl⟩, fun _ => rfl⟩
    | ok e => exact appendEntry_lands hs topic index e rfl

end Writer

namespace Log

/-- A send and what has come of it. -/
structure Sent where
  writer : Nat
  topic : String
  index : Option Nat
  /-- What its sender waits for. -/
  wait : Wait
  /-- The position and the entry, if it has landed. -/
  landed : Option (Position × Entry)

/-- The entry of one send stands before that of another, if they have landed in one partition. -/
def Sent.Precedes (a b : Sent) : Prop :=
  ∀ q e r f, a.landed = some (q, e) → b.landed = some (r, f) → q.partition = r.partition →
    q.offset < r.offset

/-- A log with its writers and its readers. -/
structure Site where
  log : Log
  writers : Nat → Writer := fun _ => {}
  readers : Nat → Reader := fun _ => {}
  /-- All sends so far, in the order in which they were issued. -/
  sends : List Sent := []

namespace Site

section Moves

/-- What the users of a log can do.  Keys and values are of any types, with any codecs. -/
inductive Move : Type 1
  | createTopic (topic : String) (partitions : Nat)
  | failNext (cause : Rejection)
  | hold
  | release
  | abandon
  | send {κ ν : Type} (writer : Nat) (schema : Schema κ ν) (topic : String)
      (index : Option Nat) (key : κ) (value : Option ν)
  | closeWriter (writer : Nat)
  | assign (reader : Nat) (ps : List Partition)
  | seek (reader : Nat) (ps : List Partition)
  /-- A step of a poll that is anywhere in its course. -/
  | poll {κ ν : Type} (reader : Nat) (schema : Schema κ ν) (now : Nat) (p : Reader.Poll)
  | endOffsets (reader : Nat) (ps : List Partition)
  | wake (reader : Nat)
  | closeReader (reader : Nat)

/-- A new log; nobody has done anything yet. -/
def new (settings : Settings) : Site where
  log := { settings }

/-- One of the writers or readers replaced. -/
def replace {α : Type} (f : Nat → α) (i : Nat) (a : α) : Nat → α :=
  fun j => if j = i then a else f j

/-- The site after a move. -/
def perform (s : Site) : Move → Site
  | .createTopic topic partitions => { s with log := (s.log.createTopic topic partitions).2 }
  | .failNext cause => { s with log := s.log.failNext cause }
  | .hold => { s with log := s.log.hold }
  | .release => { s with log := s.log.release.2 }
  | .abandon => { s with log := s.log.abandon.2 }
  | .send i schema topic index key value =>
      let (wait, log) := (s.writers i).send schema s.log topic index key value
      let landed := (s.writers i).landing? schema s.log topic index key value
      { s with log, sends := s.sends ++ [⟨i, topic, index, wait, landed⟩] }
  | .closeWriter i => { s with writers := replace s.writers i { isClosed := true } }
  | .assign i ps => { s with readers := replace s.readers i ((s.readers i).assign ps).2 }
  | .seek i ps => { s with readers := replace s.readers i ((s.readers i).seekToBeginning ps).2 }
  | .poll i schema now p =>
      { s with readers := replace s.readers i ((s.readers i).stepPoll schema now s.log p).2 }
  | .endOffsets i ps =>
      { s with readers := replace s.readers i ((s.readers i).endOffsets s.log ps).2 }
  | .wake i => { s with readers := replace s.readers i (s.readers i).wake }
  | .closeReader i => { s with readers := replace s.readers i (s.readers i).close }

/-- The site after moves. -/
def run (s : Site) (moves : List Move) : Site :=
  moves.foldl perform s

/-- The move is a send. -/
def Move.isSend : Move → Bool
  | .send .. => true
  | _ => false

end Moves

section Steps

/-- What one move does to the log and to the account of the sends: a send is entered, and its entry
is added at the end of one partition if it lands; nothing else adds anything. -/
inductive StepsTo (m : Move) (s s' : Site) : Prop
  | still (other : m.isSend = false) (sends : s'.sends = s.sends)
      (log : s.log.AddsNothing s'.log)
  | rejected (send : m.isSend = true) (d : Sent) (sends : s'.sends = s.sends ++ [d])
      (landed : d.landed = none) (log : s.log.AddsNothing s'.log)
  | landed (send : m.isSend = true) (d : Sent) (q : Position) (e : Entry)
      (sends : s'.sends = s.sends ++ [d]) (landed : d.landed = some (q, e))
      (topic : q.topic = d.topic) (index : ∀ i, d.index = some i → q.index = i)
      (offset : q.offset = (s.log.written q.partition).length)
      (log : s.log.Adds s'.log q.partition e)

/-- What is promised to the senders. -/
def Promising (s : Site) : Prop :=
  ∀ d ∈ s.sends, Writer.Promises s.log d.landed d.wait

variable {s : Site}

/-- A move leaves the log, or does one operation on it. -/
theorem perform_log (s : Site) (m : Move) :
    (s.perform m).log = s.log ∨ ∃ op, (s.perform m).log = s.log.perform op := by
  cases m with
  | createTopic topic partitions => exact Or.inr ⟨.createTopic topic partitions, rfl⟩
  | failNext cause => exact Or.inr ⟨.failNext cause, rfl⟩
  | hold => exact Or.inr ⟨.hold, rfl⟩
  | release => exact Or.inr ⟨.release, rfl⟩
  | abandon => exact Or.inr ⟨.abandon, rfl⟩
  | send i schema topic index key value =>
      simp only [perform, Writer.send]
      split
      · exact Or.inl rfl
      · split
        · exact Or.inl rfl
        next e _ => exact Or.inr ⟨.append topic index e, rfl⟩
  | closeWriter i => exact Or.inl rfl
  | assign i ps => exact Or.inl rfl
  | seek i ps => exact Or.inl rfl
  | poll i schema now p => exact Or.inl rfl
  | endOffsets i ps => exact Or.inl rfl
  | wake i => exact Or.inl rfl
  | closeReader i => exact Or.inl rfl

theorem perform_sound (hs : s.log.Sound) (m : Move) : (s.perform m).log.Sound := by
  rcases perform_log s m with hsame | ⟨op, hop⟩
  · rw [hsame]
    exact hs
  · rw [hop]
    exact Log.perform_sound hs op

theorem perform_keepsCounts (s : Site) (m : Move) : s.log.KeepsCounts (s.perform m).log := by
  rcases perform_log s m with hsame | ⟨op, hop⟩
  · rw [hsame]
    exact .of_topics rfl
  · rw [hop]
    cases op with
    | createTopic topic partitions => exact createTopic_keepsCounts s.log topic partitions
    | append topic index e =>
        exact (append_keepsCounts s.log topic index e).trans
          (.of_topics (appendEntry_topics s.log topic index e).2)
    | failNext cause => exact .of_topics rfl
    | hold => exact .of_topics rfl
    | release => exact .of_topics rfl
    | abandon => exact .of_topics rfl

/-- A send enters what is promised to its sender, and adds its entry if it lands. -/
theorem perform_send (hs : s.log.Sound) {κ ν : Type} (i : Nat) (schema : Schema κ ν)
    (topic : String) (index : Option Nat) (key : κ) (value : Option ν) :
    StepsTo (.send i schema topic index key value) s
        (s.perform (.send i schema topic index key value)) ∧
      ∃ d, (s.perform (.send i schema topic index key value)).sends = s.sends ++ [d] ∧
        Writer.Promises (s.perform (.send i schema topic index key value)).log d.landed d.wait := by
  obtain ⟨hpromises, hlands⟩ := Writer.send_lands hs (s.writers i) schema topic index key value
  refine ⟨?_, _, rfl, hpromises⟩
  cases hlanded : (s.writers i).landing? schema s.log topic index key value with
  | none =>
      rw [hlanded] at hlands
      exact .rejected rfl _ rfl hlanded hlands
  | some l =>
      rw [hlanded] at hlands
      obtain ⟨htopic, hindex, hoffset, hadds⟩ := hlands
      exact .landed rfl _ l.1 l.2 rfl hlanded htopic hindex hoffset hadds

theorem perform_stepsTo (hs : s.log.Sound) (m : Move) : StepsTo m s (s.perform m) := by
  cases m with
  | send i schema topic index key value => exact (perform_send hs i schema topic index key value).1
  | createTopic topic partitions =>
      exact .still rfl rfl (createTopic_addsNothing s.log topic partitions)
  | failNext cause => exact .still rfl rfl fun _ => rfl
  | hold => exact .still rfl rfl fun _ => rfl
  | release => exact .still rfl rfl fun _ => rfl
  | abandon => exact .still rfl rfl fun _ => rfl
  | closeWriter i => exact .still rfl rfl fun _ => rfl
  | assign i ps => exact .still rfl rfl fun _ => rfl
  | seek i ps => exact .still rfl rfl fun _ => rfl
  | poll i schema now p => exact .still rfl rfl fun _ => rfl
  | endOffsets i ps => exact .still rfl rfl fun _ => rfl
  | wake i => exact .still rfl rfl fun _ => rfl
  | closeReader i => exact .still rfl rfl fun _ => rfl

theorem perform_promising (hs : s.log.Sound) (h : s.Promising) (m : Move) :
    (s.perform m).Promising := by
  have hkept : ∀ d ∈ s.sends, Writer.Promises (s.perform m).log d.landed d.wait := by
    intro d hd
    rcases perform_log s m with hsame | ⟨op, hop⟩
    · rw [hsame]
      exact h d hd
    · rw [hop]
      exact (h d hd).perform op
  intro d hd
  cases m with
  | send i schema topic index key value =>
      obtain ⟨-, last, hsends, hlast⟩ := perform_send hs i schema topic index key value
      rw [hsends, List.mem_append, List.mem_singleton] at hd
      rcases hd with hd | rfl
      · exact hkept d hd
      · exact hlast
  | createTopic topic partitions => exact hkept d hd
  | failNext cause => exact hkept d hd
  | hold => exact hkept d hd
  | release => exact hkept d hd
  | abandon => exact hkept d hd
  | closeWriter i => exact hkept d hd
  | assign i ps => exact hkept d hd
  | seek i ps => exact hkept d hd
  | poll i schema now p => exact hkept d hd
  | endOffsets i ps => exact hkept d hd
  | wake i => exact hkept d hd
  | closeReader i => exact hkept d hd

end Steps

section Accounts

/-- The appends that have landed in a partition, in the order in which they were issued. -/
def landings (s : Site) (p : Partition) : List (Position × Entry) :=
  s.sends.filterMap fun d => d.landed.filter fun l => l.1.partition = p

/-- The log as the account of the appends that have landed. -/
structure Accounts (s : Site) : Prop where
  /-- A partition holds the entries of the appends that landed there, and nothing else. -/
  written : ∀ p, s.log.written p = (s.landings p).map Prod.snd
  /-- Their offsets are 0, 1, 2 and so on, in the order in which they were issued. -/
  offsets : ∀ p, (s.landings p).map (fun l => l.1.offset) = List.range (s.log.written p).length
  /-- Each is where it was sent to, and its position designates its entry. -/
  designates : ∀ d ∈ s.sends, ∀ q e, d.landed = some (q, e) →
    q.topic = d.topic ∧ (∀ i, d.index = some i → q.index = i) ∧
      (s.log.written q.partition)[q.offset]? = some e
  /-- What was issued earlier stands before what was issued later, whoever issued it. -/
  ordered : s.sends.Pairwise Sent.Precedes
  /-- An acknowledgment tells the position of the entry; what has not landed has failed. -/
  outcomes : ∀ d ∈ s.sends, Writer.Told (s.log.outcome d.wait) d.landed

variable {s s' : Site} {m : Move}

theorem landings_append {d : Sent} (h : s'.sends = s.sends ++ [d]) (p : Partition) :
    s'.landings p = s.landings p ++ (d.landed.filter fun l => l.1.partition = p).toList := by
  rw [landings, h, List.filterMap_append, List.filterMap_cons]
  cases d.landed.filter fun l => l.1.partition = p <;> rfl

theorem StepsTo.written (h : StepsTo m s s')
    (hw : ∀ p, s.log.written p = (s.landings p).map Prod.snd)
    (p : Partition) : s'.log.written p = (s'.landings p).map Prod.snd := by
  cases h with
  | still hother hsends hlog =>
      rw [hlog p, hw p, landings, landings, hsends]
  | rejected hsend d hsends hlanded hlog =>
      rw [hlog p, hw p, landings_append hsends, hlanded]
      simp
  | landed hsend d q e hsends hlanded htopic hindex hoffset hlog =>
      rw [hlog p, hw p, landings_append hsends, hlanded]
      by_cases hp : q.partition = p
      · simp [hp, Option.filter]
      · rw [if_neg fun h => hp h.symm]
        simp [hp, Option.filter]

theorem StepsTo.offsets (h : StepsTo m s s')
    (ho : ∀ p, (s.landings p).map (fun l => l.1.offset) = List.range (s.log.written p).length)
    (p : Partition) :
    (s'.landings p).map (fun l => l.1.offset) = List.range (s'.log.written p).length := by
  cases h with
  | still hother hsends hlog =>
      rw [hlog p, ← ho p, landings, landings, hsends]
  | rejected hsend d hsends hlanded hlog =>
      rw [hlog p, ← ho p, landings_append hsends, hlanded]
      simp
  | landed hsend d q e hsends hlanded htopic hindex hoffset hlog =>
      rw [hlog p, landings_append hsends, hlanded, List.map_append, ho p]
      by_cases hp : q.partition = p
      · subst hp
        simp [hoffset, List.range_succ, Option.filter]
      · rw [if_neg fun h => hp h.symm]
        simp [hp, Option.filter]

/-- A move leaves the entries that are there where they are. -/
theorem StepsTo.prefix_written (h : StepsTo m s s') (p : Partition) :
    s.log.written p <+: s'.log.written p := by
  cases h with
  | still hother hsends hlog => exact hlog p ▸ List.prefix_refl _
  | rejected hsend d hsends hlanded hlog => exact hlog p ▸ List.prefix_refl _
  | landed hsend d q e hsends hlanded htopic hindex hoffset hlog =>
      rw [hlog p]
      split
      · exact List.prefix_append _ _
      · exact List.prefix_refl _

theorem StepsTo.designates (h : StepsTo m s s')
    (hd : ∀ d ∈ s.sends, ∀ q e, d.landed = some (q, e) →
      q.topic = d.topic ∧ (∀ i, d.index = some i → q.index = i) ∧
        (s.log.written q.partition)[q.offset]? = some e) :
    ∀ d ∈ s'.sends, ∀ q e, d.landed = some (q, e) →
      q.topic = d.topic ∧ (∀ i, d.index = some i → q.index = i) ∧
        (s'.log.written q.partition)[q.offset]? = some e := by
  have hkept : ∀ d ∈ s.sends, ∀ q e, d.landed = some (q, e) →
      q.topic = d.topic ∧ (∀ i, d.index = some i → q.index = i) ∧
        (s'.log.written q.partition)[q.offset]? = some e := by
    intro d hmem q e hlanded
    obtain ⟨htopic, hindex, hget⟩ := hd d hmem q e hlanded
    obtain ⟨more, hmore⟩ := h.prefix_written q.partition
    refine ⟨htopic, hindex, ?_⟩
    rw [← hmore, List.getElem?_append_left (List.getElem?_eq_some_iff.1 hget).1]
    exact hget
  intro d hmem q e hlanded
  cases h with
  | still hother hsends hlog => exact hkept d (hsends ▸ hmem) q e hlanded
  | rejected hsend d' hsends hlanded' hlog =>
      rw [hsends, List.mem_append, List.mem_singleton] at hmem
      rcases hmem with hmem | rfl
      · exact hkept d hmem q e hlanded
      · rw [hlanded'] at hlanded
        cases hlanded
  | landed hsend d' q' e' hsends hlanded' htopic hindex hoffset hlog =>
      rw [hsends, List.mem_append, List.mem_singleton] at hmem
      rcases hmem with hmem | rfl
      · exact hkept d hmem q e hlanded
      · rw [hlanded'] at hlanded
        cases hlanded
        refine ⟨htopic, hindex, ?_⟩
        rw [hlog q.partition, if_pos rfl, hoffset]
        simp

theorem StepsTo.ordered (h : StepsTo m s s') (ho : s.sends.Pairwise Sent.Precedes)
    (hd : ∀ d ∈ s.sends, ∀ q e, d.landed = some (q, e) →
      q.topic = d.topic ∧ (∀ i, d.index = some i → q.index = i) ∧
        (s.log.written q.partition)[q.offset]? = some e) : s'.sends.Pairwise Sent.Precedes := by
  cases h with
  | still hother hsends hlog =>
      rw [hsends]
      exact ho
  | rejected hsend d hsends hlanded hlog =>
      rw [hsends, List.pairwise_append]
      refine ⟨ho, List.pairwise_singleton _ _, fun a _ b hb q e r f _ hr => ?_⟩
      rw [List.mem_singleton.1 hb, hlanded] at hr
      cases hr
  | landed hsend d q e hsends hlanded htopic hindex hoffset hlog =>
      rw [hsends, List.pairwise_append]
      refine ⟨ho, List.pairwise_singleton _ _, fun a ha b hb p f r g hp hr hsame => ?_⟩
      rw [List.mem_singleton.1 hb, hlanded] at hr
      cases hr
      -- the earlier entry is already there, the later one comes behind all that is there
      obtain ⟨-, -, hget⟩ := hd a ha p f hp
      have hlt := (List.getElem?_eq_some_iff.1 hget).1
      rw [hsame] at hlt
      omega

/-- What is kept along the moves. -/
structure Kept (s : Site) : Prop where
  sound : s.log.Sound
  promising : s.Promising
  written : ∀ p, s.log.written p = (s.landings p).map Prod.snd
  offsets : ∀ p, (s.landings p).map (fun l => l.1.offset) = List.range (s.log.written p).length
  designates : ∀ d ∈ s.sends, ∀ q e, d.landed = some (q, e) →
    q.topic = d.topic ∧ (∀ i, d.index = some i → q.index = i) ∧
      (s.log.written q.partition)[q.offset]? = some e
  ordered : s.sends.Pairwise Sent.Precedes

theorem Kept.perform (h : s.Kept) (m : Move) : (s.perform m).Kept := by
  have hstep := perform_stepsTo h.sound m
  exact ⟨perform_sound h.sound m, perform_promising h.sound h.promising m,
    hstep.written h.written, hstep.offsets h.offsets, hstep.designates h.designates,
    hstep.ordered h.ordered h.designates⟩

theorem Kept.run (h : s.Kept) (moves : List Move) : (s.run moves).Kept := by
  induction moves generalizing s with
  | nil => exact h
  | cons m moves ih => exact ih (h.perform m)

theorem kept_new (settings : Settings) : (new settings).Kept := by
  refine ⟨sound_new settings, fun d hd => ?_, fun p => ?_, fun p => ?_, fun d hd => ?_,
    List.Pairwise.nil⟩
  · cases hd
  · simp [new, Log.written, Log.entries, landings]
  · simp [new, Log.written, Log.entries, landings]
  · cases hd

theorem Kept.accounts (h : s.Kept) : s.Accounts :=
  ⟨h.written, h.offsets, h.designates, h.ordered, fun d hd => (h.promising d hd).told⟩

/-- The later site goes on where the earlier one was: entries and sends have only been added at the
end, and topics have the partitions that they had. -/
structure Extends (s s' : Site) : Prop where
  entries : ∀ p, s.log.written p <+: s'.log.written p
  sends : s.sends <+: s'.sends
  counts : s.log.KeepsCounts s'.log

theorem Extends.refl (s : Site) : s.Extends s :=
  ⟨fun _ => List.prefix_refl _, List.prefix_refl _, .of_topics rfl⟩

theorem Extends.trans {s'' : Site} (h : s.Extends s') (h' : s'.Extends s'') : s.Extends s'' :=
  ⟨fun p => (h.entries p).trans (h'.entries p), h.sends.trans h'.sends, h.counts.trans h'.counts⟩

theorem perform_extends (hs : s.log.Sound) (m : Move) : s.Extends (s.perform m) := by
  have hstep := perform_stepsTo hs m
  refine ⟨hstep.prefix_written, ?_, perform_keepsCounts s m⟩
  cases hstep with
  | still hother hsends hlog => exact hsends ▸ List.prefix_refl _
  | rejected hsend d hsends hlanded hlog =>
      rw [hsends]
      exact List.prefix_append _ _
  | landed hsend d q e hsends hlanded htopic hindex hoffset hlog =>
      rw [hsends]
      exact List.prefix_append _ _

theorem run_extends (h : s.Kept) (moves : List Move) : s.Extends (s.run moves) := by
  induction moves generalizing s with
  | nil => exact .refl s
  | cons m moves ih => exact (perform_extends h.sound m).trans (ih (h.perform m))

end Accounts

section Histories

/-- Whatever is done to a log by whomever, it is the account of the appends that have landed; the
next step adds one entry for a send that lands and none otherwise; what is there now is there ever
after, each topic with its partitions; and every reader shows a part of it. -/
theorem run_keeps_order (settings : Settings) (moves : List Move) :
    ((new settings).run moves).Accounts ∧
      (∀ m, StepsTo m ((new settings).run moves) ((new settings).run (moves ++ [m]))) ∧
      (∀ later, ((new settings).run moves).Extends ((new settings).run (moves ++ later))) ∧
      ∀ (κ ν : Type) (schema : Schema κ ν) (reader now : Nat) (p : Reader.Poll) (b : Batch κ ν),
        ((((new settings).run moves).readers reader).stepPoll schema now
            ((new settings).run moves).log p).1 = .done (.ok b) →
          Reader.Shows schema ((new settings).run moves).log b := by
  have hkept : ((new settings).run moves).Kept := (kept_new settings).run moves
  refine ⟨hkept.accounts, fun m => ?_, fun later => ?_,
    fun κ ν schema reader now p b => Reader.stepPoll_shows⟩
  · rw [run, run, List.foldl_append]
    exact perform_stepsTo hkept.sound m
  · rw [run, run, List.foldl_append]
    exact run_extends hkept later

/-- Two writers, one of texts and one of texts in hexadecimal, with a rejection in between and an
acknowledgment that is held back. -/
def sampleMoves : List Move :=
  let codes : Schema String String := ⟨Codec.hexadecimal, Codec.hexadecimal⟩
  [.createTopic "jobs" 2, .send 0 .texts "jobs" (some 1) "a" (some "b"),
    .failNext ⟨"Timeout", "no answer", false⟩, .send 1 codes "jobs" (some 1) "61" none, .hold,
    .send 1 codes "jobs" (some 1) "61" none, .createTopic "jobs" 5,
    .send 0 .texts "jobs" (some 4) "a" none]

/-- In the sample the partition has the entries of the two sends that land, in their order. -/
theorem run_keeps_order_sample :
    ((new {}).run sampleMoves).Accounts ∧
      ((new {}).run sampleMoves).log.written ⟨"jobs", 1⟩ =
        [⟨[97], some [98]⟩, ⟨[97], none⟩] ∧
      ((new {}).run sampleMoves).log.partitionCount "jobs" = some 2 :=
  ⟨(run_keeps_order {} sampleMoves).1, rfl, rfl⟩

end Histories

end Site

end Log
end ReplicatedLog
