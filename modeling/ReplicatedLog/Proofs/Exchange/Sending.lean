import ReplicatedLog.Channel.Basic
import ReplicatedLog.Proofs.Log.Growth

/-!
# A send, one access at a time

A send looks at its channel, notes how often it was interrupted, and issues its
append: a rejection is taken off the line or the topic is made, the entry is
added, the append counted, the acknowledgment entered.  Then it waits.

* `Sending` is a send in the midst of it, and `Sending.step` is its next access;
* `alone_send`: when nothing happens in between, the accesses come to a send of the
  writer;
* `Errand` is what is left to do of a wakeup, an interruption, a closing, or a
  release of the acknowledgments that are held, once its first access is over;
* `SendView.Holds`: what a send knows of its acknowledgment, which is still held or
  about to be settled, and of the interruptions; `Holds.keeps`: this outlasts what
  other tasks do.
-/

namespace ReplicatedLog

namespace Log

/-- Adds an entry at the end of a partition; the append is not counted yet. -/
def place (log : Log) (topic : String) (index : Option Nat) (e : Entry) :
    Except Rejection Position × Log :=
  let partitions := (log.topics.get? topic).getD []
  let index := index.getD (partitionOfKey e.key partitions.length)
  match partitions[index]? with
  | none => (.error (Rejection.notHosted ⟨topic, index⟩), log)
  | some es =>
      (.ok ⟨topic, index, es.length⟩,
        { log with topics := log.topics.insert topic (addEntry e index partitions) })

/-- Counts an append. -/
def announce (log : Log) : Log :=
  { log with appends := log.appends + 1 }

/-- The log after someone has taken what is held. -/
def takeHeld (log : Log) : Log :=
  { log with held := [] }

/-- What becomes of an acknowledgment that is resolved with a position, or dropped without. -/
def settled : Option Position → Ack
  | some q => .resolved (.ok q)
  | none => .dropped

/-- Settles one acknowledgment. -/
def settle (log : Log) (id : AckId) (q : Option Position) : Log :=
  { log with ledger := log.ledger.modify id fun _ => settled q }

/-- An append is what its accesses come to. -/
theorem append_eq (log : Log) (topic : String) (index : Option Nat) (e : Entry) :
    log.append topic index e =
      match log.failures with
      | cause :: later => (.error cause, { log with failures := later })
      | [] =>
          match (log.ensureTopic topic).place topic index e with
          | (.error cause, log) => (.error cause, log)
          | (.ok q, log) => (.ok q, log.announce) := by
  unfold append place
  cases log.failures with
  | cons cause later => rfl
  | nil =>
      dsimp only
      generalize ((log.ensureTopic topic).topics.get? topic).getD [] = partitions
      cases partitions[index.getD (partitionOfKey e.key partitions.length)]? <;> rfl

/-- Nothing has happened to a log but to its topics and the rejections. -/
structure Frames (before after : Log) : Prop where
  settings : after.settings = before.settings
  appends : after.appends = before.appends
  held : after.held = before.held
  ledger : after.ledger = before.ledger

theorem Frames.refl (log : Log) : log.Frames log :=
  ⟨rfl, rfl, rfl, rfl⟩

theorem createTopic_frames (log : Log) (name : String) (n : Nat) :
    log.Frames (log.createTopic name n).2 := by
  unfold createTopic
  split <;> exact ⟨rfl, rfl, rfl, rfl⟩

theorem place_frames (log : Log) (topic : String) (index : Option Nat) (e : Entry) :
    log.Frames (log.place topic index e).2 := by
  unfold place
  dsimp only
  split <;> exact ⟨rfl, rfl, rfl, rfl⟩

/-- Entering an acknowledgment adds no entry and counts no append. -/
theorem acknowledge_still (log : Log) (q : Position) :
    log.AddsNothing (log.acknowledge q).2 ∧ (log.acknowledge q).2.appends = log.appends := by
  unfold acknowledge
  dsimp only
  split <;> exact ⟨fun _ => rfl, rfl⟩

theorem place_error {log log' : Log} {topic : String} {index : Option Nat} {e : Entry}
    {cause : Rejection} (h : log.place topic index e = (.error cause, log')) : log' = log := by
  unfold place at h
  dsimp only at h
  split at h
  · cases h
    rfl
  · cases h

end Log

/-- The sending side of a channel, or a writer on its own. -/
structure Outlet where
  writer : Writer := {}
  /-- The reader of the channel. -/
  reader : Nat := 0
  isShutDown : Bool := false
  interrupts : Nat := 0

/-- What is to be sent, and where. -/
structure Outgoing (κ ν : Type) where
  topic : String
  index : Option Nat
  key : κ
  value : Option ν

/-- A send in the midst of it; from `noted` on it has noted the interruptions of its channel. -/
inductive Sending
  /-- Nothing has been looked at yet. -/
  | entered
  /-- The channel was not shut down. -/
  | opened
  | noted (interrupts : Nat)
  /-- The record is encoded. -/
  | failing (interrupts : Nat) (e : Entry)
  /-- No rejection was lined up. -/
  | placing (interrupts : Nat) (e : Entry)
  /-- The topic is there. -/
  | writing (interrupts : Nat) (e : Entry)
  /-- The entry is added. -/
  | announcing (interrupts : Nat) (q : Position)
  /-- The append is counted. -/
  | acknowledging (interrupts : Nat) (q : Position)
  | sent (interrupts : Nat) (w : Log.Wait)

/-- What comes of a send. -/
inductive Sending.Result
  | closed
  | interrupted
  | told (outcome : Outcome)

namespace Sending

variable {κ ν : Type}

/-- What one access leaves. -/
abbrev Stepped := Progress Sending Result × Log

section Steps

/-- The next access of a send. -/
def step (schema : Schema κ ν) (out : Outgoing κ ν) (o : Outlet) (log : Log) : Sending → Stepped
  | .entered => if o.isShutDown then (.done .closed, log) else (.waiting .opened, log)
  | .opened => (.waiting (.noted o.interrupts), log)
  | .noted n =>
      if o.writer.isClosed then
        (.waiting (.sent n (.known (.error (.failed Writer.closedRejection)))), log)
      else
        match Writer.encode schema out.topic out.key out.value with
        | .error cause => (.waiting (.sent n (.known (.error (.failed cause)))), log)
        | .ok e => (.waiting (.failing n e), log)
  | .failing n e =>
      match log.failures with
      | cause :: later =>
          (.waiting (.sent n (.known (.error (.failed cause)))), { log with failures := later })
      | [] => (.waiting (.placing n e), log)
  | .placing n e => (.waiting (.writing n e), log.ensureTopic out.topic)
  | .writing n e =>
      match log.place out.topic out.index e with
      | (.error cause, log) => (.waiting (.sent n (.known (.error (.failed cause)))), log)
      | (.ok q, log) => (.waiting (.announcing n q), log)
  | .announcing n q => (.waiting (.acknowledging n q), log.announce)
  | .acknowledging n q =>
      (.waiting (.sent n (.ack (log.acknowledge q).1)), (log.acknowledge q).2)
  | .sent n w =>
      match log.outcome w with
      | some outcome => (.done (.told outcome), log)
      | none => if o.interrupts ≠ n then (.done .interrupted, log) else (.waiting (.sent n w), log)

/-- Whether a send can go on: at the end it waits for the outcome or an interruption. -/
def ready (o : Outlet) (log : Log) : Sending → Bool
  | .sent n w => (log.outcome w).isSome || o.interrupts ≠ n
  | _ => true

/-- The interruptions that a send has noted. -/
def noted? : Sending → Option Nat
  | .entered | .opened => none
  | .noted n | .failing n _ | .placing n _ | .writing n _ => some n
  | .announcing n _ | .acknowledging n _ | .sent n _ => some n

/-- The entry is added and the append has yet to be counted. -/
def announces : Sending → Bool
  | .announcing _ _ => true
  | _ => false

end Steps

section Alone

variable {schema : Schema κ ν} {out : Outgoing κ ν} {o : Outlet} {log : Log} {n : Nat}

/-- The accesses of one send lead from one point to another when nothing happens in between. -/
inductive Alone (schema : Schema κ ν) (out : Outgoing κ ν) (o : Outlet) : Stepped → Stepped → Prop
  | refl (s : Stepped) : Alone schema out o s s
  | step {p : Sending} {log : Log} {s : Stepped}
      (h : Alone schema out o (Sending.step schema out o log p) s) :
      Alone schema out o (.waiting p, log) s

theorem alone_appendEntry (e : Entry) :
    Alone schema out o (.waiting (.failing n e), log)
      (.waiting (.sent n (Writer.appendEntry log out.topic out.index e).1),
        (Writer.appendEntry log out.topic out.index e).2) := by
  refine .step ?_
  unfold Writer.appendEntry
  rw [Log.append_eq]
  cases hf : log.failures with
  | cons cause later =>
      simp only [step, hf]
      exact .refl _
  | nil =>
      simp only [step, hf]
      refine .step (.step ?_)
      simp only [step]
      rcases (log.ensureTopic out.topic).place out.topic out.index e with ⟨cause | q, placed⟩
      · exact .refl _
      · exact .step (.step (.refl _))

/-- When nothing happens in between, the accesses of a send come to what its writer does. -/
theorem alone_send :
    Alone schema out o (.waiting (.noted n), log)
      (.waiting (.sent n (o.writer.send schema log out.topic out.index out.key out.value).1),
        (o.writer.send schema log out.topic out.index out.key out.value).2) := by
  refine .step ?_
  unfold Writer.send
  by_cases hclosed : o.writer.isClosed
  · simp only [step, if_pos hclosed]
    exact .refl _
  · simp only [step, if_neg hclosed]
    cases Writer.encode schema out.topic out.key out.value with
    | error cause => exact .refl _
    | ok e => exact alone_appendEntry e

end Alone

end Sending

/-- What is left to do when the first access of an operation is over. -/
inductive Errand
  /-- To call on the polls of a reader. -/
  | call (reader : Nat)
  /-- To call on the sends of a channel. -/
  | signal (outlet : Nat)
  /-- To resolve an acknowledgment with a position, or to drop it. -/
  | settle (id : AckId) (q : Option Position)
  /-- To take the wakeup of a reader. -/
  | takeWakeup (reader : Nat)

namespace Log

/-- What is left to do when someone has taken what is held in order to resolve or to drop it. -/
def settlings (log : Log) (resolves : Bool) : List Errand :=
  log.held.map fun h => .settle h.1 (if resolves then some h.2 else none)

/-- The log after an errand. -/
def runErrand (log : Log) : Errand → Log
  | .settle id q => log.settle id q
  | _ => log

theorem foldl_runErrand (become : Position → Option Position) (held : List (AckId × Position)) :
    ∀ log : Log, (held.map fun h => Errand.settle h.1 (become h.2)).foldl runErrand log =
      { log with ledger :=
          held.foldl (fun l h => l.modify h.1 fun _ => settled (become h.2)) log.ledger } := by
  induction held with
  | nil => exact fun log => rfl
  | cons h held ih =>
      intro log
      rw [List.map_cons, List.foldl_cons, ih]
      rfl

/-- When nothing happens in between, what is done to release comes to a release. -/
theorem release_eq (log : Log) :
    (log.settlings true).foldl runErrand { log.takeHeld with isHolding := false } =
      log.release.2 :=
  foldl_runErrand some log.held _

/-- When nothing happens in between, what is done to abandon comes to it. -/
theorem abandon_eq (log : Log) :
    (log.settlings false).foldl runErrand log.takeHeld = log.abandon.2 :=
  foldl_runErrand (fun _ => none) log.held _

end Log

/-- What is around the sends of one channel. -/
structure SendView where
  log : Log
  interrupts : Nat
  /-- Someone is about to settle an acknowledgment. -/
  settling : AckId → Prop
  /-- Someone is about to call on the sends. -/
  signalling : Prop

namespace SendView

variable {v v' : SendView}

/-- An acknowledgment is entered, and as long as it is outstanding it is held or about to be
settled. -/
def Awaits (v : SendView) (id : AckId) : Prop :=
  id < v.log.ledger.size ∧
    (v.log.ledger[id]? = some .outstanding → (∃ q, (id, q) ∈ v.log.held) ∨ v.settling id)

/-- What a send may count on. -/
structure Holds (v : SendView) (p : Sending) : Prop where
  noted : ∀ n, p.noted? = some n → n ≤ v.interrupts
  awaits : ∀ n id, p = .sent n (.ack id) → v.Awaits id

/-- What the others leave as it is for a send. -/
structure Keeps (v v' : SendView) : Prop where
  interrupts : v.interrupts ≤ v'.interrupts
  signalled : v.signalling → v.interrupts < v'.interrupts ∨ v'.signalling
  size : v.log.ledger.size ≤ v'.log.ledger.size
  outstanding : ∀ id < v.log.ledger.size, v'.log.ledger[id]? = some .outstanding →
    v.log.ledger[id]? = some .outstanding ∧ (v.settling id → v'.settling id) ∧
      ∀ q, (id, q) ∈ v.log.held → (id, q) ∈ v'.log.held ∨ v'.settling id

/-- A send that has noted so many interruptions is told of another one, or is about to be. -/
def Tells (v : SendView) (n : Nat) : Prop :=
  n < v.interrupts ∨ v.signalling

theorem Tells.keeps {n : Nat} (ht : v.Tells n) (hn : n ≤ v.interrupts) (h : v.Keeps v') :
    v'.Tells n := by
  rcases ht with ht | ht
  · exact Or.inl (Nat.lt_of_lt_of_le ht h.interrupts)
  · exact (h.signalled ht).imp_left (Nat.lt_of_le_of_lt hn)

/-- What a send may count on outlasts what the others do. -/
theorem Holds.keeps {p : Sending} (hp : v.Holds p) (h : v.Keeps v') : v'.Holds p := by
  refine ⟨fun n hn => Nat.le_trans (hp.noted n hn) h.interrupts, fun n id hw => ?_⟩
  obtain ⟨hid, hawaits⟩ := hp.awaits n id hw
  refine ⟨Nat.lt_of_lt_of_le hid h.size, fun hout => ?_⟩
  obtain ⟨hbefore, hsettling, hheld⟩ := h.outstanding id hid hout
  rcases hawaits hbefore with ⟨q, hq⟩ | hs
  · exact (hheld q hq).imp (fun hq => ⟨q, hq⟩) fun hs => hs
  · exact Or.inr (hsettling hs)

/-- More is about to be settled. -/
theorem Keeps.pending {w : SendView} (h : v.Keeps w) (hl : v'.log = w.log)
    (hi : v'.interrupts = w.interrupts) (hs : ∀ id, w.settling id → v'.settling id)
    (hg : w.signalling → v'.signalling) : v.Keeps v' := by
  obtain ⟨log, interrupts, settling, signalling⟩ := v'
  subst hl hi
  refine ⟨h.interrupts, fun hv => (h.signalled hv).imp_right hg, h.size, fun id hid hout => ?_⟩
  obtain ⟨hbefore, hsettling, hheld⟩ := h.outstanding id hid hout
  exact ⟨hbefore, fun hv => hs id (hsettling hv), fun q hq => (hheld q hq).imp_right (hs id)⟩

/-- The ledger and what is held are as they were. -/
theorem Keeps.of_ledger {log' : Log} (hl : log'.ledger = v.log.ledger)
    (hh : log'.held = v.log.held) : v.Keeps { v with log := log' } := by
  refine ⟨Nat.le_refl _, Or.inr, ?_, ?_⟩
  · exact Nat.le_of_eq (congrArg Array.size hl.symm)
  · intro id _ hout
    rw [hl] at hout
    refine ⟨hout, fun hs => hs, fun q hq => Or.inl ?_⟩
    rw [hh]
    exact hq

/-- An acknowledgment is settled: no other one is settled by that. -/
theorem Keeps.settle (id : AckId) (q : Option Position) {settling : AckId → Prop}
    (hs : ∀ id' ≠ id, v.settling id' → settling id') :
    v.Keeps { v with log := v.log.settle id q, settling } := by
  refine ⟨Nat.le_refl _, Or.inr, Nat.le_of_eq (Array.size_modify ..).symm, fun id' hid hout => ?_⟩
  have hget : (v.log.ledger.modify id fun _ => Log.settled q)[id']? = some .outstanding := hout
  rw [Array.getElem?_modify] at hget
  by_cases hsame : id = id'
  · subst hsame
    rw [if_pos rfl, Array.getElem?_eq_getElem hid] at hget
    cases q <;> cases hget
  · rw [if_neg hsame] at hget
    exact ⟨hget, hs id' (Ne.symm hsame), fun q hq => Or.inl hq⟩

/-- One more acknowledgment is entered. -/
theorem Keeps.acknowledge (q : Position) :
    v.Keeps { v with log := (v.log.acknowledge q).2 } := by
  have hentered : ∀ a, ∀ id < v.log.ledger.size,
      (v.log.ledger.push a)[id]? = some Ack.outstanding →
        v.log.ledger[id]? = some .outstanding := by
    intro a id hid hout
    rwa [Array.getElem?_push_lt hid, ← Array.getElem?_eq_getElem hid] at hout
  refine ⟨Nat.le_refl _, Or.inr, ?_, ?_⟩
  · unfold Log.acknowledge
    split <;> simp
  · intro id hid hout
    unfold Log.acknowledge at hout ⊢
    split at hout
    next hholding =>
      rw [if_pos hholding]
      exact ⟨hentered _ id hid hout, fun h => h, fun r hr => Or.inl (List.mem_append_left _ hr)⟩
    next hholding =>
      rw [if_neg hholding]
      exact ⟨hentered _ id hid hout, fun h => h, fun r hr => Or.inl hr⟩

/-- The acknowledgment that has just been entered is held if it is outstanding. -/
theorem awaits_acknowledge (q : Position) :
    { v with log := (v.log.acknowledge q).2 }.Awaits (v.log.acknowledge q).1 := by
  unfold Log.acknowledge
  split
  · exact ⟨by simp, fun _ => Or.inl ⟨q, by simp⟩⟩
  · refine ⟨by simp, fun hout => ?_⟩
    simp at hout

end SendView

namespace Sending

variable {κ ν : Type} {schema : Schema κ ν} {out : Outgoing κ ν} {o : Outlet} {v : SendView}
  {p : Sending}

/-- The send that an access leaves has added its entry and has yet to count its append. -/
def announcesNext : Progress Sending Result → Bool
  | .waiting p => p.announces
  | .done _ => false

/-- What an access of a send does to the log: it adds no entry, adds one, counts an append, or
enters an acknowledgment. -/
inductive Touches (log : Log) (before after : Bool) : Log → Prop
  | still {log' : Log} (frames : log.Frames log') (adds : log.AddsNothing log')
      (counted : before = false) : Touches log before after log'
  | adds {log' : Log} (frames : log.Frames log') (next : after = true) (counted : before = false) :
      Touches log before after log'
  | counts (counted : before = true) : Touches log before after log.announce
  | enters (q : Position) (counted : before = false) :
      Touches log before after (log.acknowledge q).2

theorem step_touches (schema : Schema κ ν) (out : Outgoing κ ν) (o : Outlet) (log : Log)
    (p : Sending) :
    Touches log p.announces (announcesNext (step schema out o log p).1)
      (step schema out o log p).2 := by
  have hsame : ∀ {before after : Bool}, before = false → Touches log before after log :=
    fun h => .still (.refl log) (fun _ => rfl) h
  cases p with
  | entered =>
      simp only [step]
      split <;> exact hsame rfl
  | opened => exact hsame rfl
  | noted n =>
      simp only [step]
      split
      · exact hsame rfl
      · split <;> exact hsame rfl
  | failing n e =>
      simp only [step]
      split
      · exact .still ⟨rfl, rfl, rfl, rfl⟩ (fun _ => rfl) rfl
      · exact hsame rfl
  | placing n e =>
      exact .still (log.createTopic_frames _ _) (Log.createTopic_addsNothing log _ _) rfl
  | writing n e =>
      have hframes := log.place_frames out.topic out.index e
      simp only [step]
      split
      next cause log' h =>
        rw [Log.place_error h]
        exact hsame rfl
      next q log' h =>
        rw [h] at hframes
        exact .adds hframes rfl rfl
  | announcing n q => exact .counts rfl
  | acknowledging n q => exact .enters q rfl
  | sent n w =>
      simp only [step]
      split
      · exact hsame rfl
      · split <;> exact hsame rfl

variable {before after : Bool} {log' : Log}

theorem Touches.settings {log : Log} (h : Touches log before after log') :
    log'.settings = log.settings := by
  cases h with
  | still frames adds counted => exact frames.settings
  | adds frames next counted => exact frames.settings
  | counts counted => rfl
  | enters q counted => exact (Log.acknowledge_frame log q).1

/-- An access of a send leaves to all sends what they count on. -/
theorem Touches.keeps (h : Touches v.log before after log') : v.Keeps { v with log := log' } := by
  cases h with
  | still frames adds counted => exact .of_ledger frames.ledger frames.held
  | adds frames next counted => exact .of_ledger frames.ledger frames.held
  | counts counted => exact .of_ledger rfl rfl
  | enters q counted => exact .acknowledge q

/-- What an access of a send has noted, and which acknowledgment it goes on to wait for. -/
theorem step_next {log : Log} {p' : Sending} (h : (step schema out o log p).1 = .waiting p') :
    (p'.noted? = p.noted? ∨ p.noted? = none ∧ p'.noted? = some o.interrupts) ∧
      ∀ n id, p' = .sent n (.ack id) →
        p = p' ∨ ∃ q, p = .acknowledging n q ∧ id = (log.acknowledge q).1 := by
  cases p with
  | entered =>
      simp only [step] at h
      split at h <;> cases h
      simp [noted?]
  | opened =>
      cases h
      simp [noted?, eq_comm]
  | noted n =>
      simp only [step] at h
      split at h
      · cases h
        simp [noted?]
      · split at h <;> cases h <;> simp [noted?]
  | failing n e =>
      simp only [step] at h
      split at h <;> cases h <;> simp [noted?]
  | placing n e =>
      cases h
      simp [noted?]
  | writing n e =>
      simp only [step] at h
      split at h <;> cases h <;> simp [noted?]
  | announcing n q =>
      cases h
      simp [noted?]
  | acknowledging n q =>
      cases h
      simp [noted?, eq_comm]
  | sent n w =>
      simp only [step] at h
      split at h
      · cases h
      · split at h <;> cases h
        exact ⟨Or.inl rfl, fun n id hw => Or.inl rfl⟩

/-- An access of a send leaves a send that may count on as much. -/
theorem holds_step (hp : v.Holds p) (ho : v.interrupts = o.interrupts) {p' : Sending}
    (h : (step schema out o v.log p).1 = .waiting p') :
    { v with log := (step schema out o v.log p).2 }.Holds p' := by
  have hkept := hp.keeps (step_touches schema out o v.log p).keeps
  obtain ⟨hnoted, hacks⟩ := step_next h
  refine ⟨fun n hn => ?_, fun n id hw => ?_⟩
  · rcases hnoted with hsame | ⟨-, hnow⟩
    · exact hkept.noted n (hsame ▸ hn)
    · rw [hnow, Option.some.injEq] at hn
      exact Nat.le_of_eq (hn ▸ ho.symm)
  · rcases hacks n id hw with rfl | ⟨q, rfl, rfl⟩
    · exact hkept.awaits n id hw
    · exact SendView.awaits_acknowledge q

end Sending
end ReplicatedLog
