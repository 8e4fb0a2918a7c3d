import ReplicatedLog.Proofs.Channel.Shared
import ReplicatedLog.Proofs.Log.Settling

/-!
# Many senders on one log

Writers of any kind and channels with handles of their own send to one log, while acknowledgments
are held back, released and abandoned, channels are interrupted, and those who wait are given up.

* `Dispatch` is the log with all who wait for an acknowledgment, an account of the sends, and of
  what has been told to whom; `Dispatch.run` makes any moves in their order, and a move that cannot
  be made changes nothing;
* `perform_sendOn` and `perform_resume`: what the moves of a send do;
* `Shift`: what a move may do to the log and to the account of the sends.

A send takes note of the interruptions, issues its append and is given the number of its
acknowledgment in one move, after which it waits.  `Exchange` takes it apart into its accesses to
the channel and the log.
-/

namespace ReplicatedLog

open Channel

/-- A channel with its own handles on a log that it shares with others. -/
structure Wire where
  schema : CommandSchema
  reader : Reader := {}
  writer : Writer := {}
  channel : Channel

namespace Wire

/-- The channel on its log. -/
def endpoint (w : Wire) (log : Log) : Endpoint SharedLog where
  client := { log, schema := w.schema, reader := w.reader, writer := w.writer }
  channel := w.channel

/-- A channel taken from its log. -/
def ofEndpoint (e : Endpoint SharedLog) : Wire where
  schema := e.client.schema
  reader := e.client.reader
  writer := e.client.writer
  channel := e.channel

end Wire

namespace Dispatch

/-- Who waits for an acknowledgment. -/
inductive Waiter
  /-- The sender of a writer. -/
  | plain (wait : Log.Wait)
  /-- A send through a channel, which was interrupted so often when it issued its append. -/
  | sending (wire : Nat) (wait : Log.Wait) (interrupts : Nat)

/-- What has come of a wait. -/
inductive Told
  | outcome (o : Outcome)
  | result (r : Channel.Result)

/-- An append that was issued. -/
structure Sent where
  task : TaskId
  /-- The channel, unless a writer has issued it. -/
  wire : Option Nat
  wait : Log.Wait
  /-- The position and the entry, if it has landed. -/
  landed : Option (Position × Entry)

/-- The acknowledgment that an append has been given. -/
def Sent.ticket (s : Sent) : Option AckId :=
  match s.landed, s.wait with
  | some _, .ack k => some k
  | _, _ => none

end Dispatch

open Dispatch

/-- A log with all who wait for an acknowledgment. -/
structure Dispatch where
  log : Log
  writers : Nat → Writer
  wires : Nat → Wire
  waiters : TaskId → Option Waiter := fun _ => none
  /-- The number for a new task. -/
  next : TaskId := 0
  /-- The appends that were issued, in their order. -/
  sends : List Sent := []
  /-- What has come of the waits, in its order. -/
  told : List (TaskId × Told) := []

namespace Dispatch

section Moves

/-- What can happen. -/
inductive Move : Type 1
  | createTopic (topic : String) (partitions : Nat)
  | failNext (cause : Rejection)
  | hold
  | release
  | abandon
  | closeWriter (writer : Nat)
  /-- A writer of any keys and values issues an append, and a new task waits for it. -/
  | send {κ ν : Type} (writer : Nat) (schema : Schema κ ν) (topic : String) (index : Option Nat)
      (key : κ) (value : Option ν)
  /-- A new task sends a command through a channel. -/
  | sendOn (wire : Nat) (id : CommandId) (c : Command)
  /-- A task that waits goes on. -/
  | resume (task : TaskId)
  /-- A wait is given up. -/
  | leave (task : TaskId)
  | interrupt (wire : Nat)

/-- A new log; nobody has done anything yet. -/
def new (settings : Log.Settings) (writers : Nat → Writer) (wires : Nat → Wire) : Dispatch where
  log := { settings }
  writers := writers
  wires := wires

/-- The positions of the appends that have landed, in their order. -/
def landings (d : Dispatch) : List Position :=
  d.sends.filterMap fun s => s.landed.map Prod.fst

/-- A channel on the log. -/
def endpoint (d : Dispatch) (i : Nat) : Endpoint SharedLog :=
  (d.wires i).endpoint d.log

/-- The dispatch after something has been done to a channel on its log. -/
def putBack (d : Dispatch) (i : Nat) (e : Endpoint SharedLog) : Dispatch :=
  { d with log := e.client.log, wires := Function.update d.wires i (.ofEndpoint e) }

/-- The dispatch after a task has been told what has come of its wait. -/
def tell (d : Dispatch) (task : TaskId) (told : Told) : Dispatch :=
  { d with waiters := Function.update d.waiters task none, told := d.told ++ [(task, told)] }

/-- The dispatch after a step of a send through a channel. -/
def proceed (d : Dispatch) (task : TaskId) (i : Nat) :
    Progress (Call SharedLog) Channel.Result → Dispatch
  | .waiting (.sent wait interrupts) =>
      { d with waiters := Function.update d.waiters task (some (.sending i wait interrupts)) }
  | .waiting _ => d
  | .done result => d.tell task (.result result)

/-- An append that was issued by the first step of a send through a channel. -/
def issued (task : TaskId) (i : Nat) (landed : Option (Position × Entry)) :
    Progress (Call SharedLog) Channel.Result → List Sent
  | .waiting (.sent wait _) => [⟨task, some i, wait, landed⟩]
  | _ => []

/-- The dispatch after a move. -/
def perform (d : Dispatch) : Move → Dispatch
  | .createTopic topic partitions => { d with log := (d.log.createTopic topic partitions).2 }
  | .failNext cause => { d with log := d.log.failNext cause }
  | .hold => { d with log := d.log.hold }
  | .release => { d with log := d.log.release.2 }
  | .abandon => { d with log := d.log.abandon.2 }
  | .closeWriter i => { d with writers := Function.update d.writers i { isClosed := true } }
  | .send i schema topic index key value =>
      let (wait, log) := (d.writers i).send schema d.log topic index key value
      let landed := (d.writers i).landing? schema d.log topic index key value
      { d with
        log
        waiters := Function.update d.waiters d.next (some (.plain wait))
        next := d.next + 1
        sends := d.sends ++ [⟨d.next, none, wait, landed⟩] }
  | .sendOn i id c =>
      let w := d.wires i
      let p := w.channel.partition
      let (progress, e) := Call.step 0 d.next (d.endpoint i) (.entered (.send id c))
      let landed := w.writer.landing? w.schema d.log p.topic (some p.index) id (some c)
      { (d.putBack i e).proceed d.next i progress with
        next := d.next + 1
        sends := d.sends ++ issued d.next i landed progress }
  | .resume task =>
      match d.waiters task with
      | none => d
      | some (.plain wait) =>
          match d.log.outcome wait with
          | none => d
          | some o => d.tell task (.outcome o)
      | some (.sending i wait interrupts) =>
          let (progress, e) := Call.step 0 task (d.endpoint i) (.sent wait interrupts)
          (d.putBack i e).proceed task i progress
  | .leave task => { d with waiters := Function.update d.waiters task none }
  | .interrupt i => d.putBack i ((d.endpoint i).interrupt 0)

/-- The dispatch after moves. -/
def run (d : Dispatch) (moves : List Move) : Dispatch :=
  moves.foldl perform d

theorem run_append (d : Dispatch) (a b : List Move) : d.run (a ++ b) = (d.run a).run b :=
  List.foldl_append

theorem run_concat (d : Dispatch) (a : List Move) (m : Move) :
    d.run (a ++ [m]) = (d.run a).perform m :=
  run_append d a [m]

/-- What holds at first and is kept by every move holds after any moves. -/
theorem run_induction {P : Dispatch → Prop} {d : Dispatch} (h : P d)
    (hstep : ∀ d m, P d → P (d.perform m)) (moves : List Move) : P (d.run moves) := by
  induction moves generalizing d with
  | nil => exact h
  | cons m moves ih => exact ih (hstep d m h)

end Moves

section Waiting

/-- What the outcome of an append means to a send through a channel. -/
def answer : Outcome → Channel.Result
  | .ok p => .ok (.position p)
  | .error err => .error (.ofAck err)

/-- What one waits for. -/
def Waiter.wait : Waiter → Log.Wait
  | plain wait => wait
  | sending _ wait _ => wait

/-- How one is told an outcome. -/
def Waiter.hears (o : Outcome) : Waiter → Told
  | plain _ => .outcome o
  | sending _ _ _ => .result (answer o)

/-- The channel through which one sends. -/
def Waiter.wire : Waiter → Option Nat
  | plain _ => none
  | sending i _ _ => some i

/-- One waits for this append. -/
structure Waiter.Awaits (w : Waiter) (task : TaskId) (s : Sent) : Prop where
  task : s.task = task
  wire : s.wire = w.wire
  wait : s.wait = w.wait

/-- What one that waits is to be told: the outcome if it is there, and otherwise that its channel
was interrupted since it has issued its append. -/
inductive Due (d : Dispatch) : Waiter → Told → Prop
  | outcome {w : Waiter} {o : Outcome} (there : d.log.outcome w.wait = some o) :
      Due d w (w.hears o)
  | interrupted {i : Nat} {wait : Log.Wait} {interrupts : Nat}
      (missing : d.log.outcome wait = none)
      (since : (d.wires i).channel.interrupts ≠ interrupts) :
      Due d (.sending i wait interrupts) (.result (.error .interrupted))

end Waiting

section Steps

variable (d : Dispatch) {i : Nat} {task : TaskId} {wait : Log.Wait} {interrupts : Nat}

theorem waiters_tell (task : TaskId) (x : Told) :
    (d.tell task x).waiters = Function.update d.waiters task none :=
  rfl

/-- A channel that has done nothing but to the log. -/
theorem putBack_endpoint (i : Nat) (log : Log) :
    d.putBack i ((d.wires i).endpoint log) = { d with log } := by
  have hwire : Wire.ofEndpoint ((d.wires i).endpoint log) = d.wires i := rfl
  rw [putBack, hwire, Function.update_eq_self]
  rfl

theorem putBack_self (i : Nat) : d.putBack i (d.endpoint i) = d :=
  putBack_endpoint d i d.log

/-- A send through a channel that is shut down fails at once, and any other one issues its
append. -/
theorem perform_sendOn (i : Nat) (id : CommandId) (c : Command) :
    d.perform (.sendOn i id c) =
      if (d.wires i).channel.isShutDown then
        { d.tell d.next (.result (.error .closed)) with next := d.next + 1 }
      else
        let w := d.wires i
        let p := w.channel.partition
        let (wait, log) := w.writer.send w.schema d.log p.topic (some p.index) id (some c)
        let landed := w.writer.landing? w.schema d.log p.topic (some p.index) id (some c)
        { d with
          log
          waiters := Function.update d.waiters d.next (some (.sending i wait w.channel.interrupts))
          next := d.next + 1
          sends := d.sends ++ [⟨d.next, some i, wait, landed⟩] } := by
  by_cases hshut : (d.wires i).channel.isShutDown = true
  · have hstep : Call.step 0 d.next (d.endpoint i) (.entered (.send id c)) =
        (.done (.error .closed), d.endpoint i) := by
      simp [Call.step, Call.enter, endpoint, Wire.endpoint, hshut]
    rw [if_pos hshut, perform, hstep]
    simp only [putBack_self, proceed, issued, List.append_nil]
    rfl
  · rcases hsend : (d.wires i).writer.send (d.wires i).schema d.log
      (d.wires i).channel.partition.topic (some (d.wires i).channel.partition.index) id (some c)
      with ⟨wait, log⟩
    have hstep : Call.step 0 d.next (d.endpoint i) (.entered (.send id c)) =
        (.waiting (.sent wait (d.wires i).channel.interrupts), (d.wires i).endpoint log) := by
      simp [Call.step, Call.enter, Client.send, endpoint, Wire.endpoint, hshut, hsend]
    rw [if_neg hshut, perform, hstep]
    simp only [putBack_endpoint, proceed, issued, hsend]

/-- Who goes on and finds the outcome there is told it. -/
theorem perform_resume_told {w : Waiter} {o : Outcome} (h : d.waiters task = some w)
    (ho : d.log.outcome w.wait = some o) : d.perform (.resume task) = d.tell task (w.hears o) := by
  cases w with
  | plain wait =>
      have hwait : d.log.outcome wait = some o := ho
      simp only [perform, h, hwait]
      rfl
  | sending i wait interrupts =>
      have hstep : Call.step 0 task (d.endpoint i) (.sent wait interrupts) =
          (.done (answer o), d.endpoint i) := by
        rw [Call.step, Call.awaitAck,
          show Client.outcome 0 (d.endpoint i).client wait = some o from ho]
        cases o <;> rfl
      simp only [perform, h, hstep, putBack_self]
      rfl

/-- Without an outcome the sender of a writer goes on waiting. -/
theorem perform_resume_plain (h : d.waiters task = some (.plain wait))
    (ho : d.log.outcome wait = none) : d.perform (.resume task) = d := by
  simp only [perform, h, ho]

/-- Without an outcome a send through a channel is told that it was interrupted, if it was. -/
theorem perform_resume_sending (h : d.waiters task = some (.sending i wait interrupts))
    (ho : d.log.outcome wait = none) :
    d.perform (.resume task) =
      if (d.wires i).channel.interrupts ≠ interrupts then
        d.tell task (.result (.error .interrupted))
      else d := by
  have hstep : Call.step 0 task (d.endpoint i) (.sent wait interrupts) =
      if (d.wires i).channel.interrupts ≠ interrupts then
        (.done (.error .interrupted), d.endpoint i)
      else (.waiting (.sent wait interrupts), d.endpoint i) := by
    rw [Call.step, Call.awaitAck, show Client.outcome 0 (d.endpoint i).client wait = none from ho]
    rfl
  simp only [perform, h, hstep]
  split
  · simp only [putBack_self]
    rfl
  · simp only [putBack_self, proceed]
    rw [← h, Function.update_eq_self]

/-- A task goes on and is told what is due, or nothing happens. -/
theorem perform_resume (task : TaskId) :
    d.perform (.resume task) = d ∨
      ∃ w x, d.waiters task = some w ∧ d.Due w x ∧ d.perform (.resume task) = d.tell task x := by
  cases hw : d.waiters task with
  | none => exact Or.inl (by simp only [perform, hw])
  | some w =>
      cases ho : d.log.outcome w.wait with
      | some o => exact Or.inr ⟨w, _, rfl, .outcome ho, perform_resume_told d hw ho⟩
      | none =>
          cases w with
          | plain wait => exact Or.inl (perform_resume_plain d hw ho)
          | sending i wait interrupts =>
              rw [perform_resume_sending d hw ho]
              split
              next hsince => exact Or.inr ⟨_, _, rfl, .interrupted ho hsince, rfl⟩
              next => exact Or.inl rfl

end Steps

section Logs

/-- A move leaves the log, or does one operation on it. -/
theorem perform_log (d : Dispatch) (m : Move) :
    (d.perform m).log = d.log ∨ ∃ op, (d.perform m).log = d.log.perform op := by
  cases m with
  | createTopic topic n => exact Or.inr ⟨.createTopic topic n, rfl⟩
  | failNext cause => exact Or.inr ⟨.failNext cause, rfl⟩
  | hold => exact Or.inr ⟨.hold, rfl⟩
  | release => exact Or.inr ⟨.release, rfl⟩
  | abandon => exact Or.inr ⟨.abandon, rfl⟩
  | closeWriter i => exact Or.inl rfl
  | send i schema topic index key value => exact Log.send_log d.log _ schema topic index key value
  | sendOn i id c =>
      rw [perform_sendOn]
      split
      · exact Or.inl rfl
      · exact Log.send_log d.log _ _ _ _ _ _
  | resume task =>
      rcases perform_resume d task with hstill | ⟨w, x, -, -, htold⟩
      · exact Or.inl (by rw [hstill])
      · exact Or.inl (by rw [htold]; rfl)
  | leave task => exact Or.inl rfl
  | interrupt i => exact Or.inl rfl

theorem perform_sound {d : Dispatch} (h : d.log.Sound) (m : Move) : (d.perform m).log.Sound := by
  rcases perform_log d m with hsame | ⟨op, hop⟩
  · rw [hsame]
    exact h
  · rw [hop]
    exact Log.perform_sound h op

theorem perform_grows (d : Dispatch) (m : Move) : d.log.Grows (d.perform m).log := by
  rcases perform_log d m with hsame | ⟨op, hop⟩
  · rw [hsame]
    exact .refl d.log
  · rw [hop]
    exact Log.perform_grows d.log op

/-- A move issues no append, or one that does to the log what its landing says. -/
theorem perform_lands {d : Dispatch} (h : d.log.Sound) (m : Move) :
    (d.perform m).sends = d.sends ∨
      ∃ s topic index, (d.perform m).sends = d.sends ++ [s] ∧
        Writer.Lands d.log (d.perform m).log topic index s.landed := by
  cases m with
  | send i schema topic index key value =>
      have hlands := (Writer.send_lands h (d.writers i) schema topic index key value).2
      exact Or.inr ⟨_, topic, index, rfl, hlands⟩
  | sendOn i id c =>
      rw [perform_sendOn]
      split
      · exact Or.inl rfl
      · exact Or.inr ⟨_, _, _, rfl, (Writer.send_lands h _ _ _ _ _ _).2⟩
  | resume task =>
      rcases perform_resume d task with hstill | ⟨w, x, -, -, htold⟩
      · exact Or.inl (by rw [hstill])
      · exact Or.inl (by rw [htold]; rfl)
  | _ => exact Or.inl rfl

end Logs

section Shifts

/-- What a move may do to the log and to the account of the sends. -/
inductive Shift (d : Dispatch) (m : Move) (d' : Dispatch) : Prop
  | still (sends : d'.sends = d.sends) (holding : d'.log.isHolding = d.log.isHolding)
      (held : d'.log.held = d.log.held) (ledger : d'.log.ledger = d.log.ledger)
  | hold (move : m = .hold) (sends : d'.sends = d.sends) (log : d'.log = d.log.hold)
  | release (move : m = .release) (sends : d'.sends = d.sends) (log : d'.log = d.log.release.2)
  | abandon (move : m = .abandon) (sends : d'.sends = d.sends) (log : d'.log = d.log.abandon.2)
  | issue (s : Sent) (sends : d'.sends = d.sends ++ [s])
      (enters : d.log.Enters d'.log d.landings s.wait s.landed)

variable {d : Dispatch}

theorem createTopic_acks (log : Log) (topic : String) (n : Nat) :
    (log.createTopic topic n).2.isHolding = log.isHolding ∧
      (log.createTopic topic n).2.held = log.held ∧
      (log.createTopic topic n).2.ledger = log.ledger := by
  rw [Log.createTopic]
  split <;> exact ⟨rfl, rfl, rfl⟩

theorem perform_shift (h : d.log.Tallies d.landings) (m : Move) : d.Shift m (d.perform m) := by
  cases m with
  | createTopic topic n =>
      obtain ⟨hholding, hheld, hledger⟩ := createTopic_acks d.log topic n
      exact .still rfl hholding hheld hledger
  | failNext cause => exact .still rfl rfl rfl rfl
  | hold => exact .hold rfl rfl rfl
  | release => exact .release rfl rfl rfl
  | abandon => exact .abandon rfl rfl rfl
  | closeWriter i => exact .still rfl rfl rfl rfl
  | send i schema topic index key value =>
      exact .issue _ rfl (Log.send_enters h (d.writers i) schema topic index key value)
  | sendOn i id c =>
      rw [perform_sendOn]
      split
      · exact .still rfl rfl rfl rfl
      · exact .issue _ rfl (Log.send_enters h _ _ _ _ _ _)
  | resume task =>
      rcases perform_resume d task with hstill | ⟨w, x, -, -, htold⟩
      · rw [hstill]
        exact .still rfl rfl rfl rfl
      · rw [htold]
        exact .still rfl rfl rfl rfl
  | leave task => exact .still rfl rfl rfl rfl
  | interrupt i => exact .still rfl rfl rfl rfl

theorem landings_of_sends {d' : Dispatch} (h : d'.sends = d.sends) : d'.landings = d.landings := by
  rw [landings, landings, h]

theorem landings_of_issue {d' : Dispatch} {s : Sent} (h : d'.sends = d.sends ++ [s]) :
    d'.landings = d.landings ++ (s.landed.map Prod.fst).toList := by
  rw [landings, landings, h, List.filterMap_append]
  cases hs : s.landed <;> simp [hs]

/-- The account of the acknowledgments is kept, and what is settled stays so. -/
theorem Shift.tallies {m : Move} {d' : Dispatch} (h : d.Shift m d')
    (ht : d.log.Tallies d.landings) : d'.log.Tallies d'.landings ∧ d.log.Settled d'.log := by
  cases h with
  | still sends holding held ledger =>
      rw [landings_of_sends sends]
      exact ⟨ht.of_frame holding held ledger, .of_ledger ledger⟩
  | hold move sends log =>
      rw [landings_of_sends sends, log]
      exact ⟨⟨ht.size, ht.state, ht.parked, ht.own, nofun⟩, .of_ledger rfl⟩
  | release move sends log =>
      rw [landings_of_sends sends, log]
      exact ⟨ht.release.1, ht.release.2.1⟩
  | abandon move sends log =>
      rw [landings_of_sends sends, log]
      exact ⟨ht.abandon.1, ht.abandon.2.1⟩
  | issue s sends enters =>
      rw [landings_of_issue sends]
      obtain ⟨task, wire, wait, landed⟩ := s
      cases enters with
      | failed cause holding held ledger =>
          rw [Option.map_none, Option.toList_none, List.append_nil]
          exact ⟨ht.of_frame holding held ledger, .of_ledger ledger⟩
      | landed q e holding tallies ledger => exact ⟨tallies, .of_push ledger⟩

/-- What is settled stays so whatever is done later. -/
theorem run_settled (h : d.log.Tallies d.landings) (moves : List Move) :
    d.log.Settled (d.run moves).log := by
  induction moves generalizing d with
  | nil => exact .of_ledger rfl
  | cons m moves ih =>
      obtain ⟨htallies, hsettled⟩ := (perform_shift h m).tallies h
      exact hsettled.trans (ih htallies)

end Shifts

section Turns

/-- What a move may do to those who wait. -/
inductive Turn (d : Dispatch) (m : Move) (d' : Dispatch) : Prop
  | still (waiters : d'.waiters = d.waiters) (told : d'.told = d.told) (next : d'.next = d.next)
  | enter (w : Waiter) (s : Sent) (sends : d'.sends = d.sends ++ [s]) (awaits : w.Awaits d.next s)
      (noted : ∀ i wait n, w = .sending i wait n → n = (d.wires i).channel.interrupts)
      (waiters : d'.waiters = Function.update d.waiters d.next (some w)) (told : d'.told = d.told)
      (next : d'.next = d.next + 1) (wires : d'.wires = d.wires)
  | refuse (waiters : d'.waiters = Function.update d.waiters d.next none)
      (told : d'.told = d.told ++ [(d.next, .result (.error .closed))])
      (next : d'.next = d.next + 1)
  | resume (task : TaskId) (w : Waiter) (x : Told) (move : m = .resume task)
      (waits : d.waiters task = some w) (due : d.Due w x) (after : d' = d.tell task x)
  | leave (task : TaskId) (move : m = .leave task)
      (waiters : d'.waiters = Function.update d.waiters task none) (told : d'.told = d.told)
      (next : d'.next = d.next)

theorem perform_turn (d : Dispatch) (m : Move) : d.Turn m (d.perform m) := by
  cases m with
  | send i schema topic index key value =>
      exact .enter (.plain _) _ rfl ⟨rfl, rfl, rfl⟩ nofun rfl rfl rfl rfl
  | sendOn i id c =>
      rw [perform_sendOn]
      split
      · exact .refuse rfl rfl rfl
      · refine .enter (.sending i _ _) _ rfl ⟨rfl, rfl, rfl⟩ ?_ rfl rfl rfl rfl
        rintro j wait n hw
        cases hw
        rfl
  | resume task =>
      rcases perform_resume d task with hstill | ⟨w, x, hw, hdue, htold⟩
      · rw [hstill]
        exact .still rfl rfl rfl
      · exact .resume task w x rfl hw hdue htold
  | leave task => exact .leave task rfl rfl rfl rfl
  | _ => exact .still rfl rfl rfl

/-- A new task waits for the append that it has issued, and has noted how often its channel was
interrupted. -/
structure Begins (d d' : Dispatch) (task : TaskId) (w : Waiter) : Prop where
  new : task = d.next
  next : d'.next = d.next + 1
  wires : d'.wires = d.wires
  issued : ∃ s ∈ d'.sends, w.Awaits task s
  noted : ∀ i wait n, w = .sending i wait n → n = (d.wires i).channel.interrupts

/-- Who waits after a move has waited before, or begins to. -/
theorem perform_waiters (d : Dispatch) (m : Move) {task : TaskId} {w : Waiter}
    (hw : (d.perform m).waiters task = some w) :
    d.waiters task = some w ∨ d.Begins (d.perform m) task w := by
  have hgone : ∀ {id}, (d.perform m).waiters = Function.update d.waiters id none →
      d.waiters task = some w := fun {id} hwaiters => by
    rw [hwaiters] at hw
    by_cases hid : task = id
    · subst hid
      rw [Function.update_self] at hw
      cases hw
    · rw [Function.update_of_ne hid] at hw
      exact hw
  cases perform_turn d m with
  | still waiters told next => exact Or.inl (waiters ▸ hw)
  | leave id move waiters told next => exact Or.inl (hgone waiters)
  | refuse waiters told next => exact Or.inl (hgone waiters)
  | resume id w x move waits due after => exact Or.inl (hgone (by rw [after]; rfl))
  | enter w' s sends awaits noted waiters told next wires =>
      rw [waiters] at hw
      by_cases hid : task = d.next
      · subst hid
        rw [Function.update_self] at hw
        cases hw
        refine Or.inr ⟨rfl, next, wires, ⟨s, ?_, awaits⟩, noted⟩
        rw [sends]
        exact List.mem_append_right _ List.mem_cons_self
      · rw [Function.update_of_ne hid] at hw
        exact Or.inl hw

/-- A move tells nothing, tells a new task that its channel is shut down, or tells a waiter what is
due. -/
theorem perform_told (d : Dispatch) (m : Move) :
    (d.perform m).told = d.told ∨
      ∃ x, (d.perform m).told = d.told ++ [x] ∧ (d.perform m).waiters x.1 = none ∧
        ((x = (d.next, .result (.error .closed)) ∧ (d.perform m).next = d.next + 1) ∨
          ∃ w, d.waiters x.1 = some w ∧ d.Due w x.2 ∧ m = .resume x.1) := by
  cases perform_turn d m with
  | still waiters told next => exact Or.inl told
  | leave task move waiters told next => exact Or.inl told
  | enter w s sends awaits noted waiters told next wires => exact Or.inl told
  | refuse waiters told next =>
      refine Or.inr ⟨_, told, ?_, Or.inl ⟨rfl, next⟩⟩
      rw [waiters, Function.update_self]
  | resume task w x move waits due after =>
      refine Or.inr ⟨(task, x), ?_, ?_, Or.inr ⟨w, waits, due, move⟩⟩
      · rw [after]
        rfl
      · rw [after]
        exact Function.update_self ..

theorem perform_next (d : Dispatch) (m : Move) : d.next ≤ (d.perform m).next := by
  cases perform_turn d m with
  | still waiters told next => exact Nat.le_of_eq next.symm
  | leave task move waiters told next => exact Nat.le_of_eq next.symm
  | enter w s sends awaits noted waiters told next wires => exact next ▸ Nat.le_succ _
  | refuse waiters told next => exact next ▸ Nat.le_succ _
  | resume task w x move waits due after => exact after ▸ Nat.le_refl _

/-- Only an interruption does something to a channel. -/
theorem perform_wires (d : Dispatch) {m : Move} (h : ∀ i, m ≠ .interrupt i) :
    (d.perform m).wires = d.wires := by
  cases m with
  | interrupt i => exact absurd rfl (h i)
  | sendOn i id c =>
      rw [perform_sendOn]
      split <;> rfl
  | resume task =>
      rcases perform_resume d task with hstill | ⟨w, x, -, -, htold⟩
      · rw [hstill]
      · rw [htold]
        rfl
  | _ => rfl

/-- An interruption counts for its channel only. -/
theorem interrupts_interrupt (d : Dispatch) (i j : Nat) :
    ((d.perform (.interrupt i)).wires j).channel.interrupts =
      if j = i then (d.wires j).channel.interrupts + 1 else (d.wires j).channel.interrupts := by
  have hput : (d.perform (.interrupt i)).wires =
      Function.update d.wires i (.ofEndpoint ((d.endpoint i).interrupt 0)) := rfl
  rw [hput]
  by_cases hj : j = i
  · subst hj
    rw [Function.update_self, if_pos rfl]
    rfl
  · rw [Function.update_of_ne hj, if_neg hj]

end Turns

end Dispatch
end ReplicatedLog
