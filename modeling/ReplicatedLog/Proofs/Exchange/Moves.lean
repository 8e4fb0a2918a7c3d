import ReplicatedLog.Proofs.Exchange.Polling
import ReplicatedLog.Proofs.Exchange.Sending
import Mathlib.Logic.Function.Basic

/-!
# Many tasks at one log

Any number of tasks poll, send, call on the others, close, release and abandon, and
take their accesses to what they share in any order.

* `Exchange` is a log with its readers, its channels and the tasks under way;
  `Exchange.run` makes any moves in their order, and a move that cannot be made
  changes nothing;
* `Exchange.Quiet`: no task can go on before the clock does;
* `Exchange.Sound`: every poll and every send may count on what `View.Holds` and
  `SendView.Holds` say, and who holds positions is reading through them.
-/

namespace ReplicatedLog

/-- What a task is about. -/
inductive Job : Type 1
  | poll {κ ν : Type} (reader : Nat) (schema : Schema κ ν) (p : Polling κ ν)
  | send {κ ν : Type} (outlet : Nat) (schema : Schema κ ν) (out : Outgoing κ ν) (p : Sending)
  | errands (todo : List Errand)

/-- A log with its readers, the sending sides of its channels, and the tasks under way. -/
structure Exchange : Type 1 where
  log : Log
  now : Nat := 0
  inlets : Nat → Inlet := fun _ => {}
  outlets : Nat → Outlet
  jobs : TaskId → Option Job := fun _ => none
  /-- The number for a new task. -/
  next : TaskId := 0

namespace Job

/-- The send of the task has added its entry and has yet to count its append. -/
def announces : Job → Bool
  | send _ _ _ p => p.announces
  | _ => false

/-- The errands that the task has yet to do. -/
def todo : Job → List Errand
  | errands todo => todo
  | _ => []

/-- The task waits, and may be given up. -/
def waits : Job → Bool
  | poll _ _ (.watching _ _ .parked) => true
  | send _ _ _ (.sent _ _) => true
  | _ => false

/-- Nothing has been done yet. -/
def IsNew : Job → Prop
  | poll _ _ p => ∃ timeout, p = .entering timeout
  | send _ _ _ p => p = .entered
  | errands _ => True

/-- Whether a task can go on. -/
def ready (x : Exchange) : Job → Bool
  | poll i _ p => p.ready x.now x.log (x.inlets i)
  | send o _ _ p => p.ready (x.outlets o) x.log
  | errands _ => true

end Job

/-- The inlet with a pending wakeup; its polls have yet to be called on. -/
def Inlet.raise (i : Inlet) : Inlet :=
  { i with reader := { i.reader with isWoken := true } }

/-- The inlet of a reader that is closed; its polls have yet to be called on. -/
def Inlet.shut (i : Inlet) : Inlet :=
  { i with reader := { i.reader with isClosed := true } }

/-- When nothing happens in between, the two accesses come to a wakeup. -/
theorem Inlet.wake_eq (i : Inlet) : i.raise.call.reader = i.reader.wake :=
  rfl

/-- When nothing happens in between, the two accesses come to the closing of a reader. -/
theorem Inlet.close_eq (i : Inlet) (h : i.reader.isClosed = false) :
    i.shut.call.reader = i.reader.close := by
  simp [shut, call, Reader.close, h]

namespace Exchange

section Moves

/-- What can happen. -/
inductive Move : Type 1
  /-- A new task polls a reader. -/
  | poll {κ ν : Type} (reader : Nat) (schema : Schema κ ν) (timeout : Nat)
  /-- A new task sends. -/
  | send {κ ν : Type} (outlet : Nat) (schema : Schema κ ν) (out : Outgoing κ ν)
  /-- A task makes its next access. -/
  | step (task : TaskId)
  /-- A task that waits is given up. -/
  | leave (task : TaskId)
  | pass (ticks : Nat)
  | createTopic (topic : String) (partitions : Nat)
  | failNext (cause : Rejection)
  | hold
  | release
  | abandon
  | assign (reader : Nat) (ps : List Partition)
  | seek (reader : Nat) (ps : List Partition)
  | endOffsets (reader : Nat)
  | wake (reader : Nat)
  | closeReader (reader : Nat)
  | interrupt (outlet : Nat)
  | shutDown (outlet : Nat)
  | closeWriter (outlet : Nat)

/-- Nobody has done anything yet; `readers` tells the reader of each channel. -/
def new (settings : Log.Settings) (readers : Nat → Nat) : Exchange where
  log := { settings }
  outlets o := { reader := readers o }

/-- A new task. -/
def enter (x : Exchange) (job : Job) : Exchange :=
  { x with jobs := Function.update x.jobs x.next (some job), next := x.next + 1 }

/-- What is left of a task. -/
def left {σ ρ : Type} (job : σ → Job) : Progress σ ρ → Option Job
  | .waiting p => some (job p)
  | .done _ => none

/-- The inlet of a reader replaced. -/
def withInlet (x : Exchange) (i : Nat) (inlet : Inlet) : Exchange :=
  { x with inlets := Function.update x.inlets i inlet }

/-- The outlet of a channel replaced. -/
def withOutlet (x : Exchange) (o : Nat) (outlet : Outlet) : Exchange :=
  { x with outlets := Function.update x.outlets o outlet }

/-- The exchange after an errand. -/
def runErrand (x : Exchange) : Errand → Exchange
  | .call i => x.withInlet i (x.inlets i).call
  | .signal o => x.withOutlet o { x.outlets o with interrupts := (x.outlets o).interrupts + 1 }
  | .settle id q => { x with log := x.log.settle id q }
  | .takeWakeup i => x.withInlet i (x.inlets i).takeWakeup

/-- The exchange after a task has made its next access. -/
def advance (x : Exchange) (t : TaskId) : Job → Exchange
  | .poll i schema p =>
      let (progress, inlet) := p.step schema x.now x.log t (x.inlets i)
      { x.withInlet i inlet with jobs := Function.update x.jobs t (left (.poll i schema) progress) }
  | .send o schema out p =>
      let (progress, log) := p.step schema out (x.outlets o) x.log
      { x with log, jobs := Function.update x.jobs t (left (.send o schema out) progress) }
  | .errands [] => { x with jobs := Function.update x.jobs t none }
  | .errands (e :: todo) =>
      { x.runErrand e with jobs := Function.update x.jobs t (some (.errands todo)) }

/-- Whether a poll of a reader is under way. -/
def isPolled (x : Exchange) (i : Nat) : Bool :=
  (List.range x.next).any fun t =>
    match x.jobs t with
    | some (.poll j _ _) => j = i
    | _ => false

/-- The exchange after a move.  Nobody assigns partitions or seeks while a poll is under way. -/
def perform (x : Exchange) : Move → Exchange
  | .poll i schema timeout => x.enter (.poll i schema (.entering timeout))
  | .send o schema out => x.enter (.send o schema out .entered)
  | .step t =>
      match x.jobs t with
      | some job => if job.ready x then x.advance t job else x
      | none => x
  | .leave t =>
      match x.jobs t with
      | some job => if job.waits then { x with jobs := Function.update x.jobs t none } else x
      | none => x
  | .pass ticks => { x with now := x.now + ticks }
  | .createTopic topic partitions => { x with log := (x.log.createTopic topic partitions).2 }
  | .failNext cause => { x with log := x.log.failNext cause }
  | .hold => { x with log := x.log.hold }
  | .release =>
      { x with log := { x.log.takeHeld with isHolding := false } }.enter
        (.errands (x.log.settlings true))
  | .abandon => { x with log := x.log.takeHeld }.enter (.errands (x.log.settlings false))
  | .assign i ps =>
      if x.isPolled i then x
      else x.withInlet i { x.inlets i with reader := ((x.inlets i).reader.assign ps).2 }
  | .seek i ps =>
      if x.isPolled i then x
      else x.withInlet i { x.inlets i with reader := ((x.inlets i).reader.seekToBeginning ps).2 }
  | .endOffsets i =>
      if (x.inlets i).reader.isClosed then x else x.enter (.errands [.takeWakeup i])
  | .wake i => (x.withInlet i (x.inlets i).raise).enter (.errands [.call i])
  | .closeReader i =>
      if (x.inlets i).reader.isClosed then x
      else (x.withInlet i (x.inlets i).shut).enter (.errands [.call i])
  | .interrupt o =>
      let i := (x.outlets o).reader
      (x.withInlet i (x.inlets i).raise).enter (.errands [.call i, .signal o])
  | .shutDown o => x.withOutlet o { x.outlets o with isShutDown := true }
  | .closeWriter o => x.withOutlet o { x.outlets o with writer := { isClosed := true } }

/-- The exchange after moves. -/
def run (x : Exchange) (moves : List Move) : Exchange :=
  moves.foldl perform x

/-- No task can go on before the clock does. -/
def Quiet (x : Exchange) : Prop :=
  ∀ t job, x.jobs t = some job → job.ready x = false

end Moves

section Views

/-- An entry has been added and its append has yet to be counted. -/
def Announcing (x : Exchange) : Prop :=
  ∃ t job, x.jobs t = some job ∧ job.announces = true

/-- An errand has yet to be done. -/
def Owes (x : Exchange) (e : Errand) : Prop :=
  ∃ t job, x.jobs t = some job ∧ e ∈ job.todo

/-- What is around the polls of a reader. -/
def view (x : Exchange) (i : Nat) : View where
  log := x.log
  inlet := x.inlets i
  announcing := x.Announcing
  calling := x.Owes (.call i)

/-- What is around the sends of a channel. -/
def sendView (x : Exchange) (o : Nat) : SendView where
  log := x.log
  interrupts := (x.outlets o).interrupts
  settling id := ∃ q, x.Owes (.settle id q)
  signalling := x.Owes (.signal o)

/-- All that is kept along the moves. -/
structure Sound (x : Exchange) : Prop where
  room : x.log.settings.maxPollRecords ≠ 0
  fresh : ∀ t, x.next ≤ t → x.jobs t = none
  polls : ∀ t (κ ν : Type) i (schema : Schema κ ν) p,
    x.jobs t = some (.poll i schema p) → (x.view i).Holds t p
  sends : ∀ t (κ ν : Type) o (schema : Schema κ ν) out p,
    x.jobs t = some (.send o schema out p) → (x.sendView o).Holds p
  holders : ∀ i t, (x.inlets i).holder = some t →
    ∃ (κ ν : Type) (schema : Schema κ ν) (p : Polling κ ν),
      x.jobs t = some (.poll i schema p) ∧ p.reads = true

end Views

end Exchange
end ReplicatedLog
