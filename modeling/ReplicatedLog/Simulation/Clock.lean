import ReplicatedLog.Simulation.Task

/-!
# The clock

A simulation runs the tasks of a world one at a time under a clock of its own.

* A task runs until it has no reason to go on.  Those in the background take their
  turns in the order of the queue, and go to its end after each turn.
* **Settling** lets the tasks in the background run until none of them can go on;
  the clock stands still meanwhile.
* **Awaiting** a task runs it in the foreground.  Whenever it has to wait, the
  background settles, and if that is no help, the clock moves to the first time at
  which some task can go on.  There is a limit for it, and a task that is not done
  by then is given up.

A simulation has a patience, the number of steps after which it gives up; since a
background that never settles is never done, there has to be one.
-/

namespace ReplicatedLog

/-- A world with a clock and the tasks under way in it. -/
structure Simulation where
  now : Nat := 0
  world : World := {}
  /-- The tasks in the background. -/
  queue : List (TaskId × Task) := []
  nextTask : TaskId := 0
  /-- The time at which a task in the foreground is given up. -/
  limit : Nat
  patience : Nat

namespace Simulation

section Background

/-- Keeps what a task has brought. -/
def keep (me : TaskId) (result : Except Problem Answer) (w : World) : World :=
  { w with results := (me, result) :: w.results }

/-- Runs a task until it is done or has to wait: what is left of it, and the world. -/
def turn (now : Nat) (me : TaskId) : (patience : Nat) → Task → World → Option Task × World
  | 0, t, w => (some t, w)
  | patience + 1, t, w =>
      if t.ready now me w then
        match t.step now me w with
        | (.done result, w) => (none, keep me result w)
        | (.waiting t, w) => turn now me patience t w
      else (some t, w)

/-- The first task of the queue that can go on. -/
def nextReady (s : Simulation) : Option (TaskId × Task) :=
  s.queue.find? fun (me, t) => t.ready s.now me s.world

/-- Gives a task its turn. -/
def giveTurn (s : Simulation) (me : TaskId) (t : Task) : Simulation :=
  let others := s.queue.filter fun other => other.1 != me
  match turn s.now me s.patience t s.world with
  | (some t, world) => { s with world, queue := others ++ [(me, t)] }
  | (none, world) => { s with world, queue := others }

/-- Gives turns until no task in the background can go on. -/
def settleWithin : (patience : Nat) → Simulation → Simulation
  | 0, s => s
  | patience + 1, s =>
      match s.nextReady with
      | some (me, t) => settleWithin patience (s.giveTurn me t)
      | none => s

/-- Lets the background settle. -/
def settle (s : Simulation) : Simulation :=
  settleWithin s.patience s

end Background

section Foreground

/-- The first time at which the clock alone lets some task go on. -/
def nextDue (s : Simulation) (foreground : Task) : Option Nat :=
  ((foreground :: s.queue.map Prod.snd).filterMap (Task.due s.world)).min?

/-- Gives up the task in the foreground. -/
def giveUp (s : Simulation) (me : TaskId) (t : Task) : Except Problem Answer × Simulation :=
  (.error .hang, { s with now := max s.now s.limit, world := t.abandon me s.world })

/-- Runs a task in the foreground until it is done. -/
def runWithin (me : TaskId) :
    (patience : Nat) → Task → Simulation → Except Problem Answer × Simulation
  | 0, t, s => s.giveUp me t
  | patience + 1, t, s =>
      if t.ready s.now me s.world then
        match t.step s.now me s.world with
        | (.done result, world) => (result, { s with world })
        | (.waiting t, world) => runWithin me patience t { s with world }
      else
        let s := s.settle
        if t.ready s.now me s.world then runWithin me patience t s
        else
          match (s.nextDue t).filter (· ≤ s.limit) with
          | some time => runWithin me patience t { s with now := max s.now time }
          | none => s.giveUp me t

/-- The number for a new task. -/
def newTask (s : Simulation) : TaskId × Simulation :=
  (s.nextTask, { s with nextTask := s.nextTask + 1 })

end Foreground

end Simulation

/-- Actions in a simulation. -/
abbrev Sim := ExceptT Problem (StateM Simulation)

namespace Sim

/-- Runs a task in the foreground: its answer. -/
def await (t : Task) : Sim Answer := do
  let (me, s) := (← get).newTask
  let (result, s) := Simulation.runWithin me s.patience t s
  set s
  match result with
  | .ok a => return a
  | .error e => throw e

/-- Puts a task into the background. -/
def spawn (t : Task) : Sim TaskId := do
  let (me, s) := (← get).newTask
  set { s with queue := s.queue ++ [(me, t)] }
  return me

/-- The time. -/
def now : Sim Nat := do
  return (← get).now

/-- The world. -/
def world : Sim World := do
  return (← get).world

/-- Changes the world. -/
def change {α : Type} (f : World → α × World) : Sim α := do
  let s ← get
  let (a, world) := f s.world
  set { s with world }
  return a

/-- Waits for a number of ticks. -/
def sleep (ticks : Nat) : Sim Unit := do
  let _ ← await (.sleep ((← now) + ticks))

end Sim
end ReplicatedLog
