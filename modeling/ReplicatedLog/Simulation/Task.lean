import ReplicatedLog.Simulation.World

/-!
# Tasks

What can be under way in a world: a poll of a free reader, the wait for an
acknowledgment, a call to a channel, a runner, and the waits for the end of a
runner, for what another task brings, and for a time.  A task goes on in steps;
`Task.ready` says whether the next one would get it any further, and `Task.due`
when the clock alone will bring that about.
-/

namespace ReplicatedLog

/-- Something under way. -/
inductive Task
  | receive (reader : Nat) (p : Reader.Poll)
  | acknowledgment (log : Nat) (w : Log.Wait)
  | onLink (i : Nat) (c : Channel.Call SharedLog)
  | onService (i : Nat) (c : Channel.Call Service)
  /-- The runner of a post. -/
  | work (post : Nat)
  /-- To wait for the end of a runner. -/
  | endOf (post : Nat)
  /-- To wait for what a task brings. -/
  | resultOf (t : TaskId)
  | sleep (wake : Nat)

namespace Task

/-- The task of making a request to a channel. -/
def request (r : Channel.Request) : ChannelRef → Task
  | .link i => onLink i (.entered r)
  | .service i => onService i (.entered r)

/-- The task of polling a free reader. -/
def poll (reader timeout : Nat) : Task :=
  receive reader (.started timeout)

section Steps

/-- What a poll of a free reader brings. -/
def received {α : Type} (answer : α → Answer) : Except LogError α → Except Problem Answer
  | .ok b => .ok (answer b)
  | .error e => .error (.log e)

/-- Goes on with a poll of a free reader. -/
def stepReceive (now : Nat) (w : World) (i : Nat) (h : ReadHandle) (p : Reader.Poll) :
    Progress Task (Except Problem Answer) × World :=
  let log := w.log h.log
  let (progress, reader) : Progress Task (Except Problem Answer) × Reader :=
    match h.content with
    | .texts s =>
        let (progress, reader) := h.reader.stepPoll s now log p
        (progress.map (receive i) (received .texts), reader)
    | .commands s =>
        let (progress, reader) := h.reader.stepPoll s now log p
        (progress.map (receive i) (received .batch), reader)
  (progress, { w with readers := w.readers.set i { h with reader } })

/-- Goes on with a call to a channel. -/
def stepCall {σ : Type} [Client σ] (place : World.Place σ) (wrap : Channel.Call σ → Task)
    (now : Nat) (me : TaskId) (w : World) (c : Channel.Call σ) :
    Progress Task (Except Problem Answer) × World :=
  let (progress, e) := c.step now me (place.get w)
  (progress.map wrap Answer.ofResult, place.set w e)

/-- Goes on with the runner of a post. -/
def stepWork (now : Nat) (me : TaskId) (w : World) (i : Nat) (p : Post) :
    Progress Task (Except Problem Answer) × World :=
  let (p, w) := p.step now me w
  let w := { w with posts := w.posts.set i p }
  match p.result? with
  | some result => (.done (Answer.ofRunner result), w)
  | none => (.waiting (work i), w)

/-- The task goes on when something is there. -/
def orWait {α : Type} (t : Task) (w : World) (answer : α → Except Problem Answer) :
    Option α → Progress Task (Except Problem Answer) × World
  | some a => (.done (answer a), w)
  | none => (.waiting t, w)

/-- One step of a task. -/
def step (now : Nat) (me : TaskId) (w : World) (t : Task) :
    Progress Task (Except Problem Answer) × World :=
  match t with
  | receive i p =>
      match w.readers[i]? with
      | some h => stepReceive now w i h p
      | none => (.done (.error (.log .closed)), w)
  | acknowledgment i wait => orWait t w Answer.ofOutcome ((w.log i).outcome wait)
  | onLink i c => stepCall (World.link i) (onLink i) now me w c
  | onService i c => stepCall (World.service i) (onService i) now me w c
  | work i =>
      match w.posts[i]? with
      | some p => stepWork now me w i p
      | none => (.done (.error .taskFailed), w)
  | endOf i => orWait t w Answer.ofRunner (w.posts[i]?.bind Post.result?)
  | resultOf other => orWait t w id (w.results.lookup other)
  | sleep wake => if wake ≤ now then (.done (.ok .nothing), w) else (.waiting t, w)

end Steps

section Waiting

/-- Whether a task has reason to go on. -/
def ready (now : Nat) (me : TaskId) (w : World) : Task → Bool
  | receive i p =>
      match w.readers[i]? with
      | some h => h.reader.pollReady now (w.log h.log) p
      | none => true
  | acknowledgment i wait => ((w.log i).outcome wait).isSome
  | onLink i c => c.ready now me ((World.link i).get w)
  | onService i c => c.ready now me ((World.service i).get w)
  | work i =>
      match w.posts[i]? with
      | some p => p.ready now me w
      | none => true
  | endOf i => (w.posts[i]?.bind Post.result?).isSome
  | resultOf other => (w.results.lookup other).isSome
  | sleep wake => wake ≤ now

/-- When the clock alone lets a task go on. -/
def due (w : World) : Task → Option Nat
  | receive _ p => Reader.pollDue p
  | onLink _ c => c.due
  | onService _ c => c.due
  | work i => w.posts[i]?.bind Post.due
  | sleep wake => some wake
  | _ => none

/-- The world after a task has been given up: it leaves the line of its channel. -/
def abandon (me : TaskId) (w : World) : Task → World
  | onLink i _ => (World.link i).modify w (·.leave me)
  | onService i _ => (World.service i).modify w (·.leave me)
  | _ => w

end Waiting

end Task
end ReplicatedLog
