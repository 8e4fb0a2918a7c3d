import ReplicatedLog.Channel.Settings
import ReplicatedLog.Client.Service
import ReplicatedLog.Client.Shared
import ReplicatedLog.Simulation.Answer
import ReplicatedLog.Simulation.Workbench

/-!
# A world of logs and their users

All that tasks act on: logs, free readers and writers on them, channels, runners
and clusters.  Each of them is known by its place in a list, and none ever goes
away.

* A **link** is a channel with its two handles on one of the logs; a channel may
  also stand over a scripted service.
* A **post** is where a runner works, with its channel and its workbench.
* `World.link` and `World.service` give access to a channel with its client, so
  that what channels and runners do can be told once for both.
-/

namespace ReplicatedLog

/-- What the keys and values of a handle are, and how they are encoded. -/
inductive Content
  | texts (s : Schema String String)
  | commands (s : CommandSchema)

/-- A reader on one of the logs. -/
structure ReadHandle where
  log : Nat
  content : Content
  reader : Reader := {}

/-- A writer on one of the logs. -/
structure WriteHandle where
  log : Nat
  content : Content
  writer : Writer := {}

/-- A channel on one of the logs. -/
structure Link where
  log : Nat
  schema : CommandSchema
  reader : Reader := {}
  writer : Writer := {}
  channel : Channel

instance : Inhabited Link :=
  ⟨{ log := 0, schema := .json, channel := { partition := ⟨"", 0⟩ } }⟩

/-- A channel, by its place. -/
inductive ChannelRef
  | link (i : Nat)
  | service (i : Nat)
  deriving DecidableEq, Repr

/-- A runner at work on a channel. -/
inductive Post
  | link (i : Nat) (bench : Workbench) (runner : Runner SharedLog)
  | service (i : Nat) (bench : Workbench) (runner : Runner Service)

/-- A member of a cluster. -/
structure Node where
  name : String
  /-- The place of its channel. -/
  link : Nat
  /-- The place of its runner. -/
  post : Nat
  deriving DecidableEq, Repr

/-- Nodes that share the commands of one topic. -/
structure Cluster where
  log : Nat
  settings : Channel.Settings
  nodes : List Node

/-- All that tasks act on. -/
structure World where
  logs : List Log := []
  readers : List ReadHandle := []
  writers : List WriteHandle := []
  links : List Link := []
  services : List (Endpoint Service) := []
  posts : List Post := []
  clusters : List Cluster := []
  /-- What the tasks that are over have brought. -/
  results : List (TaskId × Except Problem Answer) := []

namespace World

section Channels

/-- Access to a channel with its client. -/
structure Place (σ : Type) where
  get : World → Endpoint σ
  set : World → Endpoint σ → World

/-- A log by its place. -/
def log (w : World) (i : Nat) : Log :=
  w.logs.getD i {}

/-- The world with one of the logs replaced. -/
def setLog (w : World) (i : Nat) (log : Log) : World :=
  { w with logs := w.logs.set i log }

/-- The channel of a link with its log and its handles. -/
def link (i : Nat) : Place SharedLog where
  get w :=
    let l := w.links.getD i default
    ⟨⟨w.log l.log, l.schema, l.reader, l.writer⟩, l.channel⟩
  set w e :=
    let l := w.links.getD i default
    { w.setLog l.log e.client.log with
      links := w.links.set i
        { l with reader := e.client.reader, writer := e.client.writer, channel := e.channel } }

/-- The channel over a scripted service. -/
def service (i : Nat) : Place Service where
  get w := w.services.getD i ⟨{}, { partition := ⟨"", 0⟩ }⟩
  set w e := { w with services := w.services.set i e }

/-- Changes a channel with its client. -/
def Place.modify {σ : Type} (p : Place σ) (w : World) (f : Endpoint σ → Endpoint σ) : World :=
  p.set w (f (p.get w))

/-- The state of a channel. -/
def channel (w : World) : ChannelRef → Channel
  | .link i => ((link i).get w).channel
  | .service i => ((service i).get w).channel

/-- Interrupts a channel. -/
def interrupt (w : World) (now : Nat) : ChannelRef → World
  | .link i => (link i).modify w (Endpoint.interrupt now)
  | .service i => (service i).modify w (Endpoint.interrupt now)

/-- Opens a channel on a log, if its partition can be assigned. -/
def openLink (w : World) (now : Nat) (log : Nat) (schema : CommandSchema) (topic : String) :
    Except Channel.Error Nat × World :=
  match Endpoint.make now ({ log := w.log log, schema } : SharedLog) topic with
  | (.error e, _) => (.error e, w)
  | (.ok e, _) =>
      let l : Link :=
        { log, schema, reader := e.client.reader, writer := e.client.writer, channel := e.channel }
      (.ok w.links.length, { w with links := w.links ++ [l] })

/-- Opens a channel over a scripted service, if its partition can be assigned. -/
def openService (w : World) (now : Nat) (script : Service.Script) (topic : String) :
    Except Channel.Error Nat × World :=
  match Endpoint.make now ({ script } : Service) topic with
  | (.error e, _) => (.error e, w)
  | (.ok e, _) => (.ok w.services.length, { w with services := w.services ++ [e] })

end Channels

end World

namespace Post

variable {σ : Type} [Client σ]

/-- What the runner of a post came to, once it has ended. -/
def result? : Post → Option (Except RunnerError Tally)
  | .link _ _ r => r.result?
  | .service _ _ r => r.result?

/-- The workbench of a post. -/
def bench : Post → Workbench
  | .link _ b _ => b
  | .service _ b _ => b

/-- The channel of a post. -/
def channel : Post → ChannelRef
  | .link i _ _ => .link i
  | .service i _ _ => .service i

/-- The post after its runner has been asked to stop. -/
def requestStop : Post → Post
  | .link i b r => .link i b r.requestStop
  | .service i b r => .service i b r.requestStop

/-- The state of a runner at work on the channel at a place. -/
def stateAt (p : World.Place σ) (w : World) (b : Workbench) (r : Runner σ) :
    Runner.State σ Workbench :=
  ⟨p.get w, b, r⟩

/-- One step of the runner of a post. -/
def step (now : Nat) (me : TaskId) (w : World) : Post → Post × World
  | .link i b r =>
      let s := Runner.step now me (stateAt (World.link i) w b r)
      (.link i s.executor s.runner, (World.link i).set w s.endpoint)
  | .service i b r =>
      let s := Runner.step now me (stateAt (World.service i) w b r)
      (.service i s.executor s.runner, (World.service i).set w s.endpoint)

/-- Whether the runner of a post has reason to go on. -/
def ready (now : Nat) (me : TaskId) (w : World) : Post → Bool
  | .link i b r => Runner.ready now me (stateAt (World.link i) w b r)
  | .service i b r => Runner.ready now me (stateAt (World.service i) w b r)

/-- When the clock alone lets the runner of a post go on. -/
def due : Post → Option Nat
  | .link _ _ r => r.due
  | .service _ _ r => r.due

end Post

namespace World

/-- Sets a runner to work. -/
def addPost (w : World) (p : Post) : Nat × World :=
  (w.posts.length, { w with posts := w.posts ++ [p] })

/-- Asks the runner of a post to stop, and interrupts its channel. -/
def stopPost (w : World) (now : Nat) (i : Nat) : World :=
  match w.posts[i]? with
  | none => w
  | some p => { w with posts := w.posts.set i p.requestStop }.interrupt now p.channel

end World
end ReplicatedLog
