import ReplicatedLog.Cluster.Scenario
import ReplicatedLog.Session.Step

/-!
# Sessions

A session performs steps one after the other in a simulation with one log.  After
each step the background settles, and the time is noted.  A step in the foreground
that is not done after a while is given up.
-/

namespace ReplicatedLog
namespace Session

/-- A runner that a session has set to work. -/
structure RunnerEntry where
  post : Nat
  /-- Whether the session has asked it to stop. -/
  stopRequested : Bool := false

/-- What the names of a session stand for. -/
structure Names where
  writers : SortedMap String Nat := ∅
  readers : SortedMap String Nat := ∅
  channels : SortedMap String ChannelRef := ∅
  runners : SortedMap String RunnerEntry := ∅
  clusters : SortedMap String Nat := ∅
  kept : SortedMap String Nat := ∅
  tasks : SortedMap String TaskId := ∅

/-- A simulation and the names in it. -/
structure State where
  simulation : Simulation
  names : Names := {}

/-- Actions in a session. -/
abbrev Act := ExceptT Problem (StateM State)

namespace Act

/-- An action in the simulation of the session. -/
def sim {α : Type} (a : Sim α) : Act α := do
  let s ← get
  let (result, simulation) := a.run.run s.simulation
  set { s with simulation }
  match result with
  | .ok a => return a
  | .error e => throw e

/-- The world of the session. -/
def world : Act World := sim Sim.world

/-- Changes the world of the session. -/
def change {α : Type} (f : World → α × World) : Act α := sim (Sim.change f)

/-- What a name stands for. -/
def find {α : Type} (names : Names → SortedMap String α) (name : String) : Act α := do
  match (names (← get).names).get? name with
  | some a => return a
  | none => throw (.unknown name)

/-- Changes what the names stand for. -/
def rename (f : Names → Names) : Act Unit :=
  modify fun s => { s with names := f s.names }

/-- Runs a task, in the background if a name for it is given. -/
def undertake (t : Task) : (background : Option String) → Act Reply
  | none => do
      return .plain (← sim (Sim.await t))
  | some name => do
      let id ← sim (Sim.spawn t)
      rename fun n => { n with tasks := n.tasks.insert name id }
      return .plain .nothing

/-- Nothing to tell. -/
def nothing : Act Reply :=
  return .plain .nothing

end Act

open Act

/-- The place of the log that the session has from the start. -/
def mainLog : Nat := 0

section Logs

/-- Performs a step on the log. -/
def performLog : LogStep → Act Reply
  | .createTopic topic partitions => do
      let isNew ← change fun w =>
        let (isNew, log) := (w.log mainLog).createTopic topic partitions
        (isNew, w.setLog mainLog log)
      return .truth isNew
  | .partitionCount topic => do
      return .count (((← world).log mainLog).partitionCount topic)
  | .endOffset p => do
      return .count (((← world).log mainLog).endOffset p)
  | .entries p => do
      return .entries (((← world).log mainLog).entries p)
  | .failNext cause => do
      change fun w => ((), w.setLog mainLog ((w.log mainLog).failNext cause))
      nothing
  | .hold => do
      change fun w => ((), w.setLog mainLog (w.log mainLog).hold)
      nothing
  | .release => do
      let n ← change fun w =>
        let (n, log) := (w.log mainLog).release
        (n, w.setLog mainLog log)
      return .plain (.number n)
  | .abandon => do
      let n ← change fun w =>
        let (n, log) := (w.log mainLog).abandon
        (n, w.setLog mainLog log)
      return .plain (.number n)

end Logs

section Writers

/-- A writer by its name, with its place. -/
def findWriter (name : String) : Act (Nat × WriteHandle) := do
  let i ← find Names.writers name
  match (← world).writers[i]? with
  | some h => return (i, h)
  | none => throw (.unknown name)

/-- The value as a text. -/
def Value.asText : Option Value → Act (Option String)
  | none => return none
  | some (.text s) => return some s
  | some (.command _) => throw (.unknown "text")

/-- The value as a command. -/
def Value.asCommand : Option Value → Act (Option Command)
  | none => return none
  | some (.command c) => return some c
  | some (.text _) => throw (.unknown "command")

/-- Sends a record: what to wait for. -/
def sendRecord (h : WriteHandle) (topic : String) (partition : Option Nat) (key : String)
    (value : Option Value) : Act Log.Wait := do
  match h.content with
  | .texts schema =>
      let value ← Value.asText value
      change fun w =>
        let (wait, log) := h.writer.send schema (w.log h.log) topic partition key value
        (wait, w.setLog h.log log)
  | .commands schema =>
      match CommandId.parse key with
      | .error e => throw (.id e)
      | .ok id =>
          let value ← Value.asCommand value
          change fun w =>
            let (wait, log) := h.writer.send schema (w.log h.log) topic partition id value
            (wait, w.setLog h.log log)

/-- Performs a step on a writer. -/
def performWriter (name : String) : WriterStep → Act Reply
  | .open content => do
      let i ← change fun w =>
        (w.writers.length, { w with writers := w.writers ++ [{ log := mainLog, content }] })
      rename fun n => { n with writers := n.writers.insert name i }
      nothing
  | .send topic partition key value background => do
      let (_, h) ← findWriter name
      let wait ← sendRecord h topic partition key value
      undertake (.acknowledgment h.log wait) background
  | .close => do
      let (i, h) ← findWriter name
      change fun w =>
        ((), { w with writers := w.writers.set i { h with writer := { isClosed := true } } })
      nothing
  | .isClosed => do
      let (_, h) ← findWriter name
      return .truth h.writer.isClosed

end Writers

section Readers

/-- A reader by its name, with its place. -/
def findReader (name : String) : Act (Nat × ReadHandle) := do
  let i ← find Names.readers name
  match (← world).readers[i]? with
  | some h => return (i, h)
  | none => throw (.unknown name)

/-- Does something with a reader. -/
def withReader {α : Type} (name : String) (f : Log → Reader → α × Reader) : Act α := do
  let (i, h) ← findReader name
  change fun w =>
    let (a, reader) := f (w.log h.log) h.reader
    (a, { w with readers := w.readers.set i { h with reader } })

/-- What a call to a reader brings. -/
def orThrow {α : Type} : Except LogError α → Act α
  | .ok a => return a
  | .error e => throw (.log e)

/-- Performs a step on a reader. -/
def performReader (name : String) : ReaderStep → Act Reply
  | .open content => do
      let i ← change fun w =>
        (w.readers.length, { w with readers := w.readers ++ [{ log := mainLog, content }] })
      rename fun n => { n with readers := n.readers.insert name i }
      nothing
  | .assign ps => do
      orThrow (← withReader name fun _ r => r.assign ps)
      nothing
  | .assignment => do
      return .partitions (← findReader name).2.reader.assignment
  | .position p => do
      return .count ((← findReader name).2.reader.position p)
  | .seek ps => do
      orThrow (← withReader name fun _ r => r.seekToBeginning ps)
      nothing
  | .poll timeout background => do
      let (i, _) ← findReader name
      undertake (.poll i timeout) background
  | .endOffsets ps => do
      return .ends (← orThrow (← withReader name fun log r => r.endOffsets log ps))
  | .wake => do
      withReader name fun _ r => ((), r.wake)
      nothing
  | .close => do
      withReader name fun _ r => ((), r.close)
      nothing
  | .isClosed => do
      return .truth (← findReader name).2.reader.isClosed

end Readers

section Channels

/-- Opens a channel. -/
def openChannel (topic : String) : Backing → Act ChannelRef
  | .log schema => do
      let now ← sim Sim.now
      match ← change (·.openLink now mainLog schema topic) with
      | .ok i => return .link i
      | .error e => throw (.channel e)
  | .service script => do
      let now ← sim Sim.now
      match ← change (·.openService now script topic) with
      | .ok i => return .service i
      | .error e => throw (.channel e)

/-- Performs a step on a channel. -/
def performChannel (name : String) : ChannelStep → Act Reply
  | .open topic backing => do
      let ref ← openChannel topic backing
      rename fun n => { n with channels := n.channels.insert name ref }
      return .channel ((← world).channel ref)
  | .request r background => do
      let ref ← find Names.channels name
      undertake (.request r ref) background
  | .interrupt => do
      let ref ← find Names.channels name
      let now ← sim Sim.now
      change fun w => ((), w.interrupt now ref)
      nothing
  | .isShutDown => do
      let ref ← find Names.channels name
      return .truth ((← world).channel ref).isShutDown
  | .calls => do
      match ← find Names.channels name with
      | .link _ => throw (.unknown name)
      | .service i =>
          let seen := ((World.service i).get (← world)).client.seen
          return .calls seen.reverse

end Channels

section Runners

/-- The post of a runner on a channel. -/
def postOn (plan : RunnerPlan) : ChannelRef → Post :=
  let bench : Workbench :=
    { delay := plan.delay, rejects := plan.rejects, breaksOn := plan.breaksOn }
  fun
    | .link i => .link i bench { timing := plan.timing }
    | .service i => .service i bench { timing := plan.timing }

/-- Performs a step on a runner. -/
def performRunner (name : String) : RunnerStep → Act Reply
  | .start channel plan => do
      let ref ← find Names.channels channel
      let post ← change (·.addPost (postOn plan ref))
      let _ ← sim (Sim.spawn (.work post))
      rename fun n => { n with runners := n.runners.insert name { post } }
      nothing
  | .state => do
      let entry ← find Names.runners name
      match (← world).posts[entry.post]? with
      | none => throw (.unknown name)
      | some p =>
          return .runner (if entry.stopRequested then none else some p.result?.isSome) p.bench
  | .stop background => do
      let entry ← find Names.runners name
      if entry.stopRequested then throw (.unknown name)
      rename fun n => { n with
        runners := n.runners.insert name { entry with stopRequested := true } }
      let now ← sim Sim.now
      change fun w => ((), w.stopPost now entry.post)
      undertake (.endOf entry.post) background

end Runners

section Clusters

/-- The log of a new cluster. -/
def clusterLog (onNewLog : Bool) : Act Nat :=
  if onNewLog then change fun w => (w.logs.length, { w with logs := w.logs ++ [{}] })
  else return mainLog

/-- Performs a step on a cluster. -/
def performCluster (name : String) : ClusterStep → Act Reply
  | .start size settings onNewLog => do
      let log ← clusterLog onNewLog
      let c ← sim (Cluster.start log size settings)
      rename fun n => { n with clusters := n.clusters.insert name c }
      return .clusterSize (← sim (Cluster.find c)).nodes.length
  | .submit node id command => do
      let c ← find Names.clusters name
      return .plain (← sim (Cluster.submit c node id command))
  | .send node id command background => do
      let c ← find Names.clusters name
      let n ← sim (Cluster.node c node)
      undertake (.onLink n.link (.entered (.send id command))) background
  | .interrupt node => do
      let c ← find Names.clusters name
      let n ← sim (Cluster.node c node)
      let now ← sim Sim.now
      change fun w => ((), w.interrupt now (.link n.link))
      nothing
  | .snapshot node => do
      let c ← find Names.clusters name
      return .engine (← sim (Cluster.snapshot c node))
  | .endOffset => do
      let c ← find Names.clusters name
      return .plain (.number (← sim (Cluster.endOffset c)))
  | .converge timeout => do
      let c ← find Names.clusters name
      return .engine (← sim (Cluster.converge c timeout))
  | .restart node => do
      let c ← find Names.clusters name
      return .plain (.tally (← sim (Cluster.restart c node)))
  | .stop => do
      let c ← find Names.clusters name
      rename fun n => { n with clusters := n.clusters.erase name }
      return .tallies (← sim (Cluster.stop c))
  | .keep node kept => do
      let c ← find Names.clusters name
      let n ← sim (Cluster.node c node)
      rename fun names => { names with kept := names.kept.insert kept n.link }
      nothing

end Clusters

section Running

/-- Performs a step. -/
def perform : Step → Act Reply
  | .refused e => throw (.id e)
  | .log s => performLog s
  | .writer name s => performWriter name s
  | .reader name s => performReader name s
  | .channel name s => performChannel name s
  | .runner name s => performRunner name s
  | .cluster name s => performCluster name s
  | .kept name => do
      let link ← find Names.kept name
      let channel := (← world).channel (.link link)
      match ← observing (sim (Sim.await (.onLink link (.entered .endOffset)))) with
      | .error .hang => throw .hang
      | stop => return .kept channel stop
  | .advance ticks => do
      sim (Sim.sleep ticks)
      nothing
  | .join task => do
      let id ← find Names.tasks task
      match (← world).results.lookup id with
      | some result => return .joined result
      | none => return .pending

/-- How long a step in the foreground may take: four hours of the clock. -/
def stepLimit : Nat := 4 * 60 * 60 * 1000

/-- Performs a step and lets the background settle. -/
def State.next (s : State) (step : Step) : Outcome × State :=
  let limit := s.simulation.now + stepLimit
  let (result, s) := (perform step).run.run { s with simulation := { s.simulation with limit } }
  let simulation := s.simulation.settle
  (⟨result, simulation.now⟩, { s with simulation })

/-- Performs steps in order. -/
def State.performAll (s : State) : List Step → List Outcome
  | [] => []
  | step :: steps =>
      let (outcome, s) := s.next step
      outcome :: s.performAll steps

/-- How many steps of tasks in a row a session lets happen. -/
def patience : Nat := 1000000000

/-- The outcomes of the steps of a session with a log of the given settings. -/
def run (settings : Log.Settings) (steps : List Step) : List Outcome :=
  let simulation : Simulation :=
    { world := { logs := [{ settings }] }, limit := stepLimit, patience }
  State.performAll { simulation } steps

end Running

end Session
end ReplicatedLog
