import ReplicatedLog.Simulation.Clock

/-!
# Clusters

A cluster is a number of nodes that share the commands of one topic of one log.
Each node has a channel, an engine and a runner that brings the commands to the
engine.  A command may be submitted through any node, and in the end all nodes
agree: `Cluster.converge` waits until every node has handled the last entry of the
log and all have the same state.

A cluster is known by its place in the world.  Failures are told in words, with
the causes behind them.
-/

namespace ReplicatedLog

/-- A failure in words. -/
def Sim.fail {α : Type} (message : String) (causes : List String) : Sim α :=
  throw (.failure message causes)

namespace Node

/-- Opens a channel and sets a runner to work on it. -/
def start (log : Nat) (settings : Channel.Settings) (name : String) : Sim Node := do
  let now ← Sim.now
  match ← Sim.change (·.openLink now log .json settings.topic) with
  | .error e => Sim.fail e.message []
  | .ok link =>
      let post ← Sim.change (·.addPost (.link link {} { timing := settings.timing }))
      let _ ← Sim.spawn (.work post)
      return { name, link, post }

/-- Stops the runner and shuts the channel down: what the runner came to. -/
def stop (n : Node) : Sim Tally := do
  let now ← Sim.now
  Sim.change fun w => ((), w.stopPost now n.post)
  let answer ← tryCatch (Sim.await (.endOf n.post)) fun
    | .channel e => Sim.fail e.message []
    | .taskFailed => Sim.fail (RunnerError.taskFailed "").message []
    | p => throw p
  let _ ← Sim.await (.onLink n.link (.entered .shutDown))
  match answer with
  | .tally t => return t
  | _ => return {}

/-- The engine of a node. -/
def engine (w : World) (n : Node) : Engine :=
  ((w.posts[n.post]?).map fun p => p.bench.engine).getD {}

end Node

namespace Cluster

section Starting

/-- Starts a cluster on a log, with at least one node. -/
def start (log size : Nat) (settings : Channel.Settings) : Sim Nat := do
  if size = 0 then Sim.fail "a cluster needs at least one node" []
  let nodes ← (List.range size).mapM fun i =>
    Node.start log settings ("node-" ++ toString i)
  Sim.change fun w =>
    (w.clusters.length, { w with clusters := w.clusters ++ [{ log, settings, nodes }] })

end Starting

section Looking

/-- A cluster by its place. -/
def find (c : Nat) : Sim Cluster := do
  match (← Sim.world).clusters[c]? with
  | some cluster => return cluster
  | none => throw (.unknown "cluster")

/-- A node of a cluster. -/
def node (c i : Nat) : Sim Node := do
  let cluster ← find c
  match cluster.nodes[i]? with
  | some n => return n
  | none =>
      Sim.fail ("no node " ++ toString i ++ " in a cluster of " ++ toString cluster.nodes.length)
        []

/-- The engine of a node as it stands. -/
def snapshot (c i : Nat) : Sim Engine := do
  let n ← node c i
  return n.engine (← Sim.world)

/-- The partition that holds the commands. -/
def partition (cluster : Cluster) : Partition :=
  ⟨cluster.settings.topic, Channel.commandPartition⟩

/-- The end of the partition that holds the commands. -/
def endOffset (c : Nat) : Sim Nat := do
  let cluster ← find c
  return (((← Sim.world).log cluster.log).endOffset cluster.partition).getD 0

end Looking

section Submitting

/-- Submits a command through a node. -/
def submit (c i : Nat) (id : CommandId) (command : Command) : Sim Answer := do
  let n ← node c i
  tryCatch (Sim.await (.onLink n.link (.entered (.send id command)))) fun
    | .channel e => Sim.fail (n.name ++ " failed to send") [e.message]
    | p => throw p

end Submitting

section Converging

/-- How often waiting for agreement looks again, in ticks of the clock. -/
def lookInterval : Nat := 10

/-- How messages show an offset that may be missing. -/
def shownOffset : Option Nat → String
  | none => "None"
  | some n => "Some(" ++ toString n ++ ")"

/-- How messages show the offsets of all nodes. -/
def shownOffsets (offsets : List (Option Nat)) : String :=
  "[" ++ ", ".intercalate (offsets.map shownOffset) ++ "]"

/-- The offset of the last entry below an end. -/
def lastBelow : (stop : Nat) → Option Nat
  | 0 => none
  | n + 1 => some n

/-- What a look at a cluster shows. -/
structure View where
  /-- The offset of the last entry of the log. -/
  target : Option Nat
  /-- The engines of the nodes. -/
  engines : List Engine

/-- The state on which all engines agree, if they have handled the last entry. -/
def View.agreement (v : View) : Option Engine :=
  match v.engines with
  | [] => some {}
  | e :: es =>
      if e.appliedThrough = v.target ∧ ∀ other ∈ es, other = e then some e else none

/-- The failure to agree in time. -/
def View.disagreement (v : View) : Sim Engine :=
  Sim.fail ("cluster did not converge on " ++ shownOffset v.target ++ ", nodes at "
    ++ shownOffsets (v.engines.map Engine.appliedThrough)) []

/-- Looks at a cluster. -/
def look (c : Nat) : Sim View := do
  let w ← Sim.world
  return ⟨lastBelow (← endOffset c), (← find c).nodes.map (Node.engine w)⟩

/-- Looks for agreement until the deadline, at most `looks` times after the first. -/
def convergeBy (c deadline : Nat) : (looks : Nat) → Sim Engine
  | 0 => do
      let v ← look c
      match v.agreement with
      | some e => return e
      | none => v.disagreement
  | looks + 1 => do
      let v ← look c
      match v.agreement with
      | some e => return e
      | none =>
          if (← Sim.now) < deadline then
            Sim.sleep lookInterval
            convergeBy c deadline looks
          else v.disagreement

/-- Waits until all nodes agree on the whole log: the state they agree on.  Every look but the
last waits a while, so there are no more of them than the timeout leaves time for. -/
def converge (c timeout : Nat) : Sim Engine := do
  convergeBy c ((← Sim.now) + timeout) (timeout / lookInterval + 1)

end Converging

section Changing

/-- Replaces the nodes of a cluster. -/
def setNodes (c : Nat) (f : List Node → List Node) : Sim Unit :=
  Sim.change fun w =>
    ((), { w with clusters := w.clusters.modify c fun k => { k with nodes := f k.nodes } })

/-- Replaces a node with a new one that has to replay the log: what the old runner came to. -/
def restart (c i : Nat) : Sim Tally := do
  let old ← node c i
  setNodes c (·.eraseIdx i)
  let tally ← old.stop
  let cluster ← find c
  let fresh ← Node.start cluster.log cluster.settings old.name
  setNodes c (·.insertIdx i fresh)
  return tally

/-- Stops the nodes one after the other: what their runners came to. -/
def stop (c : Nat) : Sim (List (String × Tally)) := do
  let cluster ← find c
  cluster.nodes.mapM fun n => do
    return (n.name, ← n.stop)

end Changing

end Cluster
end ReplicatedLog
