import ReplicatedLog.Cluster.Basic
import ReplicatedLog.Cluster.Workload

/-!
# Scenarios

Three runs of a cluster with a log of its own, each of which checks what it has
brought about.

* **converge:** the workload is submitted through all nodes in turn, and the nodes
  agree on the entities that are expected;
* **restart:** a node is replaced halfway, and the new one handles every command;
* **interrupt:** a send is interrupted while its acknowledgment is held back; its
  command counts all the same.
-/

namespace ReplicatedLog

/-- What has come of a scenario. -/
structure Scenario.Report where
  name : String
  nodes : Nat
  /-- The entries of the log. -/
  commands : Nat
  /-- The entities that are live on every node. -/
  entities : Nat
  tallies : List (String × Tally)

namespace Scenario

/-- The line about one node. -/
def lineOf (name : String) (t : Tally) : String :=
  "  " ++ name ++ ": replayed=" ++ toString t.replayed ++ " executed=" ++ toString t.executed
    ++ " failed=" ++ toString t.failed ++ " last_offset="
    ++ Cluster.shownOffset t.lastOffset ++ "\n"

/-- The text of a report. -/
def Report.text (r : Report) : String :=
  r.name ++ ": " ++ toString r.nodes ++ " nodes converged on " ++ toString r.commands
    ++ " commands, " ++ toString r.entities ++ " live entities\n"
    ++ String.join (r.tallies.map fun (name, t) => lineOf name t)

/-- The settings of every scenario. -/
def settings : Channel.Settings where
  topic := "simulation_commands"
  timing :=
    { poll := .ofMillis 50
      replayPoll := .ofMillis 50
      backoff := .ofMillis 10 }

/-- How long a scenario waits for agreement, in ticks of the clock. -/
def patience : Nat := 10000

section Parts

/-- Starts a cluster on a log of its own. -/
def startCluster (nodes : Nat) : Sim Nat := do
  let log ← Sim.change fun w => (w.logs.length, { w with logs := w.logs ++ [{}] })
  Cluster.start log nodes settings

/-- Submits the command of the workload with an index through the node whose turn it is. -/
def submitOne (c nodes index : Nat) : Sim Unit := do
  match Workload.command index with
  | .error e => Sim.fail e.message []
  | .ok (id, command) => let _ ← Cluster.submit c (index % nodes) id command

/-- Submits the commands of the workload from an index up to another. -/
def submitRange (c nodes start stop : Nat) : Sim Unit :=
  (List.range' start (stop - start)).forM (submitOne c nodes)

/-- Waits for agreement, stops the cluster and reports. -/
def finish (name : String) (c : Nat) : Sim Report := do
  let agreed ← Cluster.converge c patience
  let nodes := (← Cluster.find c).nodes.length
  let commands ← Cluster.endOffset c
  let tallies ← Cluster.stop c
  return { name, nodes, commands, entities := agreed.entities.size, tallies }

end Parts

section Runs

/-- Submits the workload and checks the number of live entities. -/
def converge (nodes commands : Nat) : Sim Report := do
  let c ← startCluster nodes
  submitRange c nodes 0 commands
  let report ← finish "converge" c
  let expected := Workload.expectedEntities commands
  if report.entities ≠ expected then
    Sim.fail ("expected " ++ toString expected ++ " live entities, found "
      ++ toString report.entities) []
  return report

/-- Restarts the first node halfway and checks that it has handled every command. -/
def restart (nodes commands : Nat) : Sim Report := do
  let c ← startCluster nodes
  let half := commands / 2
  submitRange c nodes 0 half
  let _ ← Cluster.converge c patience
  let _ ← Cluster.restart c 0
  submitRange c nodes half commands
  let report ← finish "restart" c
  match report.tallies with
  | [] => Sim.fail "cluster lost its first node" []
  | (_, t) :: _ =>
      let handled := t.replayed + t.executed + t.failed
      if handled ≠ commands then
        Sim.fail ("restarted node handled " ++ toString handled ++ " of " ++ toString commands
          ++ " commands") []
      return report

/-- Waits until an entry is in the log, looking at most `looks` times after the first. -/
def awaitEntry (c deadline : Nat) : (looks : Nat) → Sim Unit
  | 0 => Sim.fail "append never reached the log" []
  | looks + 1 => do
      if (← Cluster.endOffset c) = 0 then
        if (← Sim.now) < deadline then
          Sim.sleep 5
          awaitEntry c deadline looks
        else Sim.fail "append never reached the log" ["deadline has elapsed"]

/-- Interrupts a send whose acknowledgment is held back. -/
def interrupt (nodes : Nat) : Sim Report := do
  let c ← startCluster nodes
  let log := (← Cluster.find c).log
  Sim.change fun w => ((), w.setLog log (w.log log).hold)
  let first ← Cluster.node c 0
  match Workload.command 0 with
  | .error e => Sim.fail e.message []
  | .ok (id, command) =>
      let send ← Sim.spawn (.onLink first.link (.entered (.send id command)))
      awaitEntry c ((← Sim.now) + patience) (patience / 5 + 1)
      let now ← Sim.now
      Sim.change fun w => ((), w.interrupt now (.link first.link))
      let outcome ← observing (Sim.await (.resultOf send))
      match outcome with
      | .error (.channel (.waitCancelled _)) =>
          Sim.change fun w => ((), w.setLog log (w.log log).release.2)
          finish "interrupt" c
      | _ => Sim.fail "expected a cancelled send" []

end Runs

/-- How long a simulation runs before a task is given up: four hours of its clock. -/
def limit : Nat := 4 * 60 * 60 * 1000

/-- What a scenario comes to in a new world.  The simulation has the patience that a run of its
size may need. -/
def run (nodes commands : Nat) (scenario : Sim Report) : Except Problem Report :=
  let start : Simulation := { limit, patience := 1000 * (nodes + 1) * (commands + 1) }
  (scenario.run.run start).1

end Scenario
end ReplicatedLog
