import ReplicatedLog.Proofs.Cluster.Nodes

/-!
# A cluster agrees

Whatever happens to a cluster and in whatever order, the state of each of its nodes
is the one that the log brings about up to the offset that the node has come to.

* `Cluster.Course` is a cluster under way, and `Cluster.run` makes any moves in their
  order: tasks take steps, commands are submitted through nodes, others use the logs,
  nodes are interrupted and restart;
* `Course.Stands` says that the cluster has all its nodes but the one that restarts,
  and `Stands.perform`: every move keeps that;
* `Course.Agrees` says how the snapshots of the nodes stand to the log, and
  what the cluster converges on.
-/

namespace ReplicatedLog

namespace Simulation

section Background

/-- The simulation after a step of one of the tasks in the background. -/
def stepAt (s : Simulation) (k : Nat) : Simulation :=
  match s.queue[k]? with
  | none => s
  | some (me, t) =>
      match t.step s.now me s.world with
      | (.done result, world) =>
          { s with world := keep me result world, queue := s.queue.eraseIdx k }
      | (.waiting t, world) => { s with world, queue := s.queue.set k (me, t) }

theorem stepAt_keeps (s : Simulation) (k : Nat) : s.Keeps (s.stepAt k) := by
  intro hs
  unfold stepAt
  split
  next => exact ⟨hs, .refl _⟩
  next me t hk =>
    obtain ⟨hkeeps, hquiet⟩ := Task.step_keeps s.now me s.world
      (hs.queue (me, t) (List.mem_of_getElem? hk))
    split
    next result w hstep =>
      rw [hstep] at hkeeps
      obtain ⟨hw, hf⟩ := hkeeps.trans (keep_keeps me result w) hs.world
      exact ⟨⟨hw, fun entry hentry => hs.queue entry (List.mem_of_mem_eraseIdx hentry)⟩, hf⟩
    next t' w hstep =>
      rw [hstep] at hkeeps hquiet
      obtain ⟨hw, hf⟩ := hkeeps hs.world
      refine ⟨⟨hw, fun entry hentry => ?_⟩, hf⟩
      rcases List.mem_or_eq_of_mem_set hentry with hold | hnew
      · exact hs.queue entry hold
      · rw [hnew]
        exact hquiet t' rfl

end Background

end Simulation

namespace Cluster

section Moves

/-- A cluster under way.  While a node restarts it is away from its place. -/
structure Course where
  simulation : Simulation
  away : Option (Nat × Node) := none

/-- The course after an action. -/
def Course.act {α : Type} (s : Course) (a : Sim α) : Course :=
  { s with simulation := (a.run.run s.simulation).2 }

/-- What can happen to a cluster. -/
inductive Move
  /-- Time passes. -/
  | pass (ticks : Nat)
  /-- A task in the background takes a step. -/
  | step (k : Nat)
  /-- A command is submitted through a node, in the background. -/
  | submit (i : Nat) (id : CommandId) (command : Command)
  /-- A command is submitted through a node under the clock. -/
  | submitNow (i : Nat) (id : CommandId) (command : Command)
  /-- The channel of a node is interrupted. -/
  | interrupt (i : Nat)
  /-- Others use one of the logs. -/
  | onLog (i : Nat) (op : Log.Operation)
  /-- A node begins to restart: it is taken out, and its runner is asked to stop. -/
  | leave (i : Nat)
  /-- The channel of the node that restarts is shut down. -/
  | shutDown
  /-- The node that restarts comes back to its place as a new one. -/
  | comeBack
  /-- A node restarts under the clock. -/
  | restartNow (i : Nat)

/-- The course after a move.  A move that cannot be made changes nothing. -/
def perform (c : Nat) (s : Course) : Move → Course
  | .pass ticks => { s with simulation := { s.simulation with now := s.simulation.now + ticks } }
  | .step k => { s with simulation := s.simulation.stepAt k }
  | .submit i id command =>
      s.act do
        let n ← node c i
        Sim.spawn (.onLink n.link (.entered (.send id command)))
  | .submitNow i id command => s.act (Cluster.submit c i id command)
  | .interrupt i =>
      s.act do
        let n ← node c i
        let now ← Sim.now
        Sim.change fun w => ((), w.interrupt now (.link n.link))
  | .onLog i op => s.act (Sim.change fun w => ((), w.setLog i ((w.log i).perform op)))
  | .leave i =>
      match s.away, (node c i).run.run s.simulation with
      | none, (.ok n, _) =>
          { (s.act (setNodes c (·.eraseIdx i))).act do
              let now ← Sim.now
              Sim.change fun w => ((), w.stopPost now n.post) with
            away := some (i, n) }
      | _, _ => s
  | .shutDown =>
      match s.away with
      | some (_, n) => s.act (Sim.spawn (.onLink n.link (.entered .shutDown)))
      | none => s
  | .comeBack =>
      match s.away with
      | some (i, n) =>
          { s.act do
              let cluster ← find c
              let fresh ← Node.start cluster.log cluster.settings n.name
              setNodes c (·.insertIdx i fresh) with
            away := none }
      | none => s
  | .restartNow i =>
      match s.away, (restart c i).run.run s.simulation with
      | none, (.ok _, simulation) => { s with simulation }
      | _, _ => s

/-- The course after moves. -/
def run (c : Nat) (s : Course) (moves : List Move) : Course :=
  moves.foldl (perform c) s

end Moves

section Keeping

/-- The cluster stands, with all its nodes but the one that restarts. -/
def Course.Stands (c log size : Nat) (settings : Channel.Settings) (s : Course) : Prop :=
  ∃ nodes, Cluster.Stands c log settings nodes s.simulation ∧
    match s.away with
    | none => nodes.length = size
    | some (i, _) => nodes.length + 1 = size ∧ i ≤ nodes.length

variable {c log size : Nat} {settings : Channel.Settings} {s : Course}

/-- What keeps the simulation leaves the cluster standing. -/
theorem Course.Stands.keeps (h : s.Stands c log size settings) {simulation : Simulation}
    (hk : s.simulation.Keeps simulation) :
    ({ s with simulation } : Course).Stands c log size settings := by
  obtain ⟨nodes, hstands, hcount⟩ := h
  exact ⟨nodes, hstands.keeps hk, hcount⟩

theorem Course.Stands.act (h : s.Stands c log size settings) {α : Type} {a : Sim α}
    (ha : a.Keeps) : (s.act a).Stands c log size settings :=
  h.keeps (ha s.simulation)

/-- Every move leaves the cluster standing. -/
theorem Course.Stands.perform (h : s.Stands c log size settings) (m : Move) :
    (perform c s m).Stands c log size settings := by
  cases m with
  | pass ticks => exact h.keeps fun hs => ⟨⟨hs.world, hs.queue⟩, .refl _⟩
  | step k => exact h.keeps (s.simulation.stepAt_keeps k)
  | submit i id command =>
      exact h.act (.bind (node_keeps c i) fun n => Sim.spawn_keeps ⟨_, rfl, trivial⟩)
  | submitNow i id command => exact h.act (submit_keeps c i id command)
  | interrupt i =>
      exact h.act (.bind (node_keeps c i) fun n => .bind Sim.now_keeps fun now =>
        Sim.change_keeps fun w => World.keeps_set (Endpoint.keeps_interrupt _ now))
  | onLog i op => exact h.act (Sim.change_keeps fun w => w.keeps_onLog i op)
  | leave i =>
      simp only [Cluster.perform]
      split
      next n simulation haway hn =>
        obtain ⟨nodes, hstands, hcount⟩ := h
        rw [haway] at hcount
        cases hi : nodes[i]? with
        | none =>
            obtain ⟨e, he⟩ := run_node_none hstands hi
            rw [he] at hn
            cases hn
        | some old =>
            obtain ⟨hlt, -⟩ := List.getElem?_eq_some_iff.1 hi
            have hshort : (nodes.eraseIdx i).length = nodes.length - 1 :=
              List.length_eraseIdx_of_lt hlt
            have hstop : (do
                let now ← Sim.now
                Sim.change fun w => ((), w.stopPost now n.post) : Sim Unit).Keeps :=
              .bind Sim.now_keeps fun now => Sim.change_keeps fun w => w.keeps_stopPost now _
            refine ⟨nodes.eraseIdx i, (hstands.left i).keeps (hstop _), ?_⟩
            dsimp only at hcount ⊢
            omega
      next => exact h
  | shutDown =>
      simp only [Cluster.perform]
      split
      next i n _ => exact h.act (Sim.spawn_keeps ⟨_, rfl, trivial⟩)
      next => exact h
  | comeBack =>
      simp only [Cluster.perform]
      split
      next i n haway =>
        obtain ⟨nodes, hstands, hcount⟩ := h
        rw [haway] at hcount
        obtain ⟨fresh, simulation, hstart, hjoined⟩ := hstands.joined n.name i
        refine ⟨nodes.insertIdx i fresh, ?_, ?_⟩
        · change Cluster.Stands c log settings _ (StateT.run (ExceptT.run (find c >>= _)) _).2
          rw [Sim.run_bind_ok (run_find hstands), Sim.run_bind_ok hstart]
          exact hjoined
        · change (nodes.insertIdx i fresh).length = size
          rw [List.length_insertIdx_of_le_length hcount.2]
          exact hcount.1
      next => exact h
  | restartNow i =>
      simp only [Cluster.perform]
      split
      next tally simulation haway hrun =>
        obtain ⟨nodes, hstands, hcount⟩ := h
        obtain ⟨nodes', hlen, hstands'⟩ := hstands.restarted i hrun
        refine ⟨nodes', hstands', ?_⟩
        rw [haway] at hcount
        change match s.away with
          | none => nodes'.length = size
          | some (i, _) => nodes'.length + 1 = size ∧ i ≤ nodes'.length
        rw [haway]
        exact hlen.trans hcount
      next => exact h

theorem run_stands (h : s.Stands c log size settings) (moves : List Move) :
    (run c s moves).Stands c log size settings := by
  induction moves generalizing s with
  | nil => exact h
  | cons m moves ih => exact ih (h.perform m)

end Keeping

section Agreeing

/-- How the snapshots of the nodes stand to the log, and what the cluster converges on. -/
structure Course.Agrees (c log size : Nat) (settings : Channel.Settings) (s : Course) : Prop where
  /-- There is a snapshot of each node, but of the one that restarts. -/
  present : ∀ i, i + s.away.toList.length < size →
    ∃ e, (snapshot c i).run.run s.simulation = (.ok e, s.simulation)
  /-- A snapshot is the state after all commands up to the offset it has come to. -/
  through : ∀ i e s', (snapshot c i).run.run s.simulation = (.ok e, s') →
    e = Engine.through .json (entries s.simulation.world log settings) e.appliedThrough
  /-- Nodes that have come to one offset are in one state. -/
  agree : ∀ i j a b s' s'', (snapshot c i).run.run s.simulation = (.ok a, s') →
    (snapshot c j).run.run s.simulation = (.ok b, s'') → a.appliedThrough = b.appliedThrough →
      a.entities = b.entities ∧ a.executed = b.executed
  /-- All nodes are seen to agree only on the state after all commands. -/
  seen : s.away = none → ∀ v e s', (look c).run.run s.simulation = (.ok v, s') →
    v.agreement = some e → e = Engine.after .json (entries s.simulation.world log settings)
  converged : s.away = none → ∀ timeout e s',
    (converge c timeout).run.run s.simulation = (.ok e, s') →
      e = Engine.after .json (entries s'.world log settings)

variable {c log size : Nat} {settings : Channel.Settings} {s : Course}

/-- A snapshot is that of one of the nodes. -/
theorem snapshot_cases {nodes : List Node} {s s' : Simulation} {i : Nat} {e : Engine}
    (h : Cluster.Stands c log settings nodes s)
    (hrun : (snapshot c i).run.run s = (.ok e, s')) : ∃ n ∈ nodes, e = n.engine s.world := by
  cases hi : nodes[i]? with
  | none =>
      obtain ⟨err, hnone⟩ := run_snapshot_none h hi
      rw [hnone] at hrun
      cases hrun
  | some n =>
      rw [run_snapshot h hi] at hrun
      cases hrun
      exact ⟨n, List.mem_of_getElem? hi, rfl⟩

theorem Course.Stands.agrees (h : s.Stands c log size settings) (hsize : size ≠ 0) :
    s.Agrees c log size settings := by
  obtain ⟨nodes, hstands, hcount⟩ := h
  have hthrough : ∀ i e s', (snapshot c i).run.run s.simulation = (.ok e, s') →
      e = Engine.through .json (entries s.simulation.world log settings) e.appliedThrough := by
    intro i e s' hrun
    obtain ⟨n, hn, rfl⟩ := snapshot_cases hstands hrun
    exact (hstands.on n hn).engine_eq hstands.sound.world
  have hmanned : s.away = none → nodes ≠ [] := by
    rintro haway rfl
    rw [haway] at hcount
    exact hsize hcount.symm
  refine ⟨fun i hi => ?_, hthrough, fun i j a b s' s'' ha hb heq => ?_,
    fun haway v e s' hlook hv => ?_, fun haway timeout e s' hrun => ?_⟩
  · have hlt : i < nodes.length := by
      cases haway : s.away with
      | none =>
          rw [haway] at hi hcount
          simp at hi hcount
          omega
      | some entry =>
          rw [haway] at hi hcount
          simp at hi hcount
          omega
    exact ⟨_, run_snapshot hstands (List.getElem?_eq_getElem hlt)⟩
  · have hsame : a = b := by
      rw [hthrough i a s' ha, hthrough j b s'' hb, heq]
    rw [hsame]
    exact ⟨rfl, rfl⟩
  · rw [run_look hstands] at hlook
    cases hlook
    exact hstands.agreed (hmanned haway) hv
  · exact hstands.converged (hmanned haway) timeout hrun

/-- A simulation with nothing but logs is sound. -/
theorem sound_of_logs (now limit patience : Nat) (logs : List Log) :
    Simulation.Sound { now, world := { logs }, limit, patience } := by
  refine ⟨⟨fun j i b r hj => ?_, fun j j' i b r b' r' hj => ?_⟩, fun entry hentry => ?_⟩
  · cases hj
  · cases hj
  · cases hentry

/-- After any moves of a cluster that has been started on a log, each node is in the state that the
log brings about up to the offset that it has come to; nodes that have come to one offset agree; and
if all agree, it is on the state after all commands of the log. -/
theorem run_agrees {now limit patience : Nat} {logs : List Log} {simulation : Simulation}
    (hlog : log < logs.length)
    (hstart : (start log size settings).run.run { now, world := { logs }, limit, patience } =
      (.ok c, simulation)) (moves : List Move) :
    (run c { simulation } moves).Agrees c log size settings := by
  obtain ⟨hsize, nodes, hlen, hstands⟩ :=
    stands_of_start hlog (sound_of_logs now limit patience logs) hstart
  exact (run_stands (s := { simulation }) ⟨nodes, hstands, hlen⟩ moves).agrees hsize

end Agreeing

section Sample

/-- A cluster of two nodes on an empty log. -/
def sampleStart : Simulation :=
  ((start 0 2 {}).run.run { world := { logs := [{}] }, limit := 10000, patience := 100 }).2

/-- One command is submitted, the second node restarts, and both runners replay the log. -/
def sampleMoves : List Move :=
  [.submit 0 ⟨.table, "items", .create, by decide⟩ { statement := "CREATE" }, .step 2, .step 2,
    .leave 1, .comeBack] ++
  List.replicate 5 (.step 0) ++ List.replicate 5 (.step 2) ++ .pass 2000 ::
  List.replicate 5 (.step 0) ++ List.replicate 5 (.step 2)

/-- The cluster of the sample converges on the state after its only command. -/
theorem run_agrees_sample :
    (((converge 0 0).run.run
      (run 0 { simulation := sampleStart } sampleMoves).simulation).1.toOption.map
        fun e => (e.entities.entries, e.appliedThrough)) =
      some ([("table/items", "CREATE")], some 0) ∧
    (run 0 { simulation := sampleStart } sampleMoves).Agrees 0 0 2 {} := by
  refine ⟨by decide +kernel, ?_⟩
  obtain ⟨nodes, s', hstart, -, -⟩ := start_stands (show 2 ≠ 0 by decide) {}
    (show 0 < ([{}] : List Log).length by decide) (sound_of_logs 0 10000 100 [{}])
  have hsample : sampleStart = s' := congrArg Prod.snd hstart
  rw [hsample]
  exact run_agrees (by decide) hstart sampleMoves

end Sample

end Cluster
end ReplicatedLog
